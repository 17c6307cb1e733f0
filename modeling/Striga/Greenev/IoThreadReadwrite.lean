import Striga.Greenev.IoBufferExchange
import Striga.Greenev.IoThreadClose

/-! The slots of one read event: those that `readv` has put something into are
kept, the others go back to `tmp_io_buf`. -/

set_option autoImplicit false

namespace Striga.Greenev.IoThread

open Lib.LinkedList

variable {layout : IoBufferLayout}

/-- `_on_io_thread_readwrite` on `EV_READ`, for any `wanted_iovcnt`. -/
def onIoThreadRead (layout : IoBufferLayout) (wantedIovcnt fuel : Nat) (sockobj : Addr) (size : Int)
    (this : IoThread) : Except Fault IoThread := do
  let (iovecs, buffer) := this.tmpIoBuf.get layout wantedIovcnt
  let this := { this with tmpIoBuf := buffer }
  if iovecs.length = 0 then
    pure this
  else if size ≤ 0 then
    let this ← this.sockobjClose fuel sockobj
    this.putBack iovecs
  else
    let usedIovcnt := 1 + (size.toNat - 1) / layout.slotSize
    if usedIovcnt = wantedIovcnt then
      pure this
    else if usedIovcnt < iovecs.length then
      this.putBack (iovecs.drop usedIovcnt)
    else
      pure this

theorem onIoThreadReadwrite_eq_onIoThreadRead {revents : EvEvents} (read : revents.read = true)
    (fuel : Nat) (sockobj : Addr) (size : Int) (this : IoThread) :
    onIoThreadReadwrite layout fuel sockobj revents size this =
      onIoThreadRead layout wantedIovcnt fuel sockobj size this := by
  rw [onIoThreadReadwrite, if_pos read]
  rfl

/-- The slots that the event gets from `tmp_io_buf`. -/
def obtained (layout : IoBufferLayout) (wantedIovcnt : Nat) (this : IoThread) : List Iovec :=
  (this.tmpIoBuf.get layout wantedIovcnt).1

/-- The thread once they are taken. -/
def taken (layout : IoBufferLayout) (wantedIovcnt : Nat) (this : IoThread) : IoThread :=
  { this with tmpIoBuf := (this.tmpIoBuf.get layout wantedIovcnt).2 }

/-- How `readv`, which fills the slots in their order, leaves them and the
thread: what is kept, what has gone back into the table, and that the socket is
closed if nothing has come in. -/
structure Accounts (layout : IoBufferLayout) (wantedIovcnt : Nat) (addrs : List Addr)
    (sockobj : Addr) (size : Int) (this : IoThread) (kept returned : List Iovec)
    (after : IoThread) : Prop where
  all : kept ++ returned = this.obtained layout wantedIovcnt
  touched : ∀ index < (this.obtained layout wantedIovcnt).length,
    index < kept.length ↔ (layout.slotSize * index : Nat) < size
  nothing : size ≤ 0 → returned = this.obtained layout wantedIovcnt
  used : 0 < size → 1 + (size.toNat - 1) / layout.slotSize = kept.length
  suffix : 0 < size → returned = (this.obtained layout wantedIovcnt).drop
    ((size.toNat + layout.slotSize - 1) / layout.slotSize)
  buffer : this.tmpIoBuf.Exchanged layout (this.obtained layout wantedIovcnt) returned
    after.tmpIoBuf
  closes : size ≤ 0 → ClosedOne { this with tmpIoBuf := after.tmpIoBuf } addrs sockobj after
  spares : 0 < size → after = { this with tmpIoBuf := after.tmpIoBuf }
  closed_iff : after.closed ≠ this.closed ↔ size ≤ 0

/-- The rounding division of the source is the one that rounds up. -/
private theorem usedIovcnt_eq_ceil {size slotSize : Nat} (positive : 0 < slotSize)
    (some : 0 < size) :
    1 + (size - 1) / slotSize = (size + slotSize - 1) / slotSize := by
  have sum : size + slotSize - 1 = size - 1 + slotSize := by omega
  rw [sum, Nat.add_div_right _ positive]
  omega

private theorem lt_usedIovcnt_iff {size slotSize : Nat} (positive : 0 < slotSize) (some : 0 < size)
    (index : Nat) : index < 1 + (size - 1) / slotSize ↔ slotSize * index < size := by
  have cover := Nat.le_div_iff_mul_le positive (x := index) (y := size - 1)
  rw [Nat.mul_comm] at cover
  omega

private theorem usedIovcnt_le {size slotSize iovcnt : Nat} (positive : 0 < slotSize)
    (some : 0 < size) (fits : size ≤ iovcnt * slotSize) : 1 + (size - 1) / slotSize ≤ iovcnt := by
  have below : (size - 1) / slotSize < iovcnt := by
    rw [Nat.div_lt_iff_lt_mul positive]
    omega
  omega

private theorem length_get_le (wanted : Nat) : ∀ buffer : IoBuffer,
    (buffer.get layout wanted).1.length ≤ wanted := by
  induction wanted with
  | zero => exact fun _ => Nat.le_refl 0
  | succ wanted ih =>
    intro buffer
    unfold IoBuffer.get
    split
    · exact Nat.zero_le _
    · exact Nat.succ_le_succ (ih _)

private theorem putBack_nil (this : IoThread) : this.putBack [] = pure this := rfl

private theorem putBack_of_put {this : IoThread} {iovecs : List Iovec} {buffer : IoBuffer}
    (put : this.tmpIoBuf.put iovecs = some buffer) :
    this.putBack iovecs = .ok { this with tmpIoBuf := buffer } := by
  rw [putBack, put]
  rfl

theorem onIoThreadRead_closes {wantedIovcnt fuel : Nat} {sockobj : Addr} {size : Int}
    {this : IoThread}
    (some : 0 < (this.obtained layout wantedIovcnt).length) (nothing : size ≤ 0) :
    onIoThreadRead layout wantedIovcnt fuel sockobj size this =
      ((this.taken layout wantedIovcnt).sockobjClose fuel sockobj).bind
        (putBack · (this.obtained layout wantedIovcnt)) := by
  have nonempty : (this.tmpIoBuf.get layout wantedIovcnt).1.length ≠ 0 := Nat.ne_of_gt some
  unfold onIoThreadRead
  dsimp only
  rw [if_neg nonempty, if_pos nothing]
  rfl

/-- Whether all wanted slots are used, or all that there were, or fewer than
that: what goes back is what is behind the used ones. -/
theorem onIoThreadRead_keeps {wantedIovcnt fuel : Nat} {sockobj : Addr} {size : Int}
    {this : IoThread}
    (some : 0 < (this.obtained layout wantedIovcnt).length) (came : 0 < size) :
    onIoThreadRead layout wantedIovcnt fuel sockobj size this =
      (this.taken layout wantedIovcnt).putBack
        ((this.obtained layout wantedIovcnt).drop (1 + (size.toNat - 1) / layout.slotSize)) := by
  have nonempty : (this.tmpIoBuf.get layout wantedIovcnt).1.length ≠ 0 := Nat.ne_of_gt some
  have enough : (this.obtained layout wantedIovcnt).length ≤ wantedIovcnt := length_get_le _ _
  unfold onIoThreadRead
  dsimp only
  rw [if_neg nonempty, if_neg (Int.not_le.mpr came)]
  split
  · rename_i exhausted
    rw [List.drop_eq_nil_of_le (exhausted ▸ enough), putBack_nil]
    rfl
  · split
    · rfl
    · rename_i used
      have all : (this.obtained layout wantedIovcnt).length ≤
          1 + (size.toNat - 1) / layout.slotSize := Nat.not_lt.mp used
      rw [List.drop_eq_nil_of_le all, putBack_nil]
      rfl

theorem onIoThreadRead_spares {wantedIovcnt fuel : Nat} {sockobj : Addr} {size : Int}
    {this : IoThread} (some : 0 < (this.obtained layout wantedIovcnt).length) (came : 0 < size)
    (inOrder : this.tmpIoBuf.InOrder (this.obtained layout wantedIovcnt).length) :
    ∃ buffer, onIoThreadRead layout wantedIovcnt fuel sockobj size this =
        .ok { this with tmpIoBuf := buffer } ∧
      this.tmpIoBuf.Exchanged layout (this.obtained layout wantedIovcnt)
        ((this.obtained layout wantedIovcnt).drop (1 + (size.toNat - 1) / layout.slotSize))
        buffer := by
  have few : ((this.obtained layout wantedIovcnt).drop
      (1 + (size.toNat - 1) / layout.slotSize)).length ≤
      (this.obtained layout wantedIovcnt).length := by
    rw [List.length_drop]
    exact Nat.sub_le _ _
  obtain ⟨buffer, put, exchanged⟩ := inOrder.exchanges few
  refine ⟨buffer, ?_, exchanged⟩
  rw [onIoThreadRead_keeps some came]
  exact putBack_of_put put

theorem onIoThreadRead_closedOne {wantedIovcnt fuel : Nat} {addrs : List Addr} {sockobj : Addr}
    {size : Int} {this : IoThread} (some : 0 < (this.obtained layout wantedIovcnt).length)
    (nothing : size ≤ 0)
    (inOrder : this.tmpIoBuf.InOrder (this.obtained layout wantedIovcnt).length)
    (chain : Chain this.links this.established addrs) (member : sockobj ∈ addrs)
    (enough : addrs.length ≤ fuel) :
    ∃ after, onIoThreadRead layout wantedIovcnt fuel sockobj size this = .ok after ∧
      this.tmpIoBuf.Exchanged layout (this.obtained layout wantedIovcnt)
        (this.obtained layout wantedIovcnt) after.tmpIoBuf ∧
      ClosedOne { this with tmpIoBuf := after.tmpIoBuf } addrs sockobj after := by
  obtain ⟨closed, closing, one⟩ := sockobjClose_closedOne
    (this.taken layout wantedIovcnt) addrs sockobj fuel chain member enough
  obtain ⟨buffer, put, exchanged⟩ := inOrder.exchanges (Nat.le_refl _)
  refine ⟨{ closed with tmpIoBuf := buffer }, ?_, exchanged, { one with tmpIoBuf := rfl }⟩
  rw [onIoThreadRead_closes some nothing, closing]
  refine putBack_of_put ?_
  rw [one.tmpIoBuf]
  exact put

/-- A read event keeps the slots that `readv` has touched, gives the others back,
and closes its socket exactly if nothing has come in. -/
theorem onIoThreadRead_accounts (layout : IoBufferLayout) (wantedIovcnt fuel : Nat)
    (addrs : List Addr) (sockobj : Addr) (size : Int) (this : IoThread)
    (some : 0 < (this.obtained layout wantedIovcnt).length)
    (fits : size ≤ ((this.obtained layout wantedIovcnt).length * layout.slotSize : Nat))
    (inOrder : this.tmpIoBuf.InOrder (this.obtained layout wantedIovcnt).length)
    (chain : Chain this.links this.established addrs) (member : sockobj ∈ addrs)
    (enough : addrs.length ≤ fuel) :
    ∃ kept returned after,
      onIoThreadRead layout wantedIovcnt fuel sockobj size this = .ok after ∧
      Accounts layout wantedIovcnt addrs sockobj size this kept returned after := by
  rcases Int.lt_or_le 0 size with came | nothing
  · obtain ⟨bytes, rfl⟩ := Int.eq_ofNat_of_zero_le (Int.le_of_lt came)
    have positive : 0 < bytes := Int.ofNat_lt.mp came
    have used : 1 + (bytes - 1) / layout.slotSize ≤ (this.obtained layout wantedIovcnt).length :=
      usedIovcnt_le layout.positive positive (Int.ofNat_le.mp fits)
    have kept := List.length_take_of_le used
    obtain ⟨buffer, done, exchanged⟩ := @onIoThreadRead_spares _ _ fuel sockobj _ _ some
      came inOrder
    exact ⟨_, _, _, done, {
      all := List.take_append_drop (1 + (bytes - 1) / layout.slotSize) _
      touched := by
        intro index _
        rw [kept, lt_usedIovcnt_iff layout.positive positive]
        exact Int.ofNat_lt.symm
      nothing := fun nothing => absurd came (Int.not_lt.mpr nothing)
      used := fun _ => kept.symm
      suffix := by
        intro _
        rw [Int.toNat_natCast, usedIovcnt_eq_ceil layout.positive positive]
      buffer := exchanged
      closes := fun nothing => absurd came (Int.not_lt.mpr nothing)
      spares := fun _ => rfl
      closed_iff := iff_of_false (fun differs => differs rfl) (Int.not_le.mpr came) }⟩
  · obtain ⟨after, done, exchanged, one⟩ :=
      onIoThreadRead_closedOne some nothing inOrder chain member enough
    exact ⟨[], _, after, done, {
      all := List.nil_append _
      touched := by
        intro index _
        rw [List.length_nil]
        omega
      nothing := fun _ => rfl
      used := fun came => absurd came (Int.not_lt.mpr nothing)
      suffix := fun came => absurd came (Int.not_lt.mpr nothing)
      buffer := exchanged
      closes := fun _ => one
      spares := fun came => absurd came (Int.not_lt.mpr nothing)
      closed_iff := by
        obtain ⟨node, _, closed⟩ := one.closed
        refine iff_of_true ?_ nothing
        rw [closed]
        simp }⟩

/-- Two of four slots are to be had, and `readv` fills exactly one. -/
theorem onIoThreadRead_accounts_one_of_two :
    let node : SockObj := connectedSocket 11 2 1 0 []
    let this : IoThread := { IoThread.ctor .lp64 (fun _ => ⟨0, none⟩) 0 (fun _ => 0) with
      tmpIoBuf := ⟨0, 4, 2, 0, IoBuffer.slot .lp64 0⟩
      heap := fun addr => if addr = 7 then some node else none
      established := some 7 }
    ∃ kept returned after, onIoThreadRead .lp64 4 1 7 16384 this = .ok after ∧
      Accounts .lp64 4 [7] 7 16384 this kept returned after := by
  intro node this
  have chain : Chain this.links this.established [7] := ⟨rfl, none, rfl, rfl⟩
  exact onIoThreadRead_accounts .lp64 4 1 [7] 7 16384 this (by decide) (by decide)
    ⟨by decide, .inl (by decide)⟩ chain (by simp) (by simp)

end Striga.Greenev.IoThread
