import Striga.Greenev.IoThreadReadwrite
import Striga.Greenev.IoThreadTraffic

/-! The slots that the read events of the IO thread get, over whole runs. Which
ones depends on the number of events alone: neither what comes in nor what is
given back has any influence, as long as nothing is written behind the block. -/

set_option autoImplicit false

namespace Striga.Greenev

open Lib

namespace IoThread

variable {layout : IoBufferLayout} {this after : IoThread}

private theorem onIotCmd_tmpIoBuf {reads : Addr → FreedRead} {fuel : Nat} {cmd : Cmd (Option Addr)}
    (done : this.onIotCmd reads fuel cmd = .ok after) : after.tmpIoBuf = this.tmpIoBuf := by
  unfold onIotCmd at done
  split at done
  · obtain ⟨_, _, done⟩ := bind_ok done
    obtain ⟨_, _, done⟩ := bind_ok done
    cases done
    rfl
  split at done
  · split at done
    · cases done
    · obtain ⟨_, _, done⟩ := bind_ok done
      cases done
      rfl
  split at done
  · split at done
    · cases done
    · obtain ⟨_, _, done⟩ := bind_ok done
      cases done
      rfl
  · cases done
    rfl

private theorem onIoThreadAccept_tmpIoBuf {app : Bool} {sockobj addr : Addr} {revents : EvEvents}
    {accepted : Accepted}
    (done : this.onIoThreadAccept app sockobj revents accepted addr = .ok after) :
    after.tmpIoBuf = this.tmpIoBuf := by
  unfold onIoThreadAccept at done
  obtain ⟨_, _, done⟩ := bind_ok done
  split at done
  · cases done
    rfl
  split at done
  · split at done
    · cases done
      rfl
    split at done
    · cases done
      rfl
    · cases done
      rfl
  · cases done
    rfl

private theorem assign_tmpIoBuf {value : Option Addr} {place : Place}
    (done : this.assign value place = .ok after) : after.tmpIoBuf = this.tmpIoBuf := by
  cases place with
  | head =>
      cases done
      rfl
  | next addr =>
      obtain ⟨_, _, done⟩ := bind_ok done
      cases done
      rfl

private theorem unlink_tmpIoBuf {sockobj : Addr} {fuel : Nat} {prev : Place} {i : Option Addr}
    (done : this.unlink sockobj fuel prev i = .ok after) : after.tmpIoBuf = this.tmpIoBuf := by
  induction fuel generalizing prev i with
  | zero => cases i <;> cases done
  | succ fuel ih =>
      cases i with
      | none => cases done
      | some addr =>
          unfold unlink at done
          obtain ⟨node, _, done⟩ := bind_ok done
          split at done
          · obtain ⟨_, assigned, done⟩ := bind_ok done
            cases done
            have same := assign_tmpIoBuf assigned
            exact same
          · exact ih done

private theorem sockobjClose_tmpIoBuf {sockobj : Addr} {fuel : Nat}
    (done : this.sockobjClose fuel sockobj = .ok after) : after.tmpIoBuf = this.tmpIoBuf := by
  unfold sockobjClose at done
  obtain ⟨_, _, done⟩ := bind_ok done
  have same := unlink_tmpIoBuf done
  exact same

end IoThread

namespace IoThreadReading

/-- The IO thread, and what each of its read events has got from the buffer. -/
structure State where
  io : IoThreadTraffic.State
  reads : List (List Iovec)

inductive Label where
  | event (sockobj : Addr) (revents : EvEvents) (size : Int)
  | other (label : IoThreadTraffic.Label)

/-- The steps of the IO thread, with those of `_on_io_thread_readwrite` told by
the event and by what `readv` returns. -/
inductive Step (layout : IoBufferLayout) : State → Label → State → Prop where
  | event {state sockobj fuel revents size thread} :
      state.io.control = .waiting →
      state.io.thread.Watched .onIoThreadReadwrite sockobj →
      state.io.thread.onIoThreadReadwrite layout fuel sockobj revents size = .ok thread →
      Step layout state (.event sockobj revents size)
        { io := { state.io with thread := thread }
          reads := if revents.read then
              state.reads ++ [state.io.thread.obtained layout IoThread.wantedIovcnt]
            else state.reads }
  | other {state label io} :
      IoThreadTraffic.Step layout state.io label io →
      (∀ sockobj, label ≠ .readwrite sockobj) →
      Step layout state (.other label) { state with io := io }

def system (layout : IoBufferLayout) : System State Label where
  initial state := ∃ io, (IoThreadTraffic.system layout).initial io ∧ state = ⟨io, []⟩
  step := Step layout

/-- The four slots whose turn it is in the read event of the given number. -/
def turn (layout : IoBufferLayout) (data number : Nat) : List Iovec :=
  (Residue.residues 8192 (4 * number) 4).map fun index =>
    ⟨IoBuffer.slot layout data index, layout.slotSize⟩

/-- However much was given back, all of it was written within the block. -/
def State.HeadFits (layout : IoBufferLayout) (state : State) : Prop :=
  layout.Holds 8192 (8192 + 4 * state.reads.length)

structure Valid (layout : IoBufferLayout) (state : State) : Prop where
  io : (IoThreadTraffic.system layout).Reachable state.io
  reads : state.reads =
    (List.range state.reads.length).map (turn layout state.io.thread.tmpIoBuf.data)
  buffer : ∃ returned ≤ 4 * state.reads.length,
    state.io.thread.tmpIoBuf.Runaway layout 8192 state.io.thread.tmpIoBuf.data
      (4 * state.reads.length) returned

variable {layout : IoBufferLayout} {state next : State}

private theorem tmpIoBuf_step {io after : IoThreadTraffic.State} {label : IoThreadTraffic.Label}
    (taken : IoThreadTraffic.Step layout io label after)
    (apart : ∀ sockobj, label ≠ .readwrite sockobj) :
    after.thread.tmpIoBuf = io.thread.tmpIoBuf := by
  cases taken with
  | die | sendDie | listen | connect | send | start | wake | leave | stop => rfl
  | iterate =>
      unfold IoThreadTraffic.State.iterate
      split <;> rfl
  | command _ done => exact IoThread.onIotCmd_tmpIoBuf done
  | accept _ _ _ done => exact IoThread.onIoThreadAccept_tmpIoBuf done
  | readwrite => exact absurd rfl (apart _)

theorem obtained_eq {io : IoThread} {data lent returned : Nat}
    (runaway : io.tmpIoBuf.Runaway layout 8192 data (4 * lent) returned) :
    io.obtained layout IoThread.wantedIovcnt = turn layout data lent ∧
      (io.taken layout IoThread.wantedIovcnt).tmpIoBuf.Runaway layout 8192 data (4 * (lent + 1))
        returned :=
  runaway.get (by decide) IoThread.wantedIovcnt

private theorem putBack_runaway {io : IoThread} {data lent returned : Nat} {iovecs : List Iovec}
    (runaway : io.tmpIoBuf.Runaway layout 8192 data lent returned) (few : iovecs.length ≤ 4)
    (fits : 8192 + returned + 4 < 2 ^ 32) :
    ∃ buffer, io.putBack iovecs = .ok { io with tmpIoBuf := buffer } ∧
      buffer.Runaway layout 8192 data lent (returned + iovecs.length) := by
  obtain ⟨buffer, done, after⟩ := runaway.put iovecs (by decide)
    (by rw [show (8192 : UInt32).toNat = 8192 from rfl]; omega)
  exact ⟨buffer, by rw [IoThread.putBack, done]; rfl, after⟩

/-- A read event takes its turn, whatever comes of it. -/
private theorem read_runaway {io thread : IoThread} {data lent returned fuel : Nat} {sockobj : Addr}
    {size : Int} (runaway : io.tmpIoBuf.Runaway layout 8192 data (4 * lent) returned)
    (few : returned ≤ 4 * lent) (fits : 8192 + 4 * (lent + 1) < 2 ^ 32)
    (done : IoThread.onIoThreadRead layout IoThread.wantedIovcnt fuel sockobj size io =
      .ok thread) :
    ∃ later ≤ 4 * (lent + 1),
      thread.tmpIoBuf.Runaway layout 8192 data (4 * (lent + 1)) later := by
  obtain ⟨obtained, taken⟩ := obtained_eq runaway
  have length : (io.obtained layout IoThread.wantedIovcnt).length = 4 := by
    rw [obtained, turn, List.length_map, Residue.length_residues]
  have back {this : IoThread} {iovecs : List Iovec} (few : iovecs.length ≤ 4)
      (same : this.tmpIoBuf = (io.taken layout IoThread.wantedIovcnt).tmpIoBuf)
      (done : this.putBack iovecs = .ok thread) :
      ∃ later ≤ 4 * (lent + 1),
        thread.tmpIoBuf.Runaway layout 8192 data (4 * (lent + 1)) later := by
    rw [← same] at taken
    obtain ⟨buffer, put, kept⟩ := putBack_runaway taken few (by omega)
    cases done.symm.trans put
    exact ⟨_, by omega, kept⟩
  rcases Int.lt_or_le 0 size with came | nothing
  · rw [IoThread.onIoThreadRead_keeps (by omega) came] at done
    refine back ?_ rfl done
    rw [List.length_drop, length]
    exact Nat.sub_le _ _
  · rw [IoThread.onIoThreadRead_closes (by omega) nothing] at done
    obtain ⟨closed, closing, putting⟩ := IoThread.bind_ok done
    exact back (by omega) (IoThread.sockobjClose_tmpIoBuf closing) putting

theorem Valid.step (valid : Valid layout state) {label : Label}
    (taken : Step layout state label next) (fits : next.HeadFits layout) :
    Valid layout next := by
  obtain ⟨io, reads, returned, few, runaway⟩ := valid
  cases taken with
  | @other label after taken apart =>
      have same := tmpIoBuf_step taken apart
      refine ⟨io.step taken, ?_, returned, few, ?_⟩
      · rw [same]
        exact reads
      · rw [same]
        exact runaway
  | @event sockobj fuel revents size thread waiting watched done =>
      have step := io.step (.readwrite waiting watched done)
      cases read : revents.read with
      | false =>
          rw [IoThread.onIoThreadReadwrite, if_neg (by simp [read])] at done
          cases done
          exact ⟨step, reads, returned, few, runaway⟩
      | true =>
          rw [IoThread.onIoThreadReadwrite_eq_onIoThreadRead read] at done
          have length : (state.reads ++ [state.io.thread.obtained layout
              IoThread.wantedIovcnt]).length = state.reads.length + 1 := by simp
          rw [State.HeadFits] at fits
          simp only [read, if_true, length] at fits
          obtain ⟨later, fewer, after⟩ := read_runaway runaway few fits.1 done
          have data : thread.tmpIoBuf.data = state.io.thread.tmpIoBuf.data := after.data
          refine ⟨step, ?_, later, ?_, ?_⟩
          · simp only [if_true, length, data]
            rw [List.range_succ, List.map_append, ← reads, (obtained_eq runaway).1]
            rfl
          · simpa only [if_true, length] using fewer
          · simpa only [if_true, length, data] using after

theorem valid (reachable : (system layout).Reachable state) (fits : state.HeadFits layout) :
    Valid layout state := by
  refine reachable.invariant (fun state => state.HeadFits layout → Valid layout state) ?_ ?_ fits
  · intro state starts _
    obtain ⟨io, initial, rfl⟩ := starts
    obtain ⟨cells, block, memory, rfl⟩ := initial
    exact ⟨.start ⟨cells, block, memory, rfl⟩, rfl, 0, Nat.le_refl 0,
      IoBuffer.new_runaway block 8192 memory⟩
  · intro state label next before taken fits
    refine (before ?_).step taken fits
    have more : state.reads.length ≤ next.reads.length := by
      cases taken with
      | event =>
          dsimp only
          split
          · rw [List.length_append]
            omega
          · exact Nat.le_refl _
      | other => exact Nat.le_refl _
    exact fits.mono (by omega)

private theorem turn_add (data number : Nat) :
    turn layout data (number + 2048) = turn layout data number := by
  have same : Residue.residues 8192 (4 * (number + 2048)) 4 =
      Residue.residues 8192 (4 * number) 4 := by
    refine List.map_congr_left fun offset _ => ?_
    omega
  rw [turn, same, turn]

private theorem turn_disjoint {data earlier later : Nat} (before : earlier < later)
    (soon : later < earlier + 2048) :
    (turn layout data earlier).Disjoint (turn layout data later) := by
  intro iovec first second
  obtain ⟨left, leftMember, rfl⟩ := List.mem_map.mp first
  obtain ⟨right, rightMember, same⟩ := List.mem_map.mp second
  rw [Iovec.mk.injEq] at same
  obtain rfl := IoBuffer.slot_injective same.1
  obtain ⟨offset, inside, met⟩ := Residue.mem_residues.mp leftMember
  obtain ⟨other, otherInside, again⟩ := Residue.mem_residues.mp rightMember
  rw [← again, show 4 * later + other = 4 * earlier + (4 * (later - earlier) + other) by
    omega] at met
  have equal := Residue.offset_eq_of_mod_eq met (by omega) (by omega)
  omega

private theorem completes {io : IoThread} {data lent returned : Nat} {addrs : List Addr}
    {sockobj : Addr} (runaway : io.tmpIoBuf.Runaway layout 8192 data (4 * lent) returned)
    (few : returned ≤ 4 * lent) (fits : 8192 + 4 * (lent + 1) < 2 ^ 32)
    (chain : LinkedList.Chain io.links io.established addrs) (member : sockobj ∈ addrs)
    (revents : EvEvents) (size : Int) :
    ∃ after, io.onIoThreadReadwrite layout addrs.length sockobj revents size = .ok after := by
  cases read : revents.read with
  | false => exact ⟨io, by rw [IoThread.onIoThreadReadwrite, if_neg (by simp [read])]; rfl⟩
  | true =>
      rw [IoThread.onIoThreadReadwrite_eq_onIoThreadRead read]
      have length : (io.obtained layout IoThread.wantedIovcnt).length = 4 := by
        rw [(obtained_eq runaway).1, turn, List.length_map, Residue.length_residues]
      have inOrder : io.tmpIoBuf.InOrder (io.obtained layout IoThread.wantedIovcnt).length := by
        refine runaway.inOrder (by decide) ?_
        rw [length, show (8192 : UInt32).toNat = 8192 from rfl]
        omega
      rcases Int.lt_or_le 0 size with came | nothing
      · obtain ⟨buffer, done, _⟩ := @IoThread.onIoThreadRead_spares _ _ addrs.length sockobj _ _
          (by omega) came inOrder
        exact ⟨_, done⟩
      · obtain ⟨after, done, _⟩ := IoThread.onIoThreadRead_closedOne (by omega) nothing
          inOrder chain
          member (Nat.le_refl _)
        exact ⟨after, done⟩

/-- Every read event gets its four slots, so that none is left out for want of a
slot and the buffer's assert never fails; but nothing keeps a slot from being lent
again 2048 read events later, while what came in by then has not been given back. -/
structure LendsInTurn (layout : IoBufferLayout) (state : State) : Prop where
  inTurn : ∀ number slots, state.reads[number]? = some slots →
    slots = turn layout state.io.thread.tmpIoBuf.data number
  again : ∀ number first later, state.reads[number]? = some first →
    state.reads[number + 2048]? = some later → later = first
  apart : ∀ earlier later first second, state.reads[earlier]? = some first →
    state.reads[later]? = some second → earlier < later → later < earlier + 2048 →
    first.Disjoint second
  completes : ∀ sockobj, state.io.thread.Watched .onIoThreadReadwrite sockobj →
    ∀ revents size, ∃ fuel after,
      state.io.thread.onIoThreadReadwrite layout fuel sockobj revents size = .ok after

theorem lendsInTurn (layout : IoBufferLayout) (state : State)
    (reachable : (system layout).Reachable state)
    (fits : layout.Holds 8192 (8192 + 4 * (state.reads.length + 1))) :
    LendsInTurn layout state := by
  have headFits : state.HeadFits layout := fits.mono (by omega)
  obtain ⟨io, reads, returned, few, runaway⟩ := valid reachable headFits
  have inTurn : ∀ number slots, state.reads[number]? = some slots →
      slots = turn layout state.io.thread.tmpIoBuf.data number := by
    intro number slots found
    rw [reads, List.getElem?_map, Option.map_eq_some_iff] at found
    obtain ⟨other, inside, rfl⟩ := found
    obtain ⟨_, rfl⟩ := List.getElem?_eq_some_iff.mp inside
    rw [List.getElem_range]
  refine ⟨inTurn, ?_, ?_, ?_⟩
  · intro number first later found again
    rw [inTurn _ _ found, inTurn _ _ again, turn_add]
  · intro earlier later first second found again before soon
    rw [inTurn _ _ found, inTurn _ _ again]
    exact turn_disjoint before soon
  · intro sockobj watched revents size
    obtain ⟨lists, inner⟩ := IoThreadTraffic.valid io
    have member := (inner.sockets.watched _ _).mp watched
    exact ⟨_, completes runaway few fits.1 (inner.sockets.chain .onIoThreadReadwrite) member revents
      size⟩

/-- A connection has been read from twice, four slots each time. -/
theorem lendsInTurn_two_reads :
    ∃ state, state.reads.length = 2 ∧ LendsInTurn .lp64 state := by
  have fresh : (system .lp64).Reachable ⟨.fresh .lp64 (fun _ => ⟨0, none⟩) 0 fun _ => 0, []⟩ :=
    .start ⟨_, ⟨_, _, _, rfl⟩, rfl⟩
  have started := fresh.step (.other (.start rfl) (by simp))
  have connect := started.step
    (.other (@IoThreadTraffic.Step.connect _ _ 0 4 2 1 6 [] rfl) (by simp))
  have sent := connect.step (.other (.send (by decide)) (by simp))
  have woken := sent.step (.other (.wake rfl (by decide) rfl rfl) (by simp))
  have taken := woken.step (.other (.iterate rfl) (by simp))
  have established := taken.step
    (.other (@IoThreadTraffic.Step.command _ _ _ (fun _ => .kept) 0 _ rfl rfl) (by simp))
  have waiting := established.step (.other (.iterate rfl) (by simp))
  have first := waiting.step
    (@Step.event _ _ 0 0 ⟨true, false, false⟩ 8192 _ rfl ⟨_, rfl, rfl, rfl⟩ rfl)
  have second := first.step
    (@Step.event _ _ 0 0 ⟨true, false, false⟩ 8192 _ rfl ⟨_, rfl, rfl, rfl⟩ rfl)
  exact ⟨_, rfl, lendsInTurn .lp64 _ second (by decide)⟩

end IoThreadReading

end Striga.Greenev
