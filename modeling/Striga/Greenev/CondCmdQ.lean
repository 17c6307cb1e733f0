import Striga.Greenev.CmdQueue

/-! `cond_cmd_q` of `greenev/cmdq_cv.c`: a bounded command queue on a mutex and
two condition variables. -/

set_option autoImplicit false

namespace Striga.Greenev

open Lib

/-- `struct cond_cmd_q`; its mutex and condition variables are in the steps of
the calls that use them. -/
structure CondCmdQ (Arg : Type) where
  qSize : UInt32
  qHead : UInt32
  qTail : UInt32
  q : Nat → Cmd Arg

namespace CondCmdQ

variable {Arg : Type}

def new (size : UInt32) (block : Nat → Cmd Arg) : CondCmdQ Arg where
  qSize := size
  qHead := 0
  qTail := 0
  q := block

def full (this : CondCmdQ Arg) : Bool :=
  if this.qTail > 0 then
    this.qTail == this.qHead + 1
  else
    this.qHead == this.qSize - 1

def empty (this : CondCmdQ Arg) : Bool :=
  this.qTail == this.qHead

def size (this : CondCmdQ Arg) : UInt32 :=
  if this.qTail > this.qHead then
    if this.qTail == this.qHead + 1 then 1 else 0
  else
    this.qHead - this.qTail

/-- `_cond_cmd_q_put_internal` up to its signal. -/
def putInternal (this : CondCmdQ Arg) (newCmd : Cmd Arg) : CondCmdQ Arg :=
  { this with
    q := Function.update this.q this.qHead.toNat newCmd
    qHead := if this.qHead + 1 = this.qSize then 0 else this.qHead + 1 }

/-- `_cond_cmd_q_get_internal` up to its signal. -/
def getInternal (this : CondCmdQ Arg) : Cmd Arg × CondCmdQ Arg :=
  (this.q this.qTail.toNat,
    { this with
      qTail := if this.qTail + 1 = this.qSize then 0 else this.qTail + 1 })

def asserts (this : CondCmdQ Arg) : Bool :=
  this.qHead < this.qSize && this.qTail < this.qSize

def WellFormed (this : CondCmdQ Arg) : Prop :=
  Ring.Machine.Bounded this.qSize this.qHead this.qTail

def pending (this : CondCmdQ Arg) : List (Cmd Arg) :=
  Ring.Machine.contents this.qSize this.qHead this.qTail this.q

/-- The queue stands for an abstract one of one command less than its size. -/
def Represents (this : CondCmdQ Arg) (fifo : BoundedFifo (Cmd Arg)) : Prop :=
  Ring.Machine.Represents this.qSize this.qHead this.qTail this.q fifo

theorem Represents.items_eq {this : CondCmdQ Arg} {fifo : BoundedFifo (Cmd Arg)}
    (stands : this.Represents fifo) : fifo.items = this.pending := stands.items

theorem WellFormed.asserts_eq {this : CondCmdQ Arg} (valid : this.WellFormed) :
    this.asserts = true := by
  simp [asserts, valid.head_lt, valid.tail_lt]

/-- The test split on whether the tail is zero is the usual one: advancing the
head would meet the tail. -/
theorem WellFormed.full_iff_next {this : CondCmdQ Arg} (valid : this.WellFormed) :
    this.full = true ↔ Ring.Machine.next this.qSize this.qHead = this.qTail := by
  obtain ⟨headInside, tailInside⟩ := valid.toNat
  have sum := Ring.Machine.toNat_add_one valid.head_lt
  have least : (this.qSize - 1).toNat = this.qSize.toNat - 1 := by
    have positive : (1 : UInt32) ≤ this.qSize := by
      rw [UInt32.le_iff_toNat_le, UInt32.toNat_one]
      omega
    rw [UInt32.toNat_sub_of_le _ _ positive, UInt32.toNat_one]
  have advanced := Ring.Machine.toNat_next valid.head_lt
  rw [← UInt32.toNat_inj, advanced]
  unfold full Ring.next
  split
  · rename_i positive
    have order := UInt32.lt_iff_toNat_lt.mp positive
    rw [UInt32.toNat_zero] at order
    rw [beq_iff_eq, ← UInt32.toNat_inj, sum]
    split <;> omega
  · rename_i zero
    have order := UInt32.le_iff_toNat_le.mp (UInt32.not_lt.mp zero)
    rw [UInt32.toNat_zero] at order
    rw [beq_iff_eq, ← UInt32.toNat_inj, least]
    split <;> omega

theorem Represents.putInternal {this : CondCmdQ Arg} {fifo : BoundedFifo (Cmd Arg)}
    (stands : this.Represents fifo) (room : this.full = false) (newCmd : Cmd Arg) :
    (fifo.offer newCmd).1 = true ∧
      (this.putInternal newCmd).Represents (fifo.offer newCmd).2 := by
  have valid : this.WellFormed := stands.bounded
  have differs : Ring.Machine.next this.qSize this.qHead ≠ this.qTail := by
    intro same
    rw [valid.full_iff_next.mpr same] at room
    cases room
  exact Ring.Machine.Represents.offer stands newCmd differs

theorem Represents.getInternal {this : CondCmdQ Arg} {fifo : BoundedFifo (Cmd Arg)}
    (stands : this.Represents fifo) (filled : this.empty = false) :
    fifo.poll.1 = some this.getInternal.1 ∧ this.getInternal.2.Represents fifo.poll.2 := by
  have differs : this.qHead ≠ this.qTail := by
    intro same
    simp [empty, same] at filled
  exact Ring.Machine.Represents.poll stands differs

namespace WellFormed

variable {this : CondCmdQ Arg} (valid : this.WellFormed)
include valid

theorem length_lt : this.pending.length < this.qSize.toNat :=
  Ring.Machine.Bounded.length_lt valid

theorem full_iff : this.full = true ↔ this.pending.length = this.qSize.toNat - 1 :=
  valid.full_iff_next.trans (Ring.Machine.Bounded.full_iff valid)

theorem empty_iff : this.empty = true ↔ this.pending = [] := by
  rw [empty, beq_iff_eq, eq_comm]
  exact Ring.Machine.Bounded.empty_iff valid

theorem pending_putInternal (room : this.full = false) (newCmd : Cmd Arg) :
    (this.putInternal newCmd).pending = this.pending ++ [newCmd] := by
  have differs : Ring.Machine.next this.qSize this.qHead ≠ this.qTail := by
    rw [Ne, ← valid.full_iff_next, room]
    exact Bool.false_ne_true
  exact (Ring.Machine.Bounded.push valid differs newCmd).2

theorem pending_getInternal (filled : this.empty = false) :
    this.pending = this.getInternal.1 :: this.getInternal.2.pending := by
  have differs : this.qHead ≠ this.qTail := by
    intro same
    simp [empty, same] at filled
  exact (Ring.Machine.Bounded.pop valid differs).2

theorem size_unwrapped (unwrapped : this.qTail ≤ this.qHead) :
    this.size.toNat = this.pending.length := by
  have behind : ¬ this.qTail > this.qHead := UInt32.not_lt.mpr unwrapped
  have counted := @Ring.Machine.Bounded.toNat_count _ this.qSize this.qHead this.qTail this.q valid
  rw [Ring.Machine.count, if_neg behind] at counted
  rw [size, if_neg behind]
  exact counted

/-- Once the head has wrapped, the length comes out as one or zero. -/
theorem size_wrapped (wrapped : this.qHead < this.qTail) :
    this.size.toNat = this.pending.length ↔ this.qSize = 2 := by
  obtain ⟨headInside, tailInside⟩ := valid.toNat
  have order := UInt32.lt_iff_toNat_lt.mp wrapped
  have length : this.pending.length =
      this.qHead.toNat + (this.qSize.toNat - this.qTail.toNat) := by
    rw [pending, Ring.Machine.contents, Ring.contents_length, Ring.count, if_neg (by omega)]
  have sum := Ring.Machine.toNat_add_one valid.head_lt
  have two : (2 : UInt32).toNat = 2 := rfl
  rw [size, if_pos wrapped, length, ← UInt32.toNat_inj, two]
  by_cases adjacent : this.qTail = this.qHead + 1
  · have next : this.qTail.toNat = this.qHead.toNat + 1 := by rw [adjacent, sum]
    rw [if_pos (beq_iff_eq.mpr adjacent), UInt32.toNat_one]
    omega
  · have apart : this.qTail.toNat ≠ this.qHead.toNat + 1 := by
      rw [← sum, UInt32.toNat_inj.ne]
      exact adjacent
    rw [if_neg (by simpa using adjacent), UInt32.toNat_zero]
    omega

end WellFormed

end CondCmdQ

end Striga.Greenev
