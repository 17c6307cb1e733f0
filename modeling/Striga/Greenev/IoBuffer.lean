import Striga.Lib.Residue
import Striga.Lib.Ring
import Mathlib.Algebra.Group.Nat.Defs

/-! `io_buffer` of `greenev/iobuffer.c`: equally large slots carved out of one
block, and the table of the slots that are free. -/

set_option autoImplicit false

namespace Striga.Greenev

/-- What the layout of the block depends on: the offset of `free_slots` in the
struct, the size of a pointer, and `io_buffer_slot_size`. -/
structure IoBufferLayout where
  header : Nat
  pointer : Nat
  slotSize : Nat
  positive : 0 < slotSize

def IoBufferLayout.lp64 : IoBufferLayout := ⟨64, 8, 1024 * 16, by decide⟩

/-- An index of `free_slots` that an `unsigned int` holds, and whose entry is in
the block that `io_buffer_new` allocates for so many slots. -/
def IoBufferLayout.Holds (layout : IoBufferLayout) (slotCount : UInt32) (index : Nat) : Prop :=
  index < 2 ^ 32 ∧ layout.pointer * (index + 1) ≤ layout.slotSize * slotCount.toNat

instance (layout : IoBufferLayout) (slotCount : UInt32) (index : Nat) :
    Decidable (layout.Holds slotCount index) :=
  inferInstanceAs (Decidable (_ ∧ _))

theorem IoBufferLayout.Holds.mono {layout : IoBufferLayout} {slotCount : UInt32}
    {less more : Nat} (holds : layout.Holds slotCount more) (below : less ≤ more) :
    layout.Holds slotCount less :=
  ⟨Nat.lt_of_le_of_lt below holds.1,
    Nat.le_trans (Nat.mul_le_mul_left _ (Nat.succ_le_succ below)) holds.2⟩

/-- Behind the table of the program's buffer there is room for so many entries. -/
example : IoBufferLayout.lp64.Holds 8192 (8192 + 16769023) ∧
    ¬IoBufferLayout.lp64.Holds 8192 (8192 + 16769024) := by decide

structure Iovec where
  iovBase : Nat
  iovLen : Nat
  deriving DecidableEq, Repr

/-- `struct io_buffer`; `freeSlots` is the flexible array together with the
memory behind it. -/
structure IoBuffer where
  data : Nat
  slotCount : UInt32
  freeSlotsHead : UInt32
  freeSlotsTail : UInt32
  freeSlots : Nat → Nat

namespace IoBuffer

variable (layout : IoBufferLayout)

/-- The address of a slot of a buffer whose data start at the given address. -/
def slot (data index : Nat) : Nat := data + layout.slotSize * index

def fill (data : Nat) (memory : Nat → Nat) : Nat → Nat → Nat
  | 0 => memory
  | count + 1 => Function.update (fill data memory count) count (slot layout data count)

/-- `io_buffer_new`, in a block of uninitialised memory at the given address. -/
def new (block : Nat) (slotCount : UInt32) (memory : Nat → Nat) : IoBuffer :=
  let data := block + layout.header + layout.pointer * slotCount.toNat
  { data := data
    slotCount := slotCount
    freeSlotsHead := slotCount
    freeSlotsTail := 0
    freeSlots := fill layout data memory slotCount.toNat }

def empty (this : IoBuffer) : Bool :=
  this.freeSlotsTail == this.freeSlotsHead

/-- The loop of `io_buffer_get`; it returns the number of entries filled. -/
def get : Nat → IoBuffer → List Iovec × IoBuffer
  | 0, this => ([], this)
  | count + 1, this =>
      if this.empty then
        ([], this)
      else
        let iovec : Iovec := ⟨this.freeSlots this.freeSlotsTail.toNat, layout.slotSize⟩
        let tail := this.freeSlotsTail + 1
        let tail := if tail = this.slotCount then 0 else tail
        let (iovecs, this) := get count { this with freeSlotsTail := tail }
        (iovec :: iovecs, this)

/-- The loop of `io_buffer_put`; without a result its assert has failed. -/
def put : List Iovec → IoBuffer → Option IoBuffer
  | [], this => some this
  | iovec :: iovecs, this =>
      let head := this.freeSlotsHead + 1
      let head := if head = this.slotCount then 0 else head
      if head = this.freeSlotsTail then
        none
      else
        put iovecs { this with
          freeSlotsHead := head
          freeSlots := Function.update this.freeSlots head.toNat iovec.iovBase }

variable {layout}

theorem slot_injective {data : Nat} : Function.Injective (slot layout data) := by
  intro left right same
  have product : layout.slotSize * left = layout.slotSize * right := Nat.add_left_cancel same
  exact Nat.eq_of_mul_eq_mul_left layout.positive product

private theorem fill_below {data : Nat} {memory : Nat → Nat} {count index : Nat}
    (inside : index < count) :
    fill layout data memory count index = slot layout data index := by
  induction count with
  | zero => omega
  | succ count ih =>
      unfold fill
      by_cases last : index = count
      · rw [last, Function.update_self]
      · rw [Function.update_of_ne last, ih (by omega)]

/-- The state that the two index updates really lead to: the head has left the
table and has passed `returned` slots behind its end, the tail is where `lent`
slots taken in order leave it, and the table is as it was filled. -/
structure Runaway (layout : IoBufferLayout) (size : UInt32) (base lent returned : Nat)
    (this : IoBuffer) : Prop where
  data : this.data = base
  slotCount : this.slotCount = size
  head : this.freeSlotsHead.toNat = size.toNat + returned
  tail : this.freeSlotsTail.toNat = lent % size.toNat
  table : ∀ index < size.toNat, this.freeSlots index = slot layout base index

theorem new_runaway (block : Nat) (size : UInt32) (memory : Nat → Nat) :
    (new layout block size memory).Runaway layout size (new layout block size memory).data 0 0 where
  data := rfl
  slotCount := rfl
  head := rfl
  tail := (Nat.zero_mod _).symm
  table _ inside := fill_below inside

variable {size : UInt32} {data lent returned : Nat} {this : IoBuffer}

theorem Runaway.not_empty (runaway : this.Runaway layout size data lent returned)
    (positive : 0 < size.toNat) : this.empty = false := by
  have inside := Nat.mod_lt lent positive
  simp only [empty, beq_eq_false_iff_ne, ne_eq, ← UInt32.toNat_inj, runaway.head, runaway.tail]
  omega

/-- A get never finds the buffer empty: it hands out as many slots as it is
asked for, in the order of the table and round again. -/
theorem Runaway.get (positive : 0 < size.toNat) (count : Nat) :
    ∀ {this : IoBuffer} {lent : Nat}, this.Runaway layout size data lent returned →
      (get layout count this).1 =
        (Lib.Residue.residues size.toNat lent count).map
          (fun index => ⟨slot layout data index, layout.slotSize⟩) ∧
      (get layout count this).2.Runaway layout size data (lent + count) returned := by
  induction count with
  | zero =>
      intro this lent runaway
      exact ⟨rfl, runaway⟩
  | succ count ih =>
      intro this lent runaway
      have inside : lent % size.toNat < size.toNat := Nat.mod_lt lent positive
      have tailInside : this.freeSlotsTail < this.slotCount := by
        rw [UInt32.lt_iff_toNat_lt, runaway.tail, runaway.slotCount]
        exact inside
      have advanced : ({ this with
          freeSlotsTail := Lib.Ring.Machine.next this.slotCount this.freeSlotsTail } :
            IoBuffer).Runaway layout size data (lent + 1) returned := by
        refine ⟨runaway.data, runaway.slotCount, runaway.head, ?_, runaway.table⟩
        rw [Lib.Ring.Machine.toNat_next tailInside, runaway.tail, runaway.slotCount,
          Lib.Ring.next_eq_mod inside, Nat.mod_add_mod]
      obtain ⟨later, after⟩ := ih advanced
      have filled := runaway.not_empty positive
      have first := runaway.table _ inside
      rw [← runaway.tail] at first
      rw [IoBuffer.get, if_neg (by simp [filled])]
      constructor
      · rw [Lib.Residue.residues_succ, List.map_cons, ← runaway.tail, ← first]
        exact congrArg _ later
      · rw [show lent + (count + 1) = lent + 1 + count by omega]
        exact after

/-- A put never fails, and writes behind the table. -/
theorem Runaway.put (iovecs : List Iovec) (positive : 0 < size.toNat) :
    ∀ {this : IoBuffer} {returned : Nat}, this.Runaway layout size data lent returned →
      size.toNat + returned + iovecs.length < 2 ^ 32 →
      ∃ after, put iovecs this = some after ∧
        after.Runaway layout size data lent (returned + iovecs.length) := by
  induction iovecs with
  | nil =>
      intro this returned runaway _
      exact ⟨this, rfl, runaway⟩
  | cons iovec iovecs ih =>
      intro this returned runaway fits
      rw [List.length_cons] at fits
      have inside : lent % size.toNat < size.toNat := Nat.mod_lt lent positive
      have sum : (this.freeSlotsHead + 1).toNat = size.toNat + returned + 1 := by
        rw [UInt32.toNat_add, UInt32.toNat_one, runaway.head]
        omega
      have beyond : this.freeSlotsHead + 1 ≠ this.slotCount := by
        rw [runaway.slotCount, ← UInt32.toNat_inj.ne, sum]
        omega
      have apart : this.freeSlotsHead + 1 ≠ this.freeSlotsTail := by
        rw [← UInt32.toNat_inj.ne, sum, runaway.tail]
        omega
      have advanced : ({ this with
          freeSlotsHead := this.freeSlotsHead + 1
          freeSlots := Function.update this.freeSlots (this.freeSlotsHead + 1).toNat
            iovec.iovBase } : IoBuffer).Runaway layout size data lent (returned + 1) := by
        refine ⟨runaway.data, runaway.slotCount, sum, runaway.tail, ?_⟩
        intro index less
        have differs : index ≠ (this.freeSlotsHead + 1).toNat := by
          rw [sum]
          omega
        rw [← runaway.table index less]
        exact Function.update_of_ne differs _ _
      obtain ⟨after, done, kept⟩ := ih advanced (by omega)
      refine ⟨after, ?_, ?_⟩
      · simpa only [IoBuffer.put, if_neg beyond, if_neg apart] using done
      · rw [List.length_cons, show returned + (iovecs.length + 1) = returned + 1 + iovecs.length by
          omega]
        exact kept

end IoBuffer

end Striga.Greenev
