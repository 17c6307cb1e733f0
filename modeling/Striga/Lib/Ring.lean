import Striga.Lib.BoundedFifo
import Mathlib.Logic.Function.Basic

/-! Circular buffers with a read position, a write position and one cell that
is always left free, and the bounded first-in-first-out queue they represent. -/

set_option autoImplicit false

namespace Striga.Lib

namespace Ring

variable {α : Type}

def next (size position : Nat) : Nat :=
  if position + 1 = size then 0 else position + 1

/-- The number of cells from the read position up to the write position. -/
def count (size head tail : Nat) : Nat :=
  if tail ≤ head then head - tail else head + (size - tail)

def contents (size head tail : Nat) (cells : Nat → α) : List α :=
  (List.range (count size head tail)).map fun offset => cells ((tail + offset) % size)

structure Bounded (size head tail : Nat) : Prop where
  head_lt : head < size
  tail_lt : tail < size

variable {size head tail : Nat} {cells : Nat → α}

theorem next_lt {position : Nat} (inside : position < size) :
    next size position < size := by
  unfold next
  split <;> omega

theorem next_eq_mod {position : Nat} (inside : position < size) :
    next size position = (position + 1) % size := by
  unfold next
  split
  · rename_i last
    rw [last, Nat.mod_self]
  · rw [Nat.mod_eq_of_lt (by omega)]

theorem Bounded.count_lt (bounded : Bounded size head tail) :
    count size head tail < size := by
  obtain ⟨_, _⟩ := bounded
  unfold count
  split <;> omega

theorem Bounded.head_eq (bounded : Bounded size head tail) :
    head = (tail + count size head tail) % size := by
  obtain ⟨headInside, tailInside⟩ := bounded
  unfold count
  split
  · rw [show tail + (head - tail) = head by omega, Nat.mod_eq_of_lt headInside]
  · rw [show tail + (head + (size - tail)) = head + size by omega,
      Nat.add_mod_right, Nat.mod_eq_of_lt headInside]

theorem Bounded.count_eq_zero_iff (bounded : Bounded size head tail) :
    count size head tail = 0 ↔ head = tail := by
  obtain ⟨_, _⟩ := bounded
  unfold count
  split <;> omega

/-- The buffer is full when advancing the write position would meet the read
position; then all cells but one are in use. -/
theorem Bounded.next_head_eq_tail_iff (bounded : Bounded size head tail) :
    next size head = tail ↔ count size head tail = size - 1 := by
  obtain ⟨_, _⟩ := bounded
  unfold next count
  split <;> split <;> omega

theorem Bounded.count_advance_head (bounded : Bounded size head tail)
    (room : next size head ≠ tail) :
    count size (next size head) tail = count size head tail + 1 := by
  obtain ⟨_, _⟩ := bounded
  unfold next at room ⊢
  unfold count
  split at room <;> split <;> split <;> (try split) <;> omega

theorem Bounded.count_advance_tail (bounded : Bounded size head tail)
    (some : head ≠ tail) :
    count size head tail = count size head (next size tail) + 1 := by
  obtain ⟨_, _⟩ := bounded
  unfold next count
  split <;> split <;> (try split) <;> omega

@[simp] theorem contents_length :
    (contents size head tail cells).length = count size head tail := by
  simp [contents]

theorem Bounded.contents_eq_nil_iff (bounded : Bounded size head tail) :
    contents size head tail cells = [] ↔ head = tail := by
  rw [← List.length_eq_zero_iff, contents_length, bounded.count_eq_zero_iff]

private theorem mod_ne_of_lt {offset width : Nat} (less : offset < width)
    (fits : width < size) : (tail + offset) % size ≠ (tail + width) % size := by
  intro same
  have divides : size ∣ (tail + width) - (tail + offset) :=
    Nat.dvd_of_mod_eq_zero (Nat.sub_mod_eq_zero_of_mod_eq same.symm)
  have := Nat.le_of_dvd (by omega) divides
  omega

/-- Writing the cell under the write position and advancing it appends. -/
theorem Bounded.contents_push (bounded : Bounded size head tail)
    (room : next size head ≠ tail) (item : α) :
    contents size (next size head) tail (Function.update cells head item) =
      contents size head tail cells ++ [item] := by
  have used := bounded.count_lt
  have place := bounded.head_eq
  simp only [contents, bounded.count_advance_head room, List.range_succ,
    List.map_append, List.map_cons, List.map_nil]
  congr 1
  · apply List.map_congr_left
    intro offset member
    have less := List.mem_range.mp member
    have different : (tail + offset) % size ≠ head := by
      rw [place]
      exact mod_ne_of_lt less used
    rw [Function.update_of_ne different]
  · rw [← place, Function.update_self]

/-- Reading the cell under the read position and advancing it removes the
oldest item. -/
theorem Bounded.contents_pop (bounded : Bounded size head tail)
    (pending : head ≠ tail) :
    contents size head tail cells =
      cells tail :: contents size head (next size tail) cells := by
  have first : (tail + 0) % size = tail := Nat.mod_eq_of_lt bounded.tail_lt
  simp only [contents, bounded.count_advance_tail pending,
    List.range_succ_eq_map, List.map_cons, List.map_map, first]
  congr 1
  apply List.map_congr_left
  intro offset _
  simp only [Function.comp_apply, next_eq_mod bounded.tail_lt, Nat.mod_add_mod]
  congr 2
  omega

/-! The same on 32-bit unsigned positions, as the programs compute them. -/

namespace Machine

def next (size position : UInt32) : UInt32 :=
  if position + 1 = size then 0 else position + 1

def contents (size head tail : UInt32) (cells : Nat → α) : List α :=
  Ring.contents size.toNat head.toNat tail.toNat cells

structure Bounded (size head tail : UInt32) : Prop where
  head_lt : head < size
  tail_lt : tail < size

variable {size head tail : UInt32} {cells : Nat → α}

theorem toNat_add_one {position : UInt32} (inside : position < size) :
    (position + 1).toNat = position.toNat + 1 := by
  have less := UInt32.lt_iff_toNat_lt.mp inside
  have wide := size.toNat_lt
  rw [UInt32.toNat_add, UInt32.toNat_one]
  omega

theorem toNat_next {position : UInt32} (inside : position < size) :
    (next size position).toNat = Ring.next size.toNat position.toNat := by
  have sum := toNat_add_one inside
  unfold next Ring.next
  rw [← sum]
  by_cases last : position + 1 = size
  · simp [last]
  · have differs : (position + 1).toNat ≠ size.toNat :=
      fun same => last (UInt32.toNat_inj.mp same)
    rw [if_neg last, if_neg differs]

theorem next_lt {position : UInt32} (inside : position < size) :
    next size position < size := by
  apply UInt32.lt_iff_toNat_lt.mpr
  rw [toNat_next inside]
  exact Ring.next_lt (UInt32.lt_iff_toNat_lt.mp inside)

theorem Bounded.toNat (bounded : Bounded size head tail) :
    Ring.Bounded size.toNat head.toNat tail.toNat :=
  ⟨UInt32.lt_iff_toNat_lt.mp bounded.head_lt, UInt32.lt_iff_toNat_lt.mp bounded.tail_lt⟩

theorem Bounded.length_lt (bounded : Bounded size head tail) :
    (contents size head tail cells).length < size.toNat := by
  rw [contents, Ring.contents_length]
  exact bounded.toNat.count_lt

theorem Bounded.full_iff (bounded : Bounded size head tail) :
    next size head = tail ↔ (contents size head tail cells).length = size.toNat - 1 := by
  rw [← UInt32.toNat_inj, toNat_next bounded.head_lt, contents, Ring.contents_length,
    bounded.toNat.next_head_eq_tail_iff]

theorem Bounded.empty_iff (bounded : Bounded size head tail) :
    head = tail ↔ contents size head tail cells = [] := by
  rw [contents, bounded.toNat.contents_eq_nil_iff, UInt32.toNat_inj]

theorem Bounded.push (bounded : Bounded size head tail) (room : next size head ≠ tail)
    (item : α) :
    Bounded size (next size head) tail ∧
      contents size (next size head) tail (Function.update cells head.toNat item) =
        contents size head tail cells ++ [item] := by
  refine ⟨⟨next_lt bounded.head_lt, bounded.tail_lt⟩, ?_⟩
  have differs : Ring.next size.toNat head.toNat ≠ tail.toNat := by
    rw [← toNat_next bounded.head_lt]
    exact fun same => room (UInt32.toNat_inj.mp same)
  simp only [contents, toNat_next bounded.head_lt]
  exact bounded.toNat.contents_push differs item

theorem Bounded.pop (bounded : Bounded size head tail) (pending : head ≠ tail) :
    Bounded size head (next size tail) ∧
      contents size head tail cells =
        cells tail.toNat :: contents size head (next size tail) cells := by
  refine ⟨⟨bounded.head_lt, next_lt bounded.tail_lt⟩, ?_⟩
  have differs : head.toNat ≠ tail.toNat :=
    fun same => pending (UInt32.toNat_inj.mp same)
  simp only [contents, toNat_next bounded.tail_lt]
  exact bounded.toNat.contents_pop differs

/-- The number of items computed with wrapping 32-bit arithmetic. -/
def count (size head tail : UInt32) : UInt32 :=
  if tail > head then head + (size - tail) else head - tail

theorem Bounded.toNat_count (bounded : Bounded size head tail) :
    (count size head tail).toNat = (contents size head tail cells).length := by
  obtain ⟨headInside, tailInside⟩ := bounded.toNat
  have wide := size.toNat_lt
  simp only [contents, Ring.contents_length, count, Ring.count]
  by_cases wrapped : tail > head
  · have order := UInt32.lt_iff_toNat_lt.mp wrapped
    have rest : (size - tail).toNat = size.toNat - tail.toNat :=
      UInt32.toNat_sub_of_le _ _ (UInt32.le_iff_toNat_le.mpr (by omega))
    rw [if_pos wrapped, if_neg (by omega), UInt32.toNat_add, rest, Nat.mod_eq_of_lt (by omega)]
  · have order : tail ≤ head := UInt32.not_lt.mp wrapped
    rw [if_neg wrapped, if_pos (UInt32.le_iff_toNat_le.mp order),
      UInt32.toNat_sub_of_le _ _ order]

/-- The positions and cells stand for an abstract queue of one item less than
the size. -/
structure Represents (size head tail : UInt32) (cells : Nat → α)
    (fifo : BoundedFifo α) : Prop where
  bounded : Bounded size head tail
  items : fifo.items = contents size head tail cells
  capacity : fifo.capacity = size.toNat - 1

variable {fifo : BoundedFifo α}

theorem Represents.empty (positive : 0 < size) :
    Represents size 0 0 cells (BoundedFifo.empty (size.toNat - 1)) :=
  ⟨⟨positive, positive⟩, rfl, rfl⟩

theorem Represents.offer_full (stands : Represents size head tail cells fifo) (item : α)
    (full : next size head = tail) :
    (fifo.offer item).1 = false ∧ (fifo.offer item).2 = fifo := by
  have refused : (fifo.offer item).1 = false := by
    rw [BoundedFifo.offer_refused_iff, stands.items, stands.capacity]
    exact stands.bounded.full_iff.mp full
  exact ⟨refused, BoundedFifo.offer_refused refused⟩

theorem Represents.offer (stands : Represents size head tail cells fifo) (item : α)
    (room : next size head ≠ tail) :
    (fifo.offer item).1 = true ∧
      Represents size (next size head) tail (Function.update cells head.toNat item)
        (fifo.offer item).2 := by
  have used : (contents size head tail cells).length < size.toNat := stands.bounded.length_lt
  have differs : (contents size head tail cells).length ≠ size.toNat - 1 :=
    (not_congr stands.bounded.full_iff).mp room
  have accepted : (fifo.offer item).1 = true := by
    rw [BoundedFifo.offer_accepted_iff, stands.items, stands.capacity]
    omega
  obtain ⟨kept, appended⟩ := stands.bounded.push room item
  refine ⟨accepted, kept, ?_, ?_⟩
  · rw [BoundedFifo.offer_items, accepted, stands.items, appended]
    rfl
  · rw [BoundedFifo.offer_capacity, stands.capacity]

theorem Represents.poll_empty (stands : Represents size head tail cells fifo)
    (idle : head = tail) : fifo.poll = (none, fifo) := by
  have empty : fifo.items = [] := stands.items.trans (stands.bounded.empty_iff.mp idle)
  exact BoundedFifo.poll_empty empty

theorem Represents.poll (stands : Represents size head tail cells fifo)
    (pending : head ≠ tail) :
    fifo.poll.1 = some (cells tail.toNat) ∧
      Represents size head (next size tail) cells fifo.poll.2 := by
  obtain ⟨kept, shape⟩ := stands.bounded.pop pending
  obtain ⟨first, rest⟩ := BoundedFifo.poll_cons (stands.items.trans shape)
  exact ⟨first, kept, rest, by rw [BoundedFifo.poll_capacity, stands.capacity]⟩

theorem Represents.size_eq {original : UInt32} (positive : 0 < original)
    (stands : Represents size head tail cells fifo)
    (capacity : fifo.capacity = original.toNat - 1) : size = original := by
  have inside := stands.bounded.toNat.head_lt
  have least := UInt32.lt_iff_toNat_lt.mp positive
  have same := capacity.symm.trans stands.capacity
  rw [UInt32.toNat_zero] at least
  exact UInt32.toNat_inj.mp (by omega)

end Machine

end Ring

end Striga.Lib
