import Mathlib.Data.List.Basic
import Mathlib.Data.List.TakeWhile

/-! Memory of bytes, what a program stores in it, and the string at its start:
the bytes before the first that is zero. -/

set_option autoImplicit false

namespace Striga.Lib

/-- The memory from some address on, and the offsets of all stores, those behind
its end among them. -/
structure Bytes where
  cells : List UInt8
  stores : List Nat
  deriving DecidableEq, Repr

namespace Bytes

def store (index : Nat) (byte : UInt8) (memory : Bytes) : Bytes :=
  ⟨memory.cells.set index byte, memory.stores ++ [index]⟩

def copy (index : Nat) : List UInt8 → Bytes → Bytes
  | [], memory => memory
  | byte :: bytes, memory => copy (index + 1) bytes (memory.store index byte)

def string (memory : Bytes) : List UInt8 := memory.cells.takeWhile (· ≠ 0)

/-- `strcat`: the text and a zero, from where the first zero is. -/
def append (text : List UInt8) (memory : Bytes) : Bytes :=
  memory.copy memory.string.length (text ++ [0])

def Within (size : Nat) (memory : Bytes) : Prop := ∀ index ∈ memory.stores, index < size

variable {memory : Bytes} {index size : Nat} {before after bytes text : List UInt8}

@[simp] theorem length_copy :
    (memory.copy index bytes).cells.length = memory.cells.length := by
  induction bytes generalizing index memory with
  | nil => rfl
  | cons byte bytes ih => rw [copy, ih, store, List.length_set]

theorem stores_copy :
    (memory.copy index bytes).stores = memory.stores ++ List.range' index bytes.length := by
  induction bytes generalizing index memory with
  | nil => simp [copy]
  | cons byte bytes ih => simp [copy, ih, store, List.range'_succ]

theorem within_copy : (memory.copy index bytes).Within size ↔
    memory.Within size ∧ ∀ offset < bytes.length, index + offset < size := by
  simp only [Within, stores_copy, List.mem_append, List.mem_range'_1]
  constructor
  · intro within
    refine ⟨fun place member => within place (.inl member), fun offset inside => ?_⟩
    exact within (index + offset) (.inr (by omega))
  · intro within place member
    rcases member with old | new
    · exact within.1 place old
    · have bound := within.2 (place - index) (by omega)
      omega

theorem within_copy_of_le (within : memory.Within size) (fits : index + bytes.length ≤ size) :
    (memory.copy index bytes).Within size :=
  within_copy.mpr ⟨within, fun offset inside => by omega⟩

theorem cells_copy (cells : memory.cells = before ++ after) (start : before.length = index)
    (room : bytes.length ≤ after.length) :
    (memory.copy index bytes).cells = before ++ bytes ++ after.drop bytes.length := by
  induction bytes generalizing index memory before after with
  | nil => simp [copy, cells]
  | cons byte bytes ih =>
    cases after with
    | nil => simp at room
    | cons old after =>
      have written : (memory.store index byte).cells = (before ++ [byte]) ++ after := by
        simp [store, cells, ← start]
      rw [copy, ih written (by simp [start]) (Nat.le_of_succ_le_succ room)]
      simp

/-- A string that is copied keeps the zero behind it. -/
theorem cells_copy_string (index : Nat) (text : List UInt8)
    (cells : memory.cells = before ++ after) (start : before.length = index)
    (room : text.length < after.length) :
    (memory.copy index (text ++ [0])).cells =
      before ++ text ++ 0 :: after.drop (text.length + 1) := by
  have fits : (text ++ [0]).length ≤ after.length := by
    rw [List.length_append, List.length_singleton]
    exact room
  rw [cells_copy cells start fits]
  simp

theorem string_of_nonzero (cells : memory.cells = text ++ after) (nonzero : 0 ∉ text) :
    memory.string = text ++ after.takeWhile (· ≠ 0) := by
  have all : ∀ byte ∈ text, decide (byte ≠ 0) = true := by
    intro byte member
    exact decide_eq_true (ne_of_mem_of_not_mem member nonzero)
  rw [string, cells, List.takeWhile_append_of_pos all]

theorem string_eq (cells : memory.cells = text ++ 0 :: after) (nonzero : 0 ∉ text) :
    memory.string = text := by
  rw [string_of_nonzero cells nonzero]
  simp

theorem zero_not_mem_string : 0 ∉ memory.string := by
  intro member
  simpa using List.mem_takeWhile_imp member

/-- Memory that holds a zero is a string and what comes behind it. -/
theorem exists_cells_eq (short : memory.string.length < memory.cells.length) :
    ∃ after, memory.cells = memory.string ++ 0 :: after := by
  have split := @List.takeWhile_append_dropWhile _ (fun byte : UInt8 => byte ≠ 0) memory.cells
  cases rest : memory.cells.dropWhile (· ≠ 0) with
  | nil =>
    rw [rest, List.append_nil] at split
    exact absurd short (by rw [string, split]; exact Nat.lt_irrefl _)
  | cons byte after =>
    have nonempty : memory.cells.dropWhile (fun byte : UInt8 => byte ≠ 0) ≠ [] := by
      rw [rest]
      exact List.cons_ne_nil _ _
    have head := List.head_dropWhile_not (fun byte : UInt8 => byte ≠ 0) nonempty
    have zero : byte = 0 := by
      simp only [rest, List.head_cons] at head
      simpa using head
    rw [rest, zero] at split
    exact ⟨after, split.symm⟩

theorem within_append : (memory.append text).Within size ↔
    memory.Within size ∧ memory.string.length + text.length < size := by
  rw [append, within_copy]
  constructor
  · intro within
    have last := within.2 text.length (by simp)
    exact ⟨within.1, last⟩
  · intro within
    refine ⟨within.1, fun offset inside => ?_⟩
    rw [List.length_append, List.length_singleton] at inside
    omega

theorem string_append (nonzero : 0 ∉ text)
    (room : memory.string.length + text.length < memory.cells.length) :
    (memory.append text).string = memory.string ++ text := by
  have short : memory.string.length < memory.cells.length := by omega
  obtain ⟨after, cells⟩ := exists_cells_eq short
  have lengths := congrArg List.length cells
  rw [List.length_append] at lengths
  refine string_eq (cells_copy_string _ text cells rfl (by omega)) ?_
  rw [List.mem_append, not_or]
  exact ⟨zero_not_mem_string, nonzero⟩

end Bytes

end Striga.Lib
