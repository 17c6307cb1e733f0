import Striga.Greenev.IoBuffer
import Mathlib.Order.CompletePartialOrder
import Mathlib.Order.Interval.Set.Disjoint
import Mathlib.Order.Interval.Set.LinearOrder

/-! The block that `io_buffer_new` allocates against the slots laid out in it. -/

set_option autoImplicit false

namespace Striga.Greenev

/-- `sizeof` counts the padding of the struct behind its last plain field, where
`free_slots` begins. -/
structure IoBufferStruct extends IoBufferLayout where
  sizeof : Nat
  header_le : header ≤ sizeof

namespace IoBufferStruct

def lp64 : IoBufferStruct := { IoBufferLayout.lp64 with sizeof := 64, header_le := Nat.le_refl 64 }

variable (struct : IoBufferStruct)

/-- `alloc_size` of `io_buffer_new`, for sizes that a `size_t` holds. -/
def allocSize (slotCount : UInt32) : Nat := struct.sizeof + struct.slotSize * slotCount.toNat

end IoBufferStruct

/-- The bytes that an entry of the caller's array stands for. -/
def Iovec.bytes (iovec : Iovec) : Set Nat := Set.Ico iovec.iovBase (iovec.iovBase + iovec.iovLen)

namespace IoBuffer

variable (struct : IoBufferStruct) (block : Nat) (slotCount : UInt32) (memory : Nat → Nat)

def header : Set Nat := Set.Ico block (block + struct.header)

def table : Set Nat :=
  Set.Ico (block + struct.header) (block + struct.header + struct.pointer * slotCount.toNat)

/-- What a new buffer gives to a caller that asks for all its slots. -/
def published : List Iovec :=
  (get struct.toIoBufferLayout slotCount.toNat
    (new struct.toIoBufferLayout block slotCount memory)).1

structure LaidOut : Prop where
  separate : (published struct block slotCount memory).Pairwise
    fun left right => Disjoint left.bytes right.bytes
  off_header : ∀ iovec ∈ published struct block slotCount memory,
    Disjoint iovec.bytes (header struct block)
  off_table : ∀ iovec ∈ published struct block slotCount memory,
    Disjoint iovec.bytes (table struct block slotCount)
  inside : ∀ iovec ∈ published struct block slotCount memory,
    iovec.bytes ⊆ Set.Ico block (block + struct.allocSize slotCount)

variable {struct block slotCount memory}

/-- All slots, in the order in which they are laid out. -/
theorem published_eq (positive : 0 < slotCount) :
    published struct block slotCount memory =
      (List.range slotCount.toNat).map fun index =>
        ⟨slot struct.toIoBufferLayout
          (block + struct.header + struct.pointer * slotCount.toNat) index, struct.slotSize⟩ := by
  have least : 0 < slotCount.toNat := UInt32.lt_iff_toNat_lt.mp positive
  have fresh := @new_runaway struct.toIoBufferLayout block slotCount memory
  rw [published, (fresh.get least slotCount.toNat).1, Lib.Residue.residues, List.map_map]
  apply List.map_congr_left
  intro index member
  have inside := List.mem_range.mp member
  simp only [Function.comp_apply, Nat.zero_add, Nat.mod_eq_of_lt inside]
  rfl

private theorem slot_add_le {layout : IoBufferLayout} {data left right : Nat}
    (before : left < right) :
    slot layout data left + layout.slotSize ≤ slot layout data right := by
  have room := Nat.mul_le_mul_left layout.slotSize (Nat.succ_le_of_lt before)
  rw [Nat.mul_succ] at room
  unfold slot
  omega

private theorem bytes_disjoint {first second : Iovec}
    (apart : first.iovBase + first.iovLen ≤ second.iovBase) :
    Disjoint first.bytes second.bytes := by
  rw [Iovec.bytes, Iovec.bytes, Set.Ico_disjoint_Ico]
  exact (min_le_left _ _).trans (apart.trans (le_max_right _ _))

private theorem bytes_off {iovec : Iovec} {low high : Nat} (behind : high ≤ iovec.iovBase) :
    Disjoint iovec.bytes (Set.Ico low high) := by
  rw [Iovec.bytes, Set.Ico_disjoint_Ico]
  exact (min_le_right _ _).trans (behind.trans (le_max_left _ _))

/-- The data begin behind the table, for which the block has no room of its own. -/
theorem LaidOut.padded (laidOut : LaidOut struct block slotCount memory)
    (positive : 0 < slotCount) :
    struct.header + struct.pointer * slotCount.toNat ≤ struct.sizeof := by
  have least : 0 < slotCount.toNat := UInt32.lt_iff_toNat_lt.mp positive
  have wide := struct.positive
  have inside := laidOut.inside
  simp only [published_eq positive, List.forall_mem_map, List.mem_range] at inside
  have last := inside (slotCount.toNat - 1) (by omega)
  rw [Iovec.bytes, Set.Ico_subset_Ico_iff (by simpa using wide)] at last
  have reaches := last.2
  have whole : struct.slotSize * slotCount.toNat =
      struct.slotSize * (slotCount.toNat - 1) + struct.slotSize := by
    rw [← Nat.mul_succ]
    congr 1
    omega
  simp only [slot, IoBufferStruct.allocSize] at reaches
  omega

private theorem laidOut_of_padded (positive : 0 < slotCount)
    (padded : struct.header + struct.pointer * slotCount.toNat ≤ struct.sizeof) :
    LaidOut struct block slotCount memory := by
  constructor
  · rw [published_eq positive, List.pairwise_map]
    exact List.pairwise_lt_range.imp fun before => bytes_disjoint (slot_add_le before)
  all_goals
    simp only [published_eq positive, List.forall_mem_map, List.mem_range]
    intro index within
  · apply bytes_off
    simp only [slot]
    omega
  · apply bytes_off
    simp only [slot]
    omega
  · have upTo := @slot_add_le struct.toIoBufferLayout
      (block + struct.header + struct.pointer * slotCount.toNat) index slotCount.toNat within
    apply Set.Ico_subset_Ico
    · simp only [slot]
      omega
    · simp only [slot, IoBufferStruct.allocSize] at upTo ⊢
      omega

theorem laidOut_iff_padded (struct : IoBufferStruct) (block : Nat) (slotCount : UInt32)
    (memory : Nat → Nat) (positive : 0 < slotCount) :
    LaidOut struct block slotCount memory ↔
      struct.header + struct.pointer * slotCount.toNat ≤ struct.sizeof :=
  ⟨fun laidOut => laidOut.padded positive, laidOut_of_padded positive⟩

theorem laidOut_overAligned :
    LaidOut ⟨⟨32, 8, 1024 * 16, by decide⟩, 64, by decide⟩ 4096 4 fun _ => 0 :=
  (laidOut_iff_padded ⟨⟨32, 8, 1024 * 16, by decide⟩, 64, by decide⟩ 4096 4 (fun _ => 0)
    (by decide)).mpr (by decide)

/-- The buffer of the program: the last four slots end behind the block. -/
theorem not_laidOut_lp64 : ¬ LaidOut .lp64 4096 8192 fun _ => 0 := by
  intro laidOut
  have padded := laidOut.padded (by decide)
  exact absurd padded (by decide)

end IoBuffer

end Striga.Greenev
