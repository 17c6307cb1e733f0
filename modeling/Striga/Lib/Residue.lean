import Mathlib.Data.List.Nodup
import Mathlib.Data.List.Perm.Subperm

/-! Handing out the residues of consecutive numbers: any `size` consecutive
numbers meet every residue exactly once. -/

set_option autoImplicit false

namespace Striga.Lib.Residue

variable {size first : Nat}

def residues (size first count : Nat) : List Nat :=
  (List.range count).map fun offset => (first + offset) % size

theorem mem_residues {count residue : Nat} :
    residue ∈ residues size first count ↔ ∃ offset < count, (first + offset) % size = residue := by
  simp [residues]

@[simp] theorem length_residues {count : Nat} : (residues size first count).length = count := by
  simp [residues]

theorem residues_append {left right : Nat} :
    residues size first (left + right) = residues size first left ++
      residues size (first + left) right := by
  simp [residues, List.range_add, Nat.add_assoc]

theorem residues_succ {count : Nat} :
    residues size first (count + 1) = first % size :: residues size (first + 1) count := by
  have split : residues size first (1 + count) = residues size first 1 ++
    residues size (first + 1) count :=
    residues_append
  rw [Nat.add_comm, split]
  simp [residues]

/-- Congruent numbers that are less than `size` apart are equal. -/
theorem offset_eq_of_mod_eq {left right : Nat}
    (same : (first + left) % size = (first + right) % size)
    (leftInside : left < size) (rightInside : right < size) : left = right := by
  by_contra differs
  rcases Nat.lt_or_gt_of_ne differs with less | less
  · have divides : size ∣ (first + right) - (first + left) :=
      Nat.dvd_of_mod_eq_zero (Nat.sub_mod_eq_zero_of_mod_eq same.symm)
    have := Nat.le_of_dvd (by omega) divides
    omega
  · have divides : size ∣ (first + left) - (first + right) :=
      Nat.dvd_of_mod_eq_zero (Nat.sub_mod_eq_zero_of_mod_eq same)
    have := Nat.le_of_dvd (by omega) divides
    omega

theorem residues_nodup {count : Nat} (fits : count ≤ size) : (residues size first count).Nodup := by
  refine List.Nodup.map_on ?_ List.nodup_range
  intro left leftMember right rightMember same
  have leftInside := List.mem_range.mp leftMember
  have rightInside := List.mem_range.mp rightMember
  exact offset_eq_of_mod_eq same (by omega) (by omega)

theorem residues_complete {residue : Nat} (inside : residue < size) :
    residue ∈ residues size first size := by
  have subset : residues size first size ⊆ List.range size := by
    intro value member
    obtain ⟨offset, _, rfl⟩ := mem_residues.mp member
    exact List.mem_range.mpr (Nat.mod_lt _ (by omega))
  have distinct : (residues size first size).Nodup := residues_nodup (Nat.le_refl size)
  have perm := (distinct.subperm subset).perm_of_length_le (by simp)
  exact perm.mem_iff.mpr (List.mem_range.mpr inside)

/-- Among residues already met, those of the last `size - count` numbers are
exactly the ones that the next `count` numbers do not meet. -/
theorem mem_recent_iff {count total residue : Nat} (positive : 0 < size) (fits : count ≤ size)
    (met : residue ∈ residues size 0 total) :
    residue ∈ (residues size 0 total).drop (total - (size - count)) ↔
      residue ∉ residues size total count := by
  obtain ⟨earlier, less, rfl⟩ := mem_residues.mp met
  rcases Nat.lt_or_ge total (size - count) with short | long
  · rw [show total - (size - count) = 0 by omega, List.drop_zero]
    refine iff_of_true met ?_
    intro again
    obtain ⟨offset, inside, same⟩ := mem_residues.mp again
    rw [Nat.zero_add, Nat.mod_eq_of_lt (by omega), Nat.mod_eq_of_lt (by omega)] at same
    omega
  · obtain ⟨start, rfl⟩ := Nat.exists_eq_add_of_le' long
    have recent : (residues size 0 (start + (size - count))).drop
        (start + (size - count) - (size - count)) = residues size start (size - count) := by
      rw [residues_append, Nat.add_sub_cancel, Nat.zero_add]
      exact List.drop_left' length_residues
    have whole : residues size start size =
        residues size start (size - count) ++ residues size (start + (size - count)) count := by
      rw [← residues_append, Nat.sub_add_cancel fits]
    have distinct : (residues size start size).Nodup := residues_nodup (Nat.le_refl size)
    rw [whole, List.nodup_append] at distinct
    rw [recent]
    constructor
    · intro member later
      exact distinct.2.2 _ member _ later rfl
    · intro unmet
      have member : (0 + earlier) % size ∈ residues size start size :=
        residues_complete (Nat.mod_lt _ positive)
      rw [whole, List.mem_append] at member
      exact member.resolve_right unmet

end Striga.Lib.Residue
