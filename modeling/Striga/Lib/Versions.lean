import Mathlib.Data.List.Basic

/-! The versions that something has had, the latest one last, and what was so at
some time between two moments, each told by the number of versions up to it. -/

set_option autoImplicit false

namespace Striga.Lib.Versions

variable {α : Type} {versions : List α} {first last : Nat} {property : α → Prop}

/-- Some version of those from an index on, and below another one, is as said. -/
def Seen (versions : List α) (first last : Nat) (property : α → Prop) : Prop :=
  ∃ index version, first ≤ index ∧ index < last ∧ versions[index]? = some version ∧
    property version

theorem lt_length {index : Nat} {version : α} (known : versions[index]? = some version) :
    index < versions.length := (List.getElem?_eq_some_iff.mp known).1

theorem getElem?_append {index : Nat} {version : α} (known : versions[index]? = some version)
    (later : List α) : (versions ++ later)[index]? = some version := by
  obtain ⟨inside, _⟩ := List.getElem?_eq_some_iff.mp known
  rw [List.getElem?_append_left inside]
  exact known

/-- A version is one of those so far or the new one. -/
theorem getElem?_append_cases {index : Nat} {version new : α}
    (known : (versions ++ [new])[index]? = some version) :
    versions[index]? = some version ∨ index = versions.length ∧ version = new := by
  by_cases inside : index < versions.length
  · rw [List.getElem?_append_left inside] at known
    exact .inl known
  · have below := lt_length known
    rw [List.length_append, List.length_singleton] at below
    have last : index = versions.length :=
      Nat.le_antisymm (Nat.le_of_lt_succ below) (Nat.not_lt.mp inside)
    subst last
    rw [List.getElem?_concat_length] at known
    exact .inr ⟨rfl, (Option.some.inj known).symm⟩

theorem getElem?_last {version : α} (current : versions.getLast? = some version) :
    versions[versions.length - 1]? = some version := by
  rw [← List.getLast?_eq_getElem?]
  exact current

theorem getLast?_pos {version : α} (current : versions.getLast? = some version) :
    0 < versions.length := by
  cases versions with
  | nil => cases current
  | cons head rest => exact Nat.succ_pos _

theorem Seen.append (seen : Seen versions first last property) (later : List α) :
    Seen (versions ++ later) first last property := by
  obtain ⟨index, version, above, below, known, holds⟩ := seen
  exact ⟨index, version, above, below, getElem?_append known later, holds⟩

/-- What is current now was so at some time between any moment so far and now. -/
theorem Seen.current {version : α} (current : versions.getLast? = some version)
    (started : first < versions.length) (holds : property version) :
    Seen versions first versions.length property := by
  have positive := getLast?_pos current
  refine ⟨versions.length - 1, version, ?_, ?_, getElem?_last current, holds⟩
  · exact Nat.le_sub_one_of_lt started
  · exact Nat.sub_one_lt_of_lt positive

end Striga.Lib.Versions
