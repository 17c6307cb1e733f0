import Mathlib.Data.Set.Card

/-! A condition variable seen by those who wait on it: who is asleep, and who
has been woken and is yet to get the mutex back. What there is for the waiting
to take is covered when the woken are enough to take it. -/

set_option autoImplicit false

namespace Striga.Lib

structure WaitSet (Thread : Type) where
  asleep : Set Thread
  woken : Set Thread

namespace WaitSet

variable {Thread : Type} {waiters next : WaitSet Thread} {supply : Nat} {thread : Thread}

/-- Nobody sleeps while there is more to take than the woken will take. -/
def Covers (waiters : WaitSet Thread) (supply : Nat) : Prop :=
  waiters.asleep.Nonempty → (supply : ℕ∞) ≤ waiters.woken.encard

theorem Covers.zero : waiters.Covers 0 := by
  intro _
  simp

theorem Covers.of_none_asleep (none : waiters.asleep = ∅) : waiters.Covers supply := by
  intro sleeping
  rw [none] at sleeping
  exact absurd sleeping Set.not_nonempty_empty

theorem Covers.mono (covers : waiters.Covers supply) (asleep : next.asleep ⊆ waiters.asleep)
    (woken : waiters.woken ⊆ next.woken) : next.Covers supply := by
  intro sleeping
  exact (covers (sleeping.mono asleep)).trans (Set.encard_le_encard woken)

/-- One who takes leaves the woken, if it was among them. -/
theorem Covers.take (covers : waiters.Covers (supply + 1)) (asleep : next.asleep ⊆ waiters.asleep)
    (woken : waiters.woken ⊆ insert thread next.woken) : next.Covers supply := by
  intro sleeping
  have enough : ((supply + 1 : Nat) : ℕ∞) ≤ next.woken.encard + 1 :=
    calc ((supply + 1 : Nat) : ℕ∞) ≤ waiters.woken.encard := covers (sleeping.mono asleep)
      _ ≤ (insert thread next.woken).encard := Set.encard_le_encard woken
      _ ≤ next.woken.encard + 1 := Set.encard_insert_le _ _
  rw [Nat.cast_add, Nat.cast_one] at enough
  exact (ENat.add_le_add_iff_right (by simp)).mp enough

/-- One more to take is covered by one more of the sleeping who is woken. -/
theorem Covers.wake (covers : waiters.Covers supply) (fresh : thread ∉ waiters.woken)
    (sleeper : thread ∈ waiters.asleep) (woken : insert thread waiters.woken ⊆ next.woken) :
    next.Covers (supply + 1) := by
  intro _
  calc ((supply + 1 : Nat) : ℕ∞) = supply + 1 := by simp
    _ ≤ waiters.woken.encard + 1 := by
        apply add_le_add_left
        exact covers ⟨thread, sleeper⟩
    _ = (insert thread waiters.woken).encard := (Set.encard_insert_of_notMem fresh).symm
    _ ≤ next.woken.encard := Set.encard_le_encard woken

theorem Covers.exists_woken (covers : waiters.Covers (supply + 1))
    (sleeper : thread ∈ waiters.asleep) :
    waiters.woken.Nonempty := by
  have enough := covers ⟨thread, sleeper⟩
  rw [← Set.one_le_encard_iff_nonempty]
  exact le_trans (by simp) enough

end WaitSet

end Striga.Lib
