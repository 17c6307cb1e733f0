import Striga.Lib.Transition

/-! What a system can still bring about. A continuation is put together from
shorter ones; one that goes on while something gets less comes to an end; what
a part of a system can bring about, the whole can; and what the whole can reach,
each part can. -/

set_option autoImplicit false

namespace Striga.Lib.System

variable {State Label : Type} {system : System State Label} {state next : State} {label : Label}
  {wanted middle : State → Prop}

/-- Some continuation comes to a state that is as wanted. -/
def Can (system : System State Label) (wanted : State → Prop) (state : State) : Prop :=
  ∃ last, system.Leads state last ∧ wanted last

theorem Leads.trans {first last : State} (before : system.Leads first state)
    (after : system.Leads state last) : system.Leads first last := by
  induction after with
  | refl => exact before
  | step _ taken ih => exact .step ih taken

theorem Reachable.leads {last : State} (reachable : system.Reachable state)
    (leads : system.Leads state last) : system.Reachable last := by
  induction leads with
  | refl => exact reachable
  | step _ taken ih => exact ih.step taken

/-- Each step of the whole moves the part on or leaves it as it is. -/
theorem Reachable.project {Part PartLabel : Type} {part : System Part PartLabel}
    (image : State → Part)
    (starts : ∀ state, system.initial state → part.initial (image state))
    (moves : ∀ state label next, system.step state label next →
      image next = image state ∨ ∃ move, part.step (image state) move (image next))
    (reachable : system.Reachable state) : part.Reachable (image state) := by
  induction reachable with
  | start initial => exact .start (starts _ initial)
  | step _ taken ih =>
      rcases moves _ _ _ taken with same | ⟨move, moved⟩
      · exact same ▸ ih
      · exact .step ih moved

variable {condition : State → Label → State → Prop}

theorem Leads.of_restrict {last : State} (leads : (system.restrict condition).Leads state last) :
    system.Leads state last := by
  induction leads with
  | refl => exact .refl
  | step _ taken ih => exact .step ih taken.1

theorem Reachable.of_restrict (reachable : (system.restrict condition).Reachable state) :
    system.Reachable state := by
  induction reachable with
  | start initial => exact .start initial
  | step _ taken ih => exact .step ih taken.1

namespace Can

theorem now (holds : wanted state) : system.Can wanted state := ⟨state, .refl, holds⟩

theorem step (taken : system.step state label next) (can : system.Can wanted next) :
    system.Can wanted state := by
  obtain ⟨last, leads, holds⟩ := can
  exact ⟨last, .head taken leads, holds⟩

theorem once (taken : system.step state label next) (holds : wanted next) :
    system.Can wanted state := .step taken (.now holds)

theorem imp (can : system.Can middle state) (implies : ∀ state, middle state → wanted state) :
    system.Can wanted state := by
  obtain ⟨last, leads, holds⟩ := can
  exact ⟨last, leads, implies last holds⟩

theorem bind (can : system.Can middle state)
    (onwards : ∀ state, middle state → system.Can wanted state) : system.Can wanted state := by
  obtain ⟨between, before, holds⟩ := can
  obtain ⟨last, after, reached⟩ := onwards between holds
  exact ⟨last, before.trans after, reached⟩

/-- What a reachable state can bring about is reachable. -/
theorem reachable (can : system.Can wanted state) (start : system.Reachable state) :
    system.Can (fun last => system.Reachable last ∧ wanted last) state := by
  obtain ⟨last, leads, holds⟩ := can
  exact ⟨last, leads, start.leads leads, holds⟩

theorem of_restrict (can : (system.restrict condition).Can wanted state) :
    system.Can wanted state := by
  obtain ⟨last, leads, holds⟩ := can
  exact ⟨last, leads.of_restrict, holds⟩

/-- What the part of a system can bring about is reachable in the system. -/
theorem reachable_of_restrict (can : (system.restrict condition).Can wanted state)
    (start : system.Reachable state) :
    (system.restrict condition).Can (fun last => system.Reachable last ∧ wanted last) state := by
  obtain ⟨last, leads, holds⟩ := can
  exact ⟨last, leads, start.leads leads.of_restrict, holds⟩

theorem weaken {weaker : State → Label → State → Prop}
    (can : (system.restrict condition).Can wanted state)
    (implies : ∀ state label next, condition state label next → weaker state label next) :
    (system.restrict weaker).Can wanted state := by
  obtain ⟨last, leads, holds⟩ := can
  refine ⟨last, ?_, holds⟩
  clear holds
  induction leads with
  | refl => exact .refl
  | step _ taken ih => exact .step ih ⟨taken.1, implies _ _ _ taken.2⟩

/-- If from every state with an invariant that is not as wanted some continuation
comes to one that measures less, some continuation comes to one that is as wanted. -/
theorem of_measure (property : State → Prop) (measure : State → Nat)
    (progress : ∀ state, property state → ¬ wanted state →
      system.Can (fun next => property next ∧ measure next < measure state) state)
    (start : property state) : system.Can wanted state := by
  induction size : measure state using Nat.strongRecOn generalizing state with
  | ind count ih =>
      by_cases holds : wanted state
      · exact .now holds
      · obtain ⟨between, leads, kept, less⟩ := progress state start holds
        obtain ⟨last, after, reached⟩ := ih (measure between) (size ▸ less) kept rfl
        exact ⟨last, leads.trans after, reached⟩

/-- A part whose steps are steps of the whole. -/
theorem embed {Whole WholeLabel : Type} {whole : System Whole WholeLabel}
    (image : State → Whole)
    (lifted : ∀ state label next, system.step state label next →
      ∃ move, whole.step (image state) move (image next))
    (can : system.Can wanted state) :
    whole.Can (fun last => ∃ part, last = image part ∧ wanted part) (image state) := by
  obtain ⟨last, leads, holds⟩ := can
  refine ⟨image last, ?_, last, rfl, holds⟩
  clear holds
  induction leads with
  | refl => exact .refl
  | step _ taken ih =>
      obtain ⟨move, moved⟩ := lifted _ _ _ taken
      exact .step ih moved

end Can

end Striga.Lib.System
