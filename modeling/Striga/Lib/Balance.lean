import Mathlib.Data.List.Chain

/-! A number that every call of a run leaves as it was. Where what a call does to
the number depends on the call before it alone, that is a relation between
neighbouring calls. -/

set_option autoImplicit false

namespace Striga.Lib

variable {State Call : Type}

def Balanced (step : State → Call → State) (count : State → Int) (state : State)
    (calls : List Call) : Prop :=
  ∀ before, before <+: calls → count (before.foldl step state) = count state

namespace Balanced

variable {step : State → Call → State} {count : State → Int} {state : State} {calls : List Call}

theorem nil : Balanced step count state [] := by
  intro before initial
  rw [List.prefix_nil.mp initial, List.foldl_nil]

theorem cons_iff {call : Call} :
    Balanced step count state (call :: calls) ↔
      count (step state call) = count state ∧ Balanced step count (step state call) calls := by
  constructor
  · intro balanced
    have first : count (step state call) = count state :=
      balanced [call] (List.cons_prefix_cons.mpr ⟨rfl, List.nil_prefix⟩)
    constructor
    · exact first
    · intro before initial
      rw [first]
      exact balanced (call :: before) (List.cons_prefix_cons.mpr ⟨rfl, initial⟩)
  · intro both before initial
    obtain ⟨first, balanced⟩ := both
    cases before with
    | nil => rfl
    | cons head before =>
      obtain ⟨same, rest⟩ := List.cons_prefix_cons.mp initial
      subst same
      exact (balanced before rest).trans first

/-- `After call` are the states that the call leaves. -/
theorem iff_isChain {After : Call → State → Prop} {Harmless : Call → Call → Prop}
    (leaves : ∀ call state, After call (step state call))
    (changes : ∀ previous next state, After previous state →
      (count (step state next) = count state ↔ Harmless previous next))
    {previous : Call} (after : After previous state) :
    Balanced step count state calls ↔ List.IsChain Harmless (previous :: calls) := by
  induction calls generalizing state previous with
  | nil => exact ⟨fun _ => List.isChain_singleton previous, fun _ => nil⟩
  | cons call calls ih =>
    rw [cons_iff, changes previous call state after, ih (leaves call state),
      List.isChain_cons_cons]

end Balanced

end Striga.Lib
