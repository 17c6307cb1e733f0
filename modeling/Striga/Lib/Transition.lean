import Mathlib.Logic.Basic

/-! Labelled transition systems: runs, reachable states, the invariant rule,
simulation of one system by another, and the rule by which a property of a
whole run is equivalent to a condition on each of its steps. -/

set_option autoImplicit false

namespace Striga.Lib

structure System (State Label : Type) where
  initial : State → Prop
  step : State → Label → State → Prop

/-- Every step of a path, given as its labels and successor states, satisfies
the condition. -/
def AllSteps {State Label : Type} (condition : State → Label → State → Prop) :
    State → List (Label × State) → Prop
  | _, [] => True
  | state, (label, next) :: rest =>
      condition state label next ∧ AllSteps condition next rest

/-- Every state of a path, its first one included, satisfies the property. -/
def AllStates {State Label : Type} (property : State → Prop)
    (state : State) (path : List (Label × State)) : Prop :=
  property state ∧ ∀ entry ∈ path, property entry.2

namespace System

variable {State Label : Type}

def Path (system : System State Label) : State → List (Label × State) → Prop :=
  AllSteps system.step

structure Run (system : System State Label) (start : State)
    (path : List (Label × State)) : Prop where
  starts : system.initial start
  steps : system.Path start path

inductive Reachable (system : System State Label) : State → Prop where
  | start {state} : system.initial state → Reachable system state
  | step {state label next} :
      Reachable system state → system.step state label next →
      Reachable system next

/-- The states that the system can still get to. -/
inductive Leads (system : System State Label) : State → State → Prop where
  | refl {state} : Leads system state state
  | step {first state label next} :
      Leads system first state → system.step state label next →
      Leads system first next

def restrict (system : System State Label)
    (condition : State → Label → State → Prop) : System State Label where
  initial := system.initial
  step state label next :=
    system.step state label next ∧ condition state label next

end System

@[simp] theorem allSteps_nil {State Label : Type}
    (condition : State → Label → State → Prop) (state : State) :
    AllSteps condition state [] := trivial

@[simp] theorem allSteps_cons {State Label : Type}
    {condition : State → Label → State → Prop} {state next : State}
    {label : Label} {rest : List (Label × State)} :
    AllSteps condition state ((label, next) :: rest) ↔
      condition state label next ∧ AllSteps condition next rest := Iff.rfl

theorem AllSteps.and {State Label : Type} {first second : State → Label → State → Prop}
    {state : State} {path : List (Label × State)} (left : AllSteps first state path)
    (right : AllSteps second state path) :
    AllSteps (fun state label next => first state label next ∧ second state label next)
      state path := by
  induction path generalizing state with
  | nil => trivial
  | cons entry rest ih =>
      obtain ⟨label, next⟩ := entry
      exact ⟨⟨left.1, right.1⟩, ih left.2 right.2⟩

theorem AllSteps.imp {State Label : Type} {first second : State → Label → State → Prop}
    {state : State} {path : List (Label × State)} (all : AllSteps first state path)
    (implies : ∀ state label next, first state label next → second state label next) :
    AllSteps second state path := by
  induction path generalizing state with
  | nil => trivial
  | cons entry rest ih =>
      obtain ⟨label, next⟩ := entry
      exact ⟨implies _ _ _ all.1, ih all.2⟩

theorem allStates_cons {State Label : Type} {property : State → Prop}
    {state next : State} {label : Label} {rest : List (Label × State)} :
    AllStates property state ((label, next) :: rest) ↔
      property state ∧ AllStates property next rest := by
  simp [AllStates]

namespace System

variable {State Label : Type} {system : System State Label}

/-- The invariant rule. -/
theorem Reachable.invariant {state : State} (property : State → Prop)
    (reachable : system.Reachable state)
    (start : ∀ state, system.initial state → property state)
    (preserved : ∀ state label next, property state →
      system.step state label next → property next) :
    property state := by
  induction reachable with
  | start initial => exact start _ initial
  | step _ taken ih => exact preserved _ _ _ ih taken

/-- The invariant rule from an arbitrary state onwards. -/
theorem Leads.invariant {first state : State} (property : State → Prop)
    (leads : system.Leads first state) (start : property first)
    (preserved : ∀ state label next, property state →
      system.step state label next → property next) :
    property state := by
  induction leads with
  | refl => exact start
  | step _ taken ih => exact preserved _ _ _ ih taken

theorem Leads.head {first state : State} {label : Label} {last : State}
    (taken : system.step first label state) (leads : system.Leads state last) :
    system.Leads first last := by
  induction leads with
  | refl => exact .step .refl taken
  | step _ last ih => exact .step ih last

/-- A relation that covers the initial states, and under which every step is
matched by a step or by no change, matches every reachable state. -/
theorem Reachable.simulation {Abstract AbstractLabel : Type}
    {abstract : System Abstract AbstractLabel} {state : State}
    (relation : State → Abstract → Prop) (reachable : system.Reachable state)
    (start : ∀ state, system.initial state →
      ∃ image, abstract.initial image ∧ relation state image)
    (simulated : ∀ state label next image, relation state image →
      system.step state label next →
      relation next image ∨
        ∃ move after, abstract.step image move after ∧ relation next after) :
    ∃ image, abstract.Reachable image ∧ relation state image := by
  induction reachable with
  | start initial =>
      obtain ⟨image, starts, related⟩ := start _ initial
      exact ⟨image, .start starts, related⟩
  | step _ taken ih =>
      obtain ⟨image, reached, related⟩ := ih
      rcases simulated _ _ _ _ related taken with same | ⟨move, after, moved, related⟩
      · exact ⟨image, reached, same⟩
      · exact ⟨after, .step reached moved, related⟩

theorem Path.restrict {condition : State → Label → State → Prop} {start : State}
    {path : List (Label × State)} (steps : system.Path start path)
    (met : AllSteps condition start path) : (system.restrict condition).Path start path := by
  induction path generalizing start with
  | nil => trivial
  | cons entry rest ih =>
      obtain ⟨label, next⟩ := entry
      exact ⟨⟨steps.1, met.1⟩, ih steps.2 met.2⟩

/-- What steps that meet a condition lead to is part of a run that meets it. -/
theorem Reachable.exists_run {condition : State → Label → State → Prop} {state : State}
    (reachable : (system.restrict condition).Reachable state) {rest : List (Label × State)}
    (steps : (system.restrict condition).Path state rest) :
    ∃ start path, system.Run start path ∧ AllSteps condition start path ∧ rest ⊆ path := by
  induction reachable generalizing rest with
  | @start state initial =>
      exact ⟨state, rest, ⟨initial, steps.imp fun _ _ _ taken => taken.1⟩,
        steps.imp fun _ _ _ taken => taken.2, List.Subset.refl rest⟩
  | @step _ label next _ taken ih =>
      obtain ⟨start, path, run, met, included⟩ := @ih ((label, next) :: rest) ⟨taken, steps⟩
      exact ⟨start, path, run, met, List.subset_of_cons_subset included⟩

/-- If, from states with an invariant, one step is as wanted exactly when it
meets the condition, and such a step keeps the invariant, then all steps of a
path are as wanted exactly when all of them meet the condition. -/
theorem Path.allSteps_iff (invariant : State → Prop)
    {wanted condition : State → Label → State → Prop}
    {start : State} {path : List (Label × State)}
    (steps : system.Path start path) (holds : invariant start)
    (exact : ∀ state label next, invariant state →
      system.step state label next →
      (wanted state label next ↔ condition state label next))
    (preserved : ∀ state label next, invariant state →
      system.step state label next → condition state label next →
      invariant next) :
    AllSteps wanted start path ↔ AllSteps condition start path := by
  induction path generalizing start with
  | nil => simp
  | cons entry rest ih =>
      obtain ⟨label, next⟩ := entry
      obtain ⟨taken, later⟩ := steps
      have here := exact start label next holds taken
      constructor
      · intro all
        obtain ⟨first, others⟩ := all
        have met := here.mp first
        exact ⟨met, (ih later (preserved _ _ _ holds taken met)).mp others⟩
      · intro all
        obtain ⟨met, others⟩ := all
        exact ⟨here.mpr met, (ih later (preserved _ _ _ holds taken met)).mpr others⟩

theorem allStates_iff_allSteps {property : State → Prop} {start : State}
    {path : List (Label × State)} (holds : property start) :
    AllStates property start path ↔
      AllSteps (fun _ _ next => property next) start path := by
  induction path generalizing start with
  | nil => simp [AllStates, holds]
  | cons entry rest ih =>
      obtain ⟨label, next⟩ := entry
      rw [allStates_cons, allSteps_cons]
      constructor
      · intro all
        obtain ⟨_, later⟩ := all
        exact ⟨later.1, (ih later.1).mp later⟩
      · intro all
        obtain ⟨reached, later⟩ := all
        exact ⟨holds, (ih reached).mpr later⟩

/-- The same for a property of states: along a run it holds everywhere exactly
when every step meets the condition, provided that a step from a state that
has it keeps it exactly when the step meets the condition. -/
theorem Run.allStates_iff {property : State → Prop}
    {condition : State → Label → State → Prop}
    {start : State} {path : List (Label × State)}
    (run : system.Run start path) (holds : property start)
    (exact : ∀ state label next, system.Reachable state → property state →
      system.step state label next →
      (property next ↔ condition state label next)) :
    AllStates property start path ↔ AllSteps condition start path := by
  rw [allStates_iff_allSteps holds]
  refine run.steps.allSteps_iff
    (fun state => system.Reachable state ∧ property state) ⟨.start run.starts, holds⟩ ?_ ?_
  · intro state label next valid taken
    exact exact state label next valid.1 valid.2 taken
  · intro state label next valid taken met
    exact ⟨.step valid.1 taken, (exact state label next valid.1 valid.2 taken).mpr met⟩

/-- If a step that meets the condition keeps an invariant, and is as wanted from a
state with the invariant, then a run whose steps all meet the condition is as
wanted everywhere. -/
theorem Run.allSteps {wanted condition : State → Label → State → Prop}
    {start : State} {path : List (Label × State)} (invariant : State → Prop)
    (run : system.Run start path) (met : AllSteps condition start path)
    (initial : ∀ state, system.initial state → invariant state)
    (preserved : ∀ state label next, system.Reachable state → invariant state →
      system.step state label next → condition state label next → invariant next)
    (implied : ∀ state label next, system.Reachable state → invariant state →
      system.step state label next → condition state label next → wanted state label next) :
    AllSteps wanted start path := by
  have later : ∀ (path : List (Label × State)) (start : State), system.Reachable start →
      invariant start → system.Path start path → AllSteps condition start path →
      AllSteps wanted start path := by
    intro path
    induction path with
    | nil => exact fun _ _ _ _ _ => trivial
    | cons entry rest ih =>
        intro start reachable holds steps met
        obtain ⟨label, next⟩ := entry
        refine ⟨implied start label next reachable holds steps.1 met.1, ?_⟩
        exact ih next (reachable.step steps.1)
          (preserved start label next reachable holds steps.1 met.1) steps.2 met.2
  exact later path start (.start run.starts) (initial start run.starts) run.steps met

/-- The same for a property of states that the invariant has. -/
theorem Run.allStates {property : State → Prop} {condition : State → Label → State → Prop}
    {start : State} {path : List (Label × State)} (invariant : State → Prop)
    (run : system.Run start path) (met : AllSteps condition start path)
    (initial : ∀ state, system.initial state → invariant state)
    (preserved : ∀ state label next, system.Reachable state → invariant state →
      system.step state label next → condition state label next → invariant next)
    (implied : ∀ state, invariant state → property state) : AllStates property start path := by
  rw [allStates_iff_allSteps (implied start (initial start run.starts))]
  apply run.allSteps invariant met initial preserved
  intro state label next reachable holds taken condition
  exact implied next (preserved state label next reachable holds taken condition)

end System

end Striga.Lib
