import Mathlib.Logic.Basic

/-! Rules for computations that may fail: what holds of the failure, and what
holds of the result. -/

set_option autoImplicit false

namespace Striga.Lib

def Ensures {Error Value : Type} (failed : Error → Prop) (result : Value → Prop) :
    Except Error Value → Prop
  | .error error => failed error
  | .ok value => result value

namespace Ensures

variable {Error Value Other : Type} {failed : Error → Prop} {result : Value → Prop}
  {computation : Except Error Value}

theorem of_ok (ensures : Ensures failed result computation) {value : Value}
    (done : computation = .ok value) : result value := by
  subst done
  exact ensures

theorem of_error (ensures : Ensures failed result computation) {error : Error}
    (stopped : computation = .error error) : failed error := by
  subst stopped
  exact ensures

theorem mono {failedToo : Error → Prop} {resultToo : Value → Prop}
    (ensures : Ensures failed result computation) (error : ∀ error, failed error → failedToo error)
    (value : ∀ value, result value → resultToo value) :
    Ensures failedToo resultToo computation := by
  cases computation with
  | error stopped => exact error stopped ensures
  | ok done => exact value done ensures

theorem bind {later : Other → Prop} {next : Value → Except Error Other}
    (ensures : Ensures failed result computation)
    (continued : ∀ value, result value → Ensures failed later (next value)) :
    Ensures failed later (computation >>= next) := by
  cases computation with
  | error stopped => exact ensures
  | ok done => exact continued done ensures

/-- The rule for a loop over a list: what one round preserves, all preserve. -/
theorem foldlM {Item : Type} {step : Value → Item → Except Error Value}
    (invariant : Value → Prop) (items : List Item) : ∀ {start : Value}, invariant start →
      (∀ item ∈ items, ∀ value, invariant value → Ensures failed invariant (step value item)) →
      Ensures failed invariant (items.foldlM step start) := by
  induction items with
  | nil => exact fun start _ => start
  | cons item items ih =>
      intro start holds round
      rw [List.foldlM_cons]
      apply (round item List.mem_cons_self start holds).bind
      intro value kept
      exact ih kept fun other member => round other (List.mem_cons_of_mem _ member)

end Ensures

end Striga.Lib
