import Striga.Greenev.ApplicationRun

/-! The exit of the application: what the main loop counts, and that
`application_run` returns only when everything has been told to end and has. -/

set_option autoImplicit false

namespace Striga.Greenev.ApplicationRun

open Lib

variable {layout : IoBufferLayout} {state : State}

/-- The main loop counts the active signal watchers and the threads whose exit
command has not been handled, until the queue is deleted; so `application_run`
returns only while dying and after both exits, `_application_die` runs at most
once, and `abort` is never called. -/
structure Counted (state : State) : Prop where
  activecnt : state.main ≠ .deleted → state.app.mainLoop.activecnt =
    (if state.app.sigint.active then 1 else 0) + (if state.app.sigterm.active then 1 else 0) +
      (if state.processed .ioThread then 0 else 1) + (if state.processed .pyThread then 0 else 1)
  returned : state.main = .returned → state.app.runPhase = .dying ∧
    state.processed .ioThread = true ∧ state.processed .pyThread = true
  deaths : state.deaths ≤ 1
  notAborted : state.main ≠ .aborted

theorem referencesCounted (layout : IoBufferLayout) (state : State)
    (reachable : (system layout).Reachable state) : Counted state := by
  have valid := valid reachable
  constructor
  · intro present
    rw [valid.activecnt present, State.references]
    cases state.app.sigint.active <;> cases state.app.sigterm.active <;>
      cases state.processed .ioThread <;> cases state.processed .pyThread <;> rfl
  · intro returned
    obtain ⟨called, processed⟩ := valid.ended (.inl returned)
    refine ⟨?_, processed _, processed _⟩
    rw [valid.runPhase, returned, called]
    rfl
  · rw [valid.deaths]
    exact Bool.toNat_le _
  · exact valid.notAborted

theorem referencesCounted_returned : ∃ state, state.main = .returned ∧ Counted state := by
  obtain ⟨state, reachable, returned⟩ := returned_reachable
  exact ⟨state, returned, referencesCounted .lp64 state reachable⟩

end Striga.Greenev.ApplicationRun
