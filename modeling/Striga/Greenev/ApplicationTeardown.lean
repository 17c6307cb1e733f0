import Striga.Greenev.ApplicationRun

/-! The deletion of the application's queue: the detached IO thread may still
be between the critical section and the `ev_async_send` of its last put. -/

set_option autoImplicit false

namespace Striga.Greenev.ApplicationRun

open Lib

variable {layout : IoBufferLayout} {state next : State}

/-- No thread has taken a step of a put on the application's queue after it was
freed, and none can any more. -/
def NeverUsedFreed (layout : IoBufferLayout) (state : State) : Prop :=
  state.usedFreed = false ∧
    (state.freed = true → ∀ later, (system layout).Leads state later → later.usedFreed = false)

/-- When the queue is deleted, the IO thread is past its `ev_async_send`. -/
def DeletesAfterSend (state : State) (label : Label) (_ : State) : Prop :=
  match label with
  | .delete => state.phase .ioThread = .finished
  | _ => True

private theorem usedFreed_step {label : Label} (taken : Step layout state label next)
    (other : label ≠ .delete) :
    next.freed = state.freed ∧ (state.freed = false → next.usedFreed = state.usedFreed) := by
  cases taken with
  | delete => exact absurd rfl other
  | iterate =>
      unfold State.iterate
      split <;> exact ⟨rfl, fun _ => rfl⟩
  | command =>
      unfold State.command
      split <;> exact ⟨rfl, fun _ => rfl⟩
  | enqueue | send => exact ⟨rfl, fun present => by simp [State.enqueue, State.send, present]⟩
  | _ => exact ⟨rfl, fun _ => rfl⟩

/-- Once both threads are past their puts, the queue is not used again. -/
private theorem usedFreed_of_finished {label : Label} (taken : Step layout state label next)
    (finished : ∀ thread, state.phase thread = .finished) :
    (∀ thread, next.phase thread = .finished) ∧ next.usedFreed = state.usedFreed := by
  cases taken with
  | @enqueue thread running =>
      cases running.symm.trans (finished thread)
  | @send thread sending =>
      cases sending.symm.trans (finished thread)
  | iterate =>
      unfold State.iterate
      split <;> exact ⟨finished, rfl⟩
  | command =>
      unfold State.command
      split <;> exact ⟨finished, rfl⟩
  | _ => exact ⟨finished, rfl⟩

/-- The deletion is safe exactly when the IO thread is past its send; otherwise
that send is still to come. -/
private theorem neverUsedFreed_delete_iff (valid : Valid layout state)
    (joined : state.main = .joined) (unused : state.usedFreed = false) :
    NeverUsedFreed layout { state with app := state.app.dtor, main := .deleted, freed := true } ↔
      state.phase .ioThread = .finished := by
  obtain ⟨_, processed⟩ := valid.ended (.inr (.inl joined))
  constructor
  · intro safe
    have counted := valid.counts .ioThread
    cases phase : state.phase .ioThread with
    | running =>
        rw [phase, if_pos rfl, processed, Bool.toNat_true] at counted
        omega
    | sending =>
        have late := safe.2 rfl _ (.step .refl (.send phase))
        simp [State.send] at late
    | finished => rfl
  · intro finished
    refine ⟨unused, fun _ later leads => ?_⟩
    have quiet := leads.invariant
      (fun state => (∀ thread, state.phase thread = .finished) ∧ state.usedFreed = false) ?_ ?_
    · exact quiet.2
    · refine ⟨fun thread => ?_, unused⟩
      cases thread
      · exact finished
      · exact valid.joined (.inl joined)
    · intro state label next quiet taken
      obtain ⟨after, kept⟩ := usedFreed_of_finished taken quiet.1
      exact ⟨after, kept.trans quiet.2⟩

private theorem neverUsedFreed_step_iff (valid : Valid layout state)
    (before : NeverUsedFreed layout state) {label : Label}
    (taken : Step layout state label next) :
    NeverUsedFreed layout next ↔ DeletesAfterSend state label next := by
  by_cases deletes : label = .delete
  · subst deletes
    cases taken with
    | delete joined => exact neverUsedFreed_delete_iff valid joined before.1
  · have condition : DeletesAfterSend state label next := by
      cases label <;> trivial
    refine iff_of_true ?_ condition
    obtain ⟨sameFreed, kept⟩ := usedFreed_step taken deletes
    cases freed : state.freed
    · refine ⟨(kept freed).trans before.1, fun gone => ?_⟩
      cases gone.symm.trans (sameFreed.trans freed)
    · have safe := before.2 freed
      exact ⟨safe _ (.step .refl taken), fun _ later leads => safe later (leads.head taken)⟩

/-- Along a run the freed queue is never used, nor can it be, exactly when it
was deleted only after the IO thread's last send. -/
theorem neverUsedFreed_iff_deletesAfterSend (layout : IoBufferLayout) (start : State)
    (path : List (Label × State)) (run : (system layout).Run start path) :
    AllStates (NeverUsedFreed layout) start path ↔ AllSteps DeletesAfterSend start path := by
  apply run.allStates_iff
  · obtain ⟨appCells, ioCells, block, memory, rfl⟩ := run.starts
    refine ⟨rfl, fun freed => ?_⟩
    cases freed
  · intro state label next reachable before taken
    exact neverUsedFreed_step_iff (valid reachable) before taken

/-- The main thread, woken by the Python thread, handles both exit commands and
deletes the queue before the IO thread has sent to it. -/
theorem queue_deleted_before_send :
    ¬ ∀ layout state, (system layout).Reachable state → state.usedFreed = false := by
  intro always
  have fresh : (system .lp64).Reachable
      (.fresh .lp64 (fun _ => ⟨0, .ioThread⟩) (fun _ => ⟨0, none⟩) 0 fun _ => 0) :=
    .start ⟨_, _, _, _, rfl⟩
  have running := fresh.step (.run rfl)
  have started := running.step (.io (.start rfl) (by simp) (by simp))
  have signalled := started.step (@Step.deliver _ _ .sigint)
  have dying := signalled.step (@Step.terminate _ _ .sigint rfl rfl rfl)
  have told := dying.step (.sendDie rfl)
  have woken := told.step (.io (.wake rfl (by decide) rfl rfl) (by simp) (by simp))
  have taken := woken.step (.io (.iterate rfl) (by simp) (by simp))
  have dead := taken.step (.io (@IoThreadTraffic.Step.command _ _ _ (fun _ => .kept) 0 _ rfl rfl)
    (by simp) (by simp))
  have drained := dead.step (.io (.iterate rfl) (by simp) (by simp))
  have left := drained.step (.io (.leave rfl rfl) (by simp) (by simp))
  have stopped := left.step (.io (.stop rfl) (by simp) (by simp))
  have queued := stopped.step (@Step.enqueue _ _ .ioThread rfl fun _ => rfl)
  have python := queued.step (@Step.enqueue _ _ .pyThread rfl (by simp))
  have sent := python.step (@Step.send _ _ .pyThread rfl)
  have mainWoken := sent.step (.wake rfl (by decide) rfl rfl)
  have first := (mainWoken.step (.iterate rfl)).step (.command rfl)
  have second := (first.step (.iterate rfl)).step (.command rfl)
  have returned := (second.step (.iterate rfl)).step (.leave rfl rfl)
  have deleted := (returned.step (.join rfl rfl)).step (.delete rfl)
  have used := always _ _ (deleted.step (@Step.send _ _ .ioThread rfl))
  cases used

/-- A run in which the IO thread sends before the queue is deleted. -/
theorem neverUsedFreed_iff_deletesAfterSend_deleted :
    ∃ start path, Label.delete ∈ path.map Prod.fst ∧
      AllStates (NeverUsedFreed .lp64) start path := by
  have fresh : ((system .lp64).restrict DeletesAfterSend).Reachable
      (.fresh .lp64 (fun _ => ⟨0, .ioThread⟩) (fun _ => ⟨0, none⟩) 0 fun _ => 0) :=
    .start ⟨_, _, _, _, rfl⟩
  have started := (fresh.step ⟨.run rfl, trivial⟩).step
    ⟨.io (.start rfl) (by simp) (by simp), trivial⟩
  have signalled := started.step ⟨@Step.deliver _ _ .sigint, trivial⟩
  have dying := signalled.step ⟨@Step.terminate _ _ .sigint rfl rfl rfl, trivial⟩
  have told := dying.step ⟨.sendDie rfl, trivial⟩
  have woken := told.step ⟨.io (.wake rfl (by decide) rfl rfl) (by simp) (by simp), trivial⟩
  have taken := woken.step ⟨.io (.iterate rfl) (by simp) (by simp), trivial⟩
  have dead := taken.step ⟨.io (@IoThreadTraffic.Step.command _ _ _ (fun _ => .kept) 0 _ rfl rfl)
    (by simp) (by simp), trivial⟩
  have drained := dead.step ⟨.io (.iterate rfl) (by simp) (by simp), trivial⟩
  have left := drained.step ⟨.io (.leave rfl rfl) (by simp) (by simp), trivial⟩
  have stopped := left.step ⟨.io (.stop rfl) (by simp) (by simp), trivial⟩
  have queued := stopped.step ⟨@Step.enqueue _ _ .ioThread rfl fun _ => rfl, trivial⟩
  have sent := queued.step ⟨@Step.send _ _ .ioThread rfl, trivial⟩
  have python := sent.step ⟨@Step.enqueue _ _ .pyThread rfl (by simp), trivial⟩
  have finished := python.step ⟨@Step.send _ _ .pyThread rfl, trivial⟩
  have mainWoken := finished.step ⟨.wake rfl (by decide) rfl rfl, trivial⟩
  have first := (mainWoken.step ⟨.iterate rfl, trivial⟩).step ⟨.command rfl, trivial⟩
  have second := (first.step ⟨.iterate rfl, trivial⟩).step ⟨.command rfl, trivial⟩
  have returned := (second.step ⟨.iterate rfl, trivial⟩).step ⟨.leave rfl rfl, trivial⟩
  have joined := returned.step ⟨.join rfl rfl, trivial⟩
  obtain ⟨start, path, run, sends, deleted⟩ :=
    @System.Reachable.exists_run _ _ _ _ _ joined [(.delete, _)] ⟨⟨.delete rfl, rfl⟩, trivial⟩
  exact ⟨start, path, List.mem_map_of_mem (deleted List.mem_cons_self),
    (neverUsedFreed_iff_deletesAfterSend .lp64 start path run).mpr sends⟩

end Striga.Greenev.ApplicationRun
