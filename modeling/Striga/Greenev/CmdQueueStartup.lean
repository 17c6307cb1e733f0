import Striga.Greenev.CmdQueueTraffic

/-! Commands put while the consumer of a `watcher_cmd_q` is starting up:
`ev_async_start` forgets what was sent to the watcher before it, and
`watcher_cmd_q_put` accepts commands whether or not the watcher is active. -/

set_option autoImplicit false

namespace Striga.Greenev.CmdQueueTraffic

open Lib

variable {Call Arg : Type} [DecidableEq Call] {cmd : Call → Cmd Arg} {size : UInt32}

/-- While the consumer has been started and is not draining, a pending command
comes with a pending async wake-up or a producer that has yet to cause one. -/
def NotStranded (state : State Call Arg) : Prop :=
  state.consumer = .waiting → state.queue.pending ≠ [] →
    (state.queue.qWatcher.active = true ∧ state.queue.qWatcher.sent = true) ∨
      ∃ call, state.phase call = .sending

/-- The start of the consumer finds the queue empty, or some producer that has
yet to send. -/
def StartsInTime (state : State Call Arg) (label : Label Call) (_ : State Call Arg) : Prop :=
  match label with
  | .start => state.queue.pending = [] ∨ ∃ call, state.phase call = .sending
  | _ => True

omit [DecidableEq Call] in
private theorem notStranded_of_not_waiting {state : State Call Arg}
    (elsewhere : state.consumer ≠ .waiting) : NotStranded state :=
  fun waiting => absurd waiting elsewhere

private theorem watcher_active_iff {state : State Call Arg}
    (reachable : (system cmd size).Reachable state) :
    state.queue.qWatcher.active = true ↔ state.consumer ≠ .created := by
  refine reachable.invariant
    (fun state => state.queue.qWatcher.active = true ↔ state.consumer ≠ .created) ?_ ?_
  · intro state starts
    obtain ⟨loop, block, rfl⟩ := starts
    simp [State.fresh, WatcherCmdQ.new, EvAsync.init]
  · intro state label next started taken
    cases taken with
    | @enqueue call idle =>
        simpa [State.enqueue, WatcherCmdQ.enqueue_qWatcher] using started
    | send sending => simpa [WatcherCmdQ.send, EvAsync.send] using started
    | start created =>
        have inactive : state.queue.qWatcher.active = false := by simpa [created] using started
        simp [WatcherCmdQ.start, EvAsync.start, inactive]
    | wake waiting => simpa [EvAsync.clear, waiting] using started
    | iterate draining =>
        have active := started.mpr (by simp [draining])
        rw [← WatcherCmdQ.take_qWatcher] at active
        unfold State.iterate
        split <;> simp_all
    | callback holding => simpa [holding] using started

/-- Every step but the start keeps commands from being stranded; the start does
so exactly when it comes in time. -/
private theorem notStranded_step_iff (positive : 0 < size) {state next : State Call Arg}
    {label : Label Call} (reachable : (system cmd size).Reachable state)
    (before : NotStranded state) (taken : (system cmd size).step state label next) :
    NotStranded next ↔ StartsInTime state label next := by
  have valid := wellFormed positive reachable
  have started := watcher_active_iff reachable
  cases taken with
  | @enqueue call idle =>
      simp only [StartsInTime, iff_true]
      rcases valid.enqueue_cases (cmd call) with ⟨_, refused⟩ | ⟨_, after, accepted, _⟩
      · intro waiting pending
        simp only [State.enqueue, refused] at waiting pending ⊢
        refine (before waiting pending).imp id ?_
        intro another
        obtain ⟨other, sending⟩ := another
        have differs : other ≠ call := by
          intro same
          subst same
          rw [idle] at sending
          cases sending
        exact ⟨other, by simpa [Function.update_of_ne differs] using sending⟩
      · exact fun _ _ => .inr ⟨call, by simp [State.enqueue, accepted]⟩
  | send sending =>
      simp only [StartsInTime, iff_true]
      intro waiting _
      exact .inl ⟨started.mpr (by rw [waiting]; simp), rfl⟩
  | start created =>
      have inactive : state.queue.qWatcher.active = false := by simpa [created] using started
      simp only [NotStranded, StartsInTime, WatcherCmdQ.start, EvAsync.start, inactive]
      constructor
      · intro kept
        by_cases idle : state.queue.pending = []
        · exact .inl idle
        · exact .inr (by simpa using kept trivial idle)
      · intro inTime _ pending
        rcases inTime with idle | sending
        · exact absurd idle pending
        · exact .inr sending
  | wake waiting =>
      simp only [StartsInTime, iff_true]
      exact notStranded_of_not_waiting (by simp)
  | iterate draining =>
      simp only [StartsInTime, iff_true]
      rcases valid.take_cases with ⟨idle, nothing⟩ | ⟨command, after, removed, _⟩
      · intro _ pending
        simp only [State.iterate, nothing] at pending
        exact absurd idle pending
      · exact notStranded_of_not_waiting (by simp [State.iterate, removed])
  | callback holding =>
      simp only [StartsInTime, iff_true]
      exact notStranded_of_not_waiting (by simp)

/-- Along a run no command is ever stranded exactly when the consumer's start,
if it has happened, came in time. -/
theorem notStranded_iff_startsInTime (size : UInt32) (positive : 0 < size)
    (cmd : Call → Cmd Arg) (start : State Call Arg)
    (path : List (Label Call × State Call Arg)) (run : (system cmd size).Run start path) :
    AllStates NotStranded start path ↔ AllSteps StartsInTime start path := by
  apply run.allStates_iff
  · obtain ⟨loop, block, rfl⟩ := run.starts
    exact notStranded_of_not_waiting (by simp [State.fresh])
  · intro state label next reachable before taken
    exact notStranded_step_iff positive reachable before taken

theorem start_strands_earlier_put :
    ¬ ∀ (size : UInt32), 0 < size → ∀ state : State Unit Nat,
      (system (fun _ => ⟨1, 0⟩) size).Reachable state → NotStranded state := by
  intro always
  let cmd : Unit → Cmd Nat := fun _ => ⟨1, 0⟩
  have fresh : (system cmd 256).Reachable (.fresh ⟨0⟩ 256 fun _ => ⟨0, 0⟩) :=
    .start ⟨_, _, rfl⟩
  have enqueued := fresh.step (@Step.enqueue _ _ _ cmd _ () rfl)
  have sent := enqueued.step (@Step.send _ _ _ cmd _ () rfl)
  have started := sent.step (Step.start rfl)
  rcases always 256 (by decide) _ started rfl (by decide) with ⟨_, sent⟩ | ⟨call, sending⟩
  · cases sent
  · cases sending

/-- The start forgets nothing while the put that comes before it has yet to send. -/
theorem notStranded_iff_startsInTime_sending : ∃ path : List (Label Unit × State Unit Nat),
    path.map Prod.fst = [.enqueue (), .start, .send (), .wake, .iterate] ∧
      AllStates NotStranded (.fresh ⟨0⟩ 256 fun _ => ⟨0, 0⟩) path := by
  let cmd : Unit → Cmd Nat := fun _ => ⟨1, 0⟩
  exact ⟨[(_, _), (_, _), (_, _), (_, _), (_, _)], rfl,
    Iff.mpr (notStranded_iff_startsInTime 256 (by decide) cmd _ _ ⟨⟨⟨0⟩, fun _ => ⟨0, 0⟩, rfl⟩,
      .enqueue rfl, .start rfl, .send rfl, .wake rfl, .iterate rfl, trivial⟩)
    ⟨trivial, .inr ⟨(), rfl⟩, trivial, trivial, trivial, trivial⟩⟩

end Striga.Greenev.CmdQueueTraffic
