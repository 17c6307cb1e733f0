import Striga.Greenev.IoThreadStopping

/-! Orderly runs of greenev, and how it comes to its exit in them once the IO thread
has stopped. The application's queue has room for both exit commands, and neither is
left in it without the main thread being woken. -/

set_option autoImplicit false

namespace Striga.Greenev.ApplicationRun

open Lib

variable {layout : IoBufferLayout} {state next : State}

/-- The IO thread reads no object that it has freed. -/
def Orderly (state : State) : Label → Prop
  | .io label => IoThreadTraffic.Orderly state.io label
  | _ => True

def orderly (layout : IoBufferLayout) : System State Label :=
  (system layout).restrict fun state label _ => Orderly state label

theorem orderly_of_move {label : Label} {move : IoThreadTraffic.Label}
    (orderly : Orderly state label)
    (cause : label = .io move ∨ move = .die ∨ move = .sendDie) :
    IoThreadTraffic.Orderly state.io move := by
  rcases cause with rfl | rfl | rfl
  · exact orderly
  · trivial
  · trivial

theorem io_orderly (reachable : (orderly layout).Reachable state) :
    (IoThreadTraffic.orderly layout).Reachable state.io := by
  have kept : (IoThreadTraffic.orderly layout).Reachable state.io ∧ Valid layout state := by
    refine reachable.invariant
      (fun state => (IoThreadTraffic.orderly layout).Reachable state.io ∧ Valid layout state) ?_ ?_
    · intro state starts
      refine ⟨?_, valid (.start starts)⟩
      obtain ⟨_, _, _, _, rfl⟩ := starts
      exact .start ⟨_, _, _, rfl⟩
    · intro state label next before taken
      refine ⟨?_, before.2.step taken.1⟩
      rcases io_moves before.2 taken.1 with same | ⟨move, moved, cause⟩
      · rw [same]
        exact before.1
      · exact before.1.step ⟨moved, orderly_of_move taken.2 cause⟩
  exact kept.1

/-- The end of `_application_die` and the exit of the Python thread. -/
def Label.apart : Label → Bool
  | .sendDie | .enqueue .pyThread => true
  | _ => false

/-- What goes on without them, in order. -/
def withoutPython (layout : IoBufferLayout) : System State Label :=
  (orderly layout).restrict fun _ label _ => label.apart = false

/-- The main thread listens to its queue, and is on its way in
`_application_die` only where this was called. -/
structure Heeds (state : State) : Prop where
  watching : state.main ≠ .deleted → state.app.appCmdQ.qWatcher.active = true
  called : state.main = .dying → state.io.dieCalled = true

theorem Heeds.congr (heeds : Heeds state)
    (watcher : next.app.appCmdQ.qWatcher.active = state.app.appCmdQ.qWatcher.active)
    (undeleted : state.main ≠ .deleted) (called : next.main ≠ .dying) : Heeds next :=
  ⟨fun _ => watcher.trans (heeds.watching undeleted), fun dying => absurd dying called⟩

private theorem onApplicationCmd_appCmdQ {app after : Application} {cmd : Cmd AppThread}
    (done : app.onApplicationCmd cmd = some after) : after.appCmdQ = app.appCmdQ := by
  unfold Application.onApplicationCmd at done
  split at done
  · split at done
    · cases done
    · cases done
      rfl
  · split at done <;>
    · cases done
      rfl

theorem Heeds.step (heeds : Heeds state) {label : Label} (taken : Step layout state label next) :
    Heeds next := by
  cases taken with
  | run place | leave place | join place => exact heeds.congr rfl (by simp [place]) (by simp)
  | wake place => exact heeds.congr rfl (by simp [place]) (by simp)
  | deliver =>
      rename_i signal
      refine ⟨fun present => ?_, heeds.called⟩
      have active := heeds.watching present
      cases signal with
      | sigint | sigterm => exact active
  | @terminate signal place =>
      refine ⟨fun _ => ?_, fun _ => rfl⟩
      have active := heeds.watching (by simp [place])
      cases signal with
      | sigint | sigterm => exact active
  | sendDie place => exact heeds.congr rfl (by simp [place]) (by simp [State.sendDie])
  | iterate place =>
      have same := congrArg EvAsync.active (WatcherCmdQ.take_qWatcher state.app.appCmdQ)
      unfold State.iterate
      split <;>
      · rename_i taken
        rw [taken] at same
        exact heeds.congr same (by simp [place]) (by simp)
  | @command cmd place =>
      unfold State.command
      split
      · exact heeds.congr rfl (by simp [place]) (by simp)
      · rename_i app done
        refine heeds.congr ?_ (by simp [place]) (by simp)
        exact congrArg (fun queue => queue.qWatcher.active) (onApplicationCmd_appCmdQ done)
  | delete place => exact ⟨fun present => absurd rfl present, fun dying => by cases dying⟩
  | @io label io taken other =>
      refine ⟨heeds.watching, fun dying => ?_⟩
      exact (IoThreadTraffic.dieCalled_step taken other).trans (heeds.called dying)
  | enqueue =>
      refine ⟨fun present => ?_, heeds.called⟩
      exact (congrArg EvAsync.active (WatcherCmdQ.enqueue_qWatcher _ _)).trans
        (heeds.watching present)
  | send => exact ⟨heeds.watching, heeds.called⟩

theorem heeds (reachable : (system layout).Reachable state) : Heeds state := by
  refine reachable.invariant Heeds ?_ fun _ _ _ heeds taken => heeds.step taken
  intro state starts
  obtain ⟨_, _, _, _, rfl⟩ := starts
  exact ⟨fun _ => rfl, fun dying => by cases dying⟩

/-- Wherever the main thread does not drain its queue, it will be woken for what is
in it. -/
def Alerted (state : State) : Prop :=
  (∀ hand, state.main ≠ .draining hand) → state.main ≠ .deleted →
    state.app.appCmdQ.pending ≠ [] →
      state.app.appCmdQ.qWatcher.sent = true ∨ ∃ thread, state.phase thread = .sending

theorem Alerted.congr (alerted : Alerted state)
    (undrained : ∀ hand, state.main ≠ .draining hand) (undeleted : state.main ≠ .deleted)
    (queue : next.app.appCmdQ = state.app.appCmdQ) (phase : next.phase = state.phase) :
    Alerted next := by
  intro _ _ pending
  rw [queue] at pending ⊢
  rw [phase]
  exact alerted undrained undeleted pending

theorem Alerted.step (alerted : Alerted state) (valid : Valid layout state) (heeds : Heeds state)
    {label : Label} (taken : Step layout state label next) : Alerted next := by
  cases taken with
  | run place | leave place | join place | sendDie place =>
      exact alerted.congr (by simp [place]) (by simp [place]) rfl rfl
  | @terminate signal place =>
      refine alerted.congr (by simp [place]) (by simp [place]) ?_ rfl
      cases signal with
      | sigint | sigterm => rfl
  | @deliver signal =>
      cases signal with
      | sigint | sigterm => exact alerted
  | wake => exact fun undrained => absurd rfl (undrained none)
  | iterate place =>
      rcases valid.queue.take_cases with ⟨empty, nothing⟩ | ⟨cmd, after, removed, _⟩
      · simp only [State.iterate, nothing]
        exact fun _ _ pending => absurd empty pending
      · simp only [State.iterate, removed]
        exact fun undrained => absurd rfl (undrained (some cmd))
  | @command cmd place =>
      have kept := (valid.step (@Step.command layout _ _ place)).notAborted
      unfold State.command at kept ⊢
      split at kept
      · exact absurd rfl kept
      · exact fun undrained => absurd rfl (undrained none)
  | delete => exact fun _ undeleted => absurd rfl undeleted
  | io => exact alerted
  | @enqueue thread running stopped =>
      exact fun _ _ _ => .inr ⟨thread, (valid.enqueue running stopped).2⟩
  | send =>
      intro _ undeleted _
      have active := heeds.watching undeleted
      exact .inl (by simp [State.send, WatcherCmdQ.send, EvAsync.send, active])

private theorem alerted (reachable : (system layout).Reachable state) : Alerted state := by
  have kept : Alerted state ∧ (system layout).Reachable state := by
    refine reachable.invariant
      (fun state => Alerted state ∧ (system layout).Reachable state) ?_ ?_
    · intro state starts
      refine ⟨?_, .start starts⟩
      obtain ⟨_, _, _, _, rfl⟩ := starts
      exact fun _ _ pending => absurd rfl pending
    · intro state label next before taken
      exact ⟨before.1.step (valid before.2) (heeds before.2) taken, before.2.step taken⟩
  exact kept.1

/-- How far the main thread is from waiting with its queue drained. -/
def State.undrained (state : State) : Nat :=
  match state.main with
  | .draining hand => 1 + 2 * state.app.appCmdQ.pending.length + hand.toList.length
  | _ => 0

/-- The main thread drains its queue, or waits with nothing left in it. -/
structure Drains (layout : IoBufferLayout) (first state : State) : Prop where
  valid : Valid layout state
  place : (∃ hand, state.main = .draining hand) ∨
    state.main = .waiting ∧ state.app.appCmdQ.pending = []
  io : state.io = first.io
  phase : state.phase = first.phase

theorem Drains.progress {first : State} (drains : Drains layout first state)
    (undrained : state.main ≠ .waiting) :
    (withoutPython layout).Can (fun next => Drains layout first next ∧
      next.undrained < state.undrained) state := by
  obtain ⟨valid, ⟨hand, draining⟩ | ⟨waiting, _⟩, io, phase⟩ := drains
  · cases hand with
    | some cmd =>
        have taken : Step layout state .command (state.command cmd) := .command draining
        have after := valid.step taken
        cases done : state.app.onApplicationCmd cmd with
        | none =>
            have aborted := after.notAborted
            simp [State.command, done] at aborted
        | some app =>
            have same : state.command cmd = { state with
                app := app
                main := .draining none
                processed := fun thread => state.processed thread || cmd == exitCmd thread } := by
              simp only [State.command, done]
            rw [same] at taken after
            refine .once ⟨⟨taken, trivial⟩, rfl⟩
              ⟨⟨after, .inl ⟨_, rfl⟩, io, phase⟩, ?_⟩
            simp [State.undrained, draining, onApplicationCmd_appCmdQ done]
    | none =>
        have taken : Step layout state .iterate state.iterate := .iterate draining
        have after := valid.step taken
        rcases valid.queue.take_cases with ⟨empty, nothing⟩ | ⟨cmd, queue, removed, _, shape, _⟩
        · have same : state.iterate = { state with main := .waiting } := by
            simp only [State.iterate, nothing]
          rw [same] at taken after
          refine .once ⟨⟨taken, trivial⟩, rfl⟩ ⟨⟨after, .inr ⟨rfl, empty⟩, io, phase⟩, ?_⟩
          simp only [State.undrained, draining]
          omega
        · have same : state.iterate = { state with
              app := { state.app with appCmdQ := queue }, main := .draining (some cmd) } := by
            simp only [State.iterate, removed]
          rw [same] at taken after
          refine .once ⟨⟨taken, trivial⟩, rfl⟩ ⟨⟨after, .inl ⟨_, rfl⟩, io, phase⟩, ?_⟩
          simp [State.undrained, draining, shape]
          omega
  · exact absurd waiting undrained

theorem Drains.waits {first : State} (drains : Drains layout first state) :
    (withoutPython layout).Can (fun last => Drains layout first last ∧ last.main = .waiting)
      state := by
  refine .of_measure (Drains layout first) State.undrained ?_ drains
  intro state drains undrained
  exact drains.progress fun waiting => undrained ⟨drains, waiting⟩

/-- Nothing is left to be done but to leave the loop. -/
theorem exits_of_unheld (waiting : state.main = .waiting)
    (zero : state.app.mainLoop.activecnt = 0) (finished : state.phase .pyThread = .finished) :
    (withoutPython layout).Can (fun last => last.main = .deleted) state := by
  refine .step ⟨⟨.leave waiting zero, trivial⟩, rfl⟩ ?_
  refine .step ⟨⟨.join rfl finished, trivial⟩, rfl⟩ ?_
  exact .once ⟨⟨.delete rfl, trivial⟩, rfl⟩ rfl

/-- With both exit commands handled nothing holds the main loop. -/
theorem Valid.unheld (valid : Valid layout state) (waiting : state.main = .waiting)
    (called : state.io.dieCalled = true) (finished : ∀ thread, state.phase thread = .finished)
    (empty : state.app.appCmdQ.pending = []) : state.app.mainLoop.activecnt = 0 := by
  have processed : ∀ thread, state.processed thread = true := by
    intro thread
    have counts := valid.counts thread
    rw [State.inFlight, waiting, empty, finished thread] at counts
    cases done : state.processed thread with
    | true => rfl
    | false =>
        rw [done] at counts
        cases counts
  have armed : ∀ signal, (state.app.watcher signal).active = false := by
    intro signal
    rw [valid.armed, called]
    rfl
  rw [valid.activecnt (by simp [waiting]), State.references, processed, processed,
    show state.app.sigint.active = false from armed .sigint,
    show state.app.sigterm.active = false from armed .sigterm]
  rfl

private theorem exits_of_waiting (reachable : (orderly layout).Reachable state)
    (waiting : state.main = .waiting) (called : state.io.dieCalled = true)
    (finished : ∀ thread, state.phase thread = .finished) :
    (withoutPython layout).Can (fun last => last.main = .deleted) state := by
  have valid := valid reachable.of_restrict
  by_cases zero : state.app.mainLoop.activecnt = 0
  · exact exits_of_unheld waiting zero (finished _)
  · have pending : state.app.appCmdQ.pending ≠ [] :=
      fun empty => zero (valid.unheld waiting called finished empty)
    have sent : state.app.appCmdQ.qWatcher.sent = true := by
      refine (alerted reachable.of_restrict (by simp [waiting]) (by simp [waiting])
        pending).resolve_right ?_
      intro somebody
      obtain ⟨thread, sending⟩ := somebody
      cases sending.symm.trans (finished thread)
    have active := (heeds reachable.of_restrict).watching (by simp [waiting])
    have taken := @Step.wake layout state waiting zero active sent
    have drains : Drains layout state _ := ⟨valid.step taken, .inl ⟨_, rfl⟩, rfl, rfl⟩
    refine .step ⟨⟨taken, trivial⟩, rfl⟩
      (drains.waits.bind fun last reached => ?_)
    obtain ⟨⟨valid, drained, io, phase⟩, waits⟩ := reached
    rw [← io] at called
    rw [← phase] at finished
    rcases drained with ⟨hand, draining⟩ | ⟨_, empty⟩
    · cases draining.symm.trans waits
    · exact exits_of_unheld waits (valid.unheld waits called finished empty) (finished _)

/-- Both threads have put their exit commands, and the main thread is not in
`_application_die`. -/
theorem exits_of_finished (reachable : (orderly layout).Reachable state)
    (called : state.io.dieCalled = true) (dead : state.main ≠ .dying)
    (finished : ∀ thread, state.phase thread = .finished) :
    (withoutPython layout).Can (fun last => last.main = .deleted) state := by
  have valid := valid reachable.of_restrict
  cases place : state.main with
  | constructed => cases called.symm.trans (valid.constructed place)
  | waiting => exact exits_of_waiting reachable place called finished
  | draining hand =>
      have drains : Drains layout state state := ⟨valid, .inl ⟨hand, place⟩, rfl, rfl⟩
      refine (drains.waits.reachable_of_restrict reachable).bind fun last reached => ?_
      obtain ⟨reachable, ⟨_, _, io, phase⟩, waits⟩ := reached
      rw [← io] at called
      rw [← phase] at finished
      exact exits_of_waiting reachable waits called finished
  | dying => exact absurd place dead
  | returned =>
      refine .step ⟨⟨.join place (finished _), trivial⟩, rfl⟩ ?_
      exact .once ⟨⟨.delete rfl, trivial⟩, rfl⟩ rfl
  | joined => exact .once ⟨⟨.delete place, trivial⟩, rfl⟩ rfl
  | deleted => exact .now place
  | aborted => exact absurd place valid.notAborted

/-- A thread that may exit gets its exit command put. -/
theorem reports (reachable : (orderly layout).Reachable state) (thread : AppThread)
    (stopped : thread = .ioThread → state.io.control = .stopped) :
    ((orderly layout).restrict fun _ label _ => label = .enqueue thread ∨ label = .send thread).Can
      (fun last => last.main = state.main ∧ last.io = state.io ∧ last.phase thread = .finished ∧
        ∀ other ≠ thread, last.phase other = state.phase other) state := by
  have sends {state : State} (sending : state.phase thread = .sending) :
      ((orderly layout).restrict fun _ label _ =>
        label = .enqueue thread ∨ label = .send thread).Can
        (fun last => last.main = state.main ∧ last.io = state.io ∧
          last.phase thread = .finished ∧
          ∀ other ≠ thread, last.phase other = state.phase other) state := by
    refine .once ⟨⟨.send sending, trivial⟩, .inr rfl⟩ ⟨rfl, rfl, by simp [State.send], ?_⟩
    exact fun other differs => by simp [State.send, differs]
  cases phase : state.phase thread with
  | finished => exact .now ⟨rfl, rfl, phase, fun _ _ => rfl⟩
  | sending => exact sends phase
  | running =>
      have sending := ((valid reachable.of_restrict).enqueue phase stopped).2
      refine .step ⟨⟨.enqueue phase stopped, trivial⟩, .inl rfl⟩
        ((sends sending).imp fun last reached => ?_)
      obtain ⟨main, io, finished, others⟩ := reached
      refine ⟨main, io, finished, fun other differs => (others other differs).trans ?_⟩
      simp [State.enqueue, differs]

end Striga.Greenev.ApplicationRun
