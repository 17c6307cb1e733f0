import Striga.Greenev.ApplicationLeaving
import Striga.Greenev.IoThreadEnding

/-! When greenev can still be made to exit. As long as nobody has told it to,
this hangs on the IO thread alone, which must not have got a socket to listen on:
the application's own queue has room for both exit commands, and the last of the two
puts wakes the main thread. -/

set_option autoImplicit false

namespace Striga.Greenev.ApplicationRun

open Lib

variable {layout : IoBufferLayout} {state next : State}

/-- Some continuation that reads no freed object ends with the application deleted. -/
def CanExit (layout : IoBufferLayout) (state : State) : Prop :=
  (orderly layout).Can (fun last => last.main = .deleted) state

/-- What the IO thread and the Python thread can do on their own. -/
theorem io_can {wanted : IoThreadTraffic.State → Prop}
    (can : (IoThreadTraffic.withoutDie layout).Can wanted state.io) :
    (withoutPython layout).Can (fun last => ∃ io, last = { state with io := io } ∧ wanted io)
      state := by
  refine can.embed (fun io => { state with io := io }) ?_
  intro io label next taken
  obtain ⟨⟨taken, inOrder⟩, inside⟩ := taken
  refine ⟨.io label, ⟨.io taken ?_ ?_, inOrder⟩, rfl⟩
  · rintro rfl
    cases inside
  · rintro rfl
    cases inside

/-- The main thread comes to wait, with the IO thread as it was. -/
private theorem waits (reachable : (orderly layout).Reachable state)
    (alive : state.io.dieCalled = false) :
    (withoutPython layout).Can (fun last => last.main = .waiting ∧ last.io = state.io) state := by
  have valid := valid reachable.of_restrict
  cases place : state.main with
  | constructed =>
      exact .once ⟨⟨.run place, trivial⟩, rfl⟩ ⟨rfl, rfl⟩
  | waiting => exact .now ⟨place, rfl⟩
  | draining hand =>
      have drains : Drains layout state state := ⟨valid, .inl ⟨hand, place⟩, rfl, rfl⟩
      exact drains.waits.imp fun last reached => ⟨reached.2, reached.1.io⟩
  | dying => cases alive.symm.trans ((heeds reachable.of_restrict).called place)
  | returned => cases alive.symm.trans (valid.ended (.inl place)).1
  | joined => cases alive.symm.trans (valid.ended (.inr (.inl place))).1
  | deleted => cases alive.symm.trans (valid.ended (.inr (.inr place))).1
  | aborted => exact absurd place valid.notAborted

/-- A signal that arrives while the IO thread would take the command to die. -/
theorem dies_of_receptive (reachable : (orderly layout).Reachable state)
    (waiting : state.main = .waiting) (receptive : IoThreadTraffic.Receptive state.io) :
    (withoutPython layout).Can (fun dying => dying.main = .dying ∧
      dying.phase .ioThread = .running ∧ dying.phase .pyThread = state.phase .pyThread ∧
      (IoThreadTraffic.withoutDie layout).Can (fun last => last.control = .stopped)
        dying.sendDie.io) state := by
  have running : state.phase .ioThread = .running := by
    by_contra exiting
    cases receptive.alive.symm.trans ((valid reachable.of_restrict).dieCalled exiting)
  have active : state.app.sigint.active = true :=
    ((valid reachable.of_restrict).armed .sigint).trans (by rw [receptive.alive]; rfl)
  have deliver := @Step.deliver layout state .sigint
  have terminate := @Step.terminate layout _ .sigint
    (show { state with app := state.app.deliver .sigint }.main = .waiting from waiting)
    (by simp [Application.watcher, Application.deliver, EvSignal.deliver, active])
    (by simp [Application.watcher, Application.deliver, EvSignal.deliver, active])
  obtain ⟨sending, ends⟩ := @IoThreadTraffic.Receptive.ends layout _ receptive
  have told : (State.sendDie (State.terminate { state with
      app := state.app.deliver .sigint } .sigint)).io = state.io.die.sendDie :=
    if_pos sending
  rw [← told] at ends
  exact .step ⟨⟨deliver, trivial⟩, rfl⟩
    (.once ⟨⟨terminate, trivial⟩, rfl⟩ ⟨rfl, running, rfl, ends⟩)

/-- Once the IO thread has stopped nothing can keep greenev from its exit. -/
private theorem exits_of_stopped (reachable : (orderly layout).Reachable state)
    (stopped : state.io.control = .stopped) (dead : state.main ≠ .dying) :
    CanExit layout state := by
  have called := IoThreadTraffic.called_of_stopped (valid reachable.of_restrict).io stopped
  refine ((reports reachable .ioThread fun _ => stopped).of_restrict.reachable reachable).bind ?_
  intro between reported
  obtain ⟨reachable, main, io, ioFinished, _⟩ := reported
  refine ((reports reachable .pyThread fun same => by cases same).of_restrict.reachable
    reachable).bind fun last reported => ?_
  obtain ⟨reachable, main', io', pyFinished, others⟩ := reported
  refine (exits_of_finished reachable ?_ ?_ ?_).of_restrict
  · rw [io', io]
    exact called
  · rw [main', main]
    exact dead
  · intro thread
    cases thread with
    | ioThread => exact (others _ (by simp)).trans ioFinished
    | pyThread => exact pyFinished

private theorem canExit_of_receptive (reachable : (orderly layout).Reachable state)
    (waiting : state.main = .waiting) (receptive : IoThreadTraffic.Receptive state.io) :
    CanExit layout state := by
  refine ((dies_of_receptive reachable waiting receptive).of_restrict.reachable reachable).bind ?_
  intro dying told
  obtain ⟨reached, place, running, _, ends⟩ := told
  have sends : (orderly layout).step dying .sendDie dying.sendDie := ⟨.sendDie place, trivial⟩
  refine .step sends (((io_can ends).of_restrict.reachable (reached.step sends)).bind ?_)
  intro between ended
  obtain ⟨reached, io, rfl, stopped⟩ := ended
  exact exits_of_stopped reached stopped (by simp [State.sendDie])

private theorem jammed_step (jammed : IoThreadTraffic.Jammed state.io) (valid : Valid layout state)
    {label : Label} (taken : Step layout state label next) : IoThreadTraffic.Jammed next.io := by
  obtain ⟨lists, inner⟩ := IoThreadTraffic.valid valid.io
  rcases io_moves valid taken with same | ⟨move, moved, _⟩
  · rw [same]
    exact jammed
  · exact jammed.step inner moved

/-- As long as the IO thread has not stopped, the main thread waits for it. -/
theorem Valid.undeleted (valid : Valid layout state) (alive : state.io.control ≠ .stopped) :
    state.main ≠ .deleted := by
  intro deleted
  have processed := (valid.ended (.inr (.inr deleted))).2 .ioThread
  refine alive (valid.stopped fun running => ?_)
  have counts := valid.counts .ioThread
  rw [if_pos running, processed, Bool.toNat_true] at counts
  omega

/-- Out of `_application_die` the wake-up for the command to die is sent. -/
theorem unsent (reachable : (system layout).Reachable state) (place : state.main ≠ .dying) :
    state.io.dieSending = false := by
  refine reachable.invariant (fun state => state.main ≠ .dying → state.io.dieSending = false)
    ?_ ?_ place
  · intro state starts _
    obtain ⟨_, _, _, _, rfl⟩ := starts
    rfl
  · intro state label next before taken free
    cases taken with
    | run place | wake place | leave place | join place | delete place =>
        exact before (by simp [place])
    | deliver | enqueue | send => exact before free
    | terminate => exact absurd rfl free
    | sendDie =>
        unfold State.sendDie
        split
        · rfl
        · exact Bool.not_eq_true _ ▸ ‹¬ state.io.dieSending = true›
    | iterate place =>
        unfold State.iterate
        split <;> exact before (by simp [place])
    | command place =>
        unfold State.command
        split <;> exact before (by simp [place])
    | io taken notDie notSendDie =>
        exact (IoThreadTraffic.dieSending_step taken notDie notSendDie).trans (before free)

private theorem not_deletes_of_jammed (reachable : (system layout).Reachable state)
    (jammed : IoThreadTraffic.Jammed state.io) :
    ¬ (system layout).Can (fun last => last.main = .deleted) state := by
  intro exits
  obtain ⟨last, leads, deleted⟩ := exits
  have kept := leads.invariant
    (fun state => Valid layout state ∧ IoThreadTraffic.Jammed state.io)
    ⟨valid reachable, jammed⟩ fun state label next before taken =>
      ⟨before.1.step taken, jammed_step before.2 before.1 taken⟩
  exact kept.1.undeleted kept.2.toUnwoken.unstopped deleted

/-- An IO thread that is stuck is never heard of again. -/
private theorem not_deletes_of_stuck (reachable : (system layout).Reachable state)
    (alive : state.io.dieCalled = false) (stuck : IoThreadTraffic.Stuck state.io) :
    ¬ (system layout).Can (fun last => last.main = .deleted) state := by
  obtain ⟨lists, inner⟩ := IoThreadTraffic.valid (valid reachable).io
  obtain ⟨_, undead⟩ := inner.living alive
  exact not_deletes_of_jammed reachable
    ⟨stuck, undead, IoThreadTraffic.dieSent (valid reachable).io alive⟩

theorem detained_step (detained : IoThreadTraffic.Detained state.io) (valid : Valid layout state)
    {label : Label} (taken : (orderly layout).step state label next) :
    IoThreadTraffic.Detained next.io := by
  obtain ⟨lists, inner⟩ := IoThreadTraffic.valid valid.io
  rcases io_moves valid taken.1 with same | ⟨move, moved, cause⟩
  · rw [same]
    exact detained
  · exact detained.step inner moved (orderly_of_move taken.2 cause)

/-- What listens is closed by the command to die alone, which is not to find it. -/
private theorem not_canExit_of_detained (reachable : (system layout).Reachable state)
    (detained : IoThreadTraffic.Detained state.io) : ¬ CanExit layout state := by
  intro exits
  obtain ⟨last, leads, deleted⟩ := exits
  have kept := leads.invariant
    (fun state => Valid layout state ∧ IoThreadTraffic.Detained state.io)
    ⟨valid reachable, detained⟩ fun state label next before taken =>
      ⟨before.1.step taken.1, detained_step before.2 before.1 taken⟩
  obtain ⟨lists, inner⟩ := IoThreadTraffic.valid kept.1.io
  exact kept.1.undeleted (kept.2.running inner).2 deleted

/-- Without a socket to listen on, the IO thread can be made to wait for the command
to die, with the main thread waiting for a signal. -/
theorem receptive (reachable : (orderly layout).Reachable state)
    (alive : state.io.dieCalled = false) (unheard : ¬ state.io.Heard) :
    (withoutPython layout).Can (fun ready => ready.main = .waiting ∧
      IoThreadTraffic.Receptive ready.io) state := by
  refine (waits reachable alive).bind fun between arrived => ?_
  obtain ⟨waiting, io⟩ := arrived
  have receptive : (IoThreadTraffic.withoutDie layout).Can IoThreadTraffic.Receptive
    between.io := by
    rw [io]
    exact IoThreadTraffic.receptive (io_orderly reachable) alive unheard
  refine (io_can receptive).imp fun ready reached => ?_
  obtain ⟨thread, rfl, receptive⟩ := reached
  exact ⟨waiting, receptive⟩

/-- Before a signal has told it to, greenev can exit in order exactly if its IO thread
has got no socket to listen on. If the thread sleeps with a full queue and no wake-up
on the way, greenev does not exit at all: what others send to the thread before it has
started its queue is forgotten. -/
theorem canExit_iff (layout : IoBufferLayout) (state : State)
    (reachable : (orderly layout).Reachable state) (alive : state.io.dieCalled = false) :
    (CanExit layout state ↔ ¬ state.io.Heard) ∧
      (IoThreadTraffic.Stuck state.io →
        ¬ (system layout).Can (fun last => last.main = .deleted) state) := by
  refine ⟨⟨fun exits heard => ?_, fun unheard => ?_⟩,
    not_deletes_of_stuck reachable.of_restrict alive⟩
  · obtain ⟨lists, inner⟩ := IoThreadTraffic.valid (valid reachable.of_restrict).io
    exact not_canExit_of_detained reachable.of_restrict (.inl ⟨(inner.living alive).2, heard⟩) exits
  · refine ((receptive reachable alive unheard).of_restrict.reachable reachable).bind ?_
    intro ready reached
    obtain ⟨reached, waiting, receptive⟩ := reached
    exact canExit_of_receptive reached waiting receptive

/-- Sockets to listen on that are handed over before the IO thread has started
its queue, each of them with the wake-up that goes with it. -/
private theorem sockets_before_start (layout : IoBufferLayout) (count : Nat) (few : count ≤ 255) :
    ∃ state, (orderly layout).Reachable state ∧ state.io.dieCalled = false ∧
      state.io.control = .created ∧ state.io.sending = 0 ∧
      state.io.thread.cmdQ.pending.length = count ∧
      ∀ addr ≥ count, state.io.thread.heap addr = none := by
  induction count with
  | zero =>
      have fresh : (orderly layout).Reachable
          (.fresh layout (fun _ => ⟨0, .ioThread⟩) (fun _ => ⟨0, none⟩) 0 fun _ => 0) :=
        .start ⟨_, _, _, _, rfl⟩
      exact ⟨_, fresh, rfl, rfl, rfl, rfl, fun _ _ => rfl⟩
  | succ count ih =>
      obtain ⟨state, reachable, alive, created, unsent, length, unused⟩ := ih (by omega)
      obtain ⟨lists, inner⟩ := IoThreadTraffic.valid (valid reachable.of_restrict).io
      have listening := reachable.step ⟨Step.io (@IoThreadTraffic.Step.listen layout state.io count
        3 2 1 6 [] (unused count (Nat.le_refl count))) (by simp) (by simp), trivial⟩
      have size : state.io.thread.cmdQ.qSize.toNat = 256 := by
        rw [inner.qSize]
        rfl
      rcases inner.queue.enqueue_cases ⟨iotCmdIoThreadListen, some count⟩ with
        ⟨full, _⟩ | ⟨_, after, accepted, _, appended, _⟩
      · omega
      · have sending : (state.io.handOver iotCmdIoThreadListen count
            (IoThread.listeningSocket 3 2 1 6 [])).sending = 1 := by
          simp [IoThreadTraffic.State.handOver, accepted, unsent]
        have sent := listening.step ⟨Step.io (@IoThreadTraffic.Step.send layout _
          (by rw [sending]; exact Nat.one_pos)) (by simp) (by simp), trivial⟩
        refine ⟨_, sent, alive, created, ?_, ?_, ?_⟩
        · exact congrArg (· - 1) sending
        · have pending : (state.io.thread.cmdQ.enqueue
            ⟨iotCmdIoThreadListen, some count⟩).2.pending =
              state.io.thread.cmdQ.pending ++ [⟨iotCmdIoThreadListen, some count⟩] := by
            rw [accepted, appended]
          refine (congrArg List.length pending).trans ?_
          rw [List.length_append, length, List.length_singleton]
        · intro addr beyond
          have differs : addr ≠ count := by omega
          exact (Function.update_of_ne differs _ _).trans (unused addr (by omega))

/-- At its start greenev can exit; with one socket to listen on it cannot in order, and
with 255 handed over too early not at all. -/
theorem canExit_iff_early :
    CanExit .lp64 (.fresh .lp64 (fun _ => ⟨0, .ioThread⟩) (fun _ => ⟨0, none⟩) 0 fun _ => 0) ∧
      (∃ state, (orderly .lp64).Reachable state ∧ ¬ CanExit .lp64 state) ∧
      ∃ state, (orderly .lp64).Reachable state ∧
        ¬ (system .lp64).Can (fun last => last.main = .deleted) state := by
  have fresh : (orderly .lp64).Reachable
      (.fresh .lp64 (fun _ => ⟨0, .ioThread⟩) (fun _ => ⟨0, none⟩) 0 fun _ => 0) :=
    .start ⟨_, _, _, _, rfl⟩
  refine ⟨(canExit_iff _ _ fresh rfl).1.mpr fun heard => ?_, ?_, ?_⟩
  · rcases heard with ⟨_, _, found, _⟩ | ⟨_, member⟩
    · cases found
    · cases member
  · have listening := fresh.step ⟨Step.io (@IoThreadTraffic.Step.listen .lp64 _ 0 3 2 1 6 [] rfl)
      (by simp) (by simp), trivial⟩
    refine ⟨_, listening, fun exits => (canExit_iff _ _ listening rfl).1.mp exits (.inr ⟨0, ?_⟩)⟩
    exact List.mem_singleton.mpr rfl
  · obtain ⟨state, reachable, alive, created, unsent, length, _⟩ :=
      sockets_before_start .lp64 255 (Nat.le_refl 255)
    obtain ⟨lists, inner⟩ := IoThreadTraffic.valid (valid reachable.of_restrict).io
    refine ⟨state, reachable, (canExit_iff _ _ reachable alive).2 ?_⟩
    exact ⟨⟨.inl created, unsent⟩, by rw [length, inner.qSize]; rfl⟩

end Striga.Greenev.ApplicationRun
