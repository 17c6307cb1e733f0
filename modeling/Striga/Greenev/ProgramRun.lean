import Striga.Greenev.ApplicationDtor
import Striga.Greenev.ApplicationEnding
import Striga.Greenev.PyThreadEnding

/-! greenev as a whole, with a module that is completed once its event loop is, like
`greenev/demo.py`. `_application_die` tells the IO thread to die and then, in
`py_thread_die`, the Python thread, where other threads may run event loops of
their own. The Python thread reports its exit when the module is over, and it
ends with the interpreter lock in its hands. -/

set_option autoImplicit false

namespace Striga.Greenev.ProgramRun

open Lib

/-- `telling` is set while the main thread is in `py_thread_die`. -/
structure State (Loop : Type) where
  application : ApplicationRun.State
  python : PyThreadRun.State Loop
  telling : Bool

inductive Label (Loop : Type) where
  | application (label : ApplicationRun.Label)
  | tell
  | told
  | python (label : PyThreadRun.Label Loop)

/-- The steps of the main thread. -/
def ofMain : ApplicationRun.Label → Bool
  | .run | .terminate _ | .sendDie | .wake | .iterate | .command | .leave | .join | .delete => true
  | .deliver _ | .io _ | .enqueue _ | .send _ => false

/-- `_application_die` goes on with `tell`, and no function calls `io_thread_connect`. -/
def excluded : ApplicationRun.Label → Bool
  | .sendDie | .io (.connect _) => true
  | _ => false

variable {Loop : Type}

/-- The module has come back from its event loop, with the interpreter lock. -/
def Over (own : Loop) (python : PyThreadRun.State Loop) : Prop :=
  python.gil = some (.loop own) ∧ (python.place own = .broke ∨ python.place own = .raised)

/-- The main thread puts the command to die in `py_thread_die` only, and the Python
thread never releases the lock once it is ending. -/
def Allowed (own : Loop) (state : State Loop) : PyThreadRun.Label Loop → Prop
  | .main _ => state.telling = true
  | .release thread => thread = .loop own → state.application.phase .pyThread = .running
  | _ => True

variable [DecidableEq Loop]

def State.fresh (layout : IoBufferLayout) (appCells : Nat → Cmd AppThread)
    (ioCells : Nat → Cmd (Option Addr)) (block : Nat) (memory : Nat → Nat)
    (pyCells : Nat → Cmd Unit) : State Loop where
  application := .fresh layout appCells ioCells block memory
  python := .fresh pyCells
  telling := false

inductive Step (layout : IoBufferLayout) (own : Loop) :
    State Loop → Label Loop → State Loop → Prop where
  | application {state label next} :
      ApplicationRun.Step layout state.application label next → excluded label = false →
      (ofMain label = true → state.telling = false) →
      (label = .enqueue .pyThread → Over own state.python) →
      Step layout own state (.application label) { state with application := next }
  | tell {state} :
      state.application.main = .dying →
      Step layout own state .tell
        { state with application := state.application.sendDie, telling := true }
  | told {state result cmdOut} :
      state.telling = true → state.python.queue.phase .die = .returned result cmdOut →
      Step layout own state .told { state with telling := false }
  | python {state label next} :
      PyThreadRun.Step state.python label next → Allowed own state label →
      Step layout own state (.python label) { state with python := next }

def system (layout : IoBufferLayout) (own : Loop) : System (State Loop) (Label Loop) where
  initial state := ∃ appCells ioCells block memory pyCells,
    state = .fresh layout appCells ioCells block memory pyCells
  step := Step layout own

/-- The IO thread reads no object that it has freed. -/
def Orderly (state : State Loop) : Label Loop → Prop
  | .application label => ApplicationRun.Orderly state.application label
  | _ => True

def orderly (layout : IoBufferLayout) (own : Loop) : System (State Loop) (Label Loop) :=
  (system layout own).restrict fun state label _ => Orderly state label

variable {layout : IoBufferLayout} {own : Loop} {state next : State Loop}

theorem Over.step {python after : PyThreadRun.State Loop} (completed : Over own python)
    {label : PyThreadRun.Label Loop} (taken : PyThreadRun.Step python label after)
    (kept : label ≠ .release (.loop own)) : Over own after := by
  obtain ⟨held, ended⟩ := completed
  cases taken with
  | acquire free | restore free => cases held.symm.trans free
  | release other =>
      cases held.symm.trans other
      exact absurd rfl kept
  | call other python =>
      cases held.symm.trans other
      rcases ended with broke | raised
      · cases broke.symm.trans python
      · cases raised.symm.trans python
  | main | traffic => exact ⟨held, ended⟩
  | @«return» loop _ _ _ waiting =>
      have differs : own ≠ loop := by
        intro same
        subst same
        rcases ended with broke | raised
        · cases broke.symm.trans waiting
        · cases raised.symm.trans waiting
      refine ⟨held, ?_⟩
      simpa [Function.update_of_ne differs] using ended

theorem application_moves {label : Label Loop} (taken : Step layout own state label next) :
    next.application = state.application ∨
      ∃ move, ApplicationRun.Step layout state.application move next.application ∧
        ∀ addr, move ≠ .io (.connect addr) := by
  cases taken with
  | application taken inside =>
      refine .inr ⟨_, taken, fun addr connects => ?_⟩
      subst connects
      cases inside
  | tell place => exact .inr ⟨.sendDie, .sendDie place, by simp⟩
  | told | python => exact .inl rfl

theorem python_moves {label : Label Loop} (taken : Step layout own state label next) :
    next.python = state.python ∨ ∃ move, PyThreadRun.Step state.python move next.python := by
  cases taken with
  | application | tell | told => exact .inl rfl
  | python taken => exact .inr ⟨_, taken⟩

theorem application_reachable (reachable : (system layout own).Reachable state) :
    (ApplicationRun.system layout).Reachable state.application := by
  refine reachable.project State.application ?_ fun _ _ _ taken =>
    (application_moves taken).imp_right fun move => move.imp fun _ moved => moved.1
  intro state starts
  obtain ⟨_, _, _, _, _, rfl⟩ := starts
  exact ⟨_, _, _, _, rfl⟩

theorem application_orderly (reachable : (orderly layout own).Reachable state) :
    (ApplicationRun.orderly layout).Reachable state.application := by
  refine reachable.project State.application ?_ fun state label next taken => ?_
  · intro state starts
    obtain ⟨_, _, _, _, _, rfl⟩ := starts
    exact ⟨_, _, _, _, rfl⟩
  · obtain ⟨taken, inOrder⟩ := taken
    cases taken with
    | application taken => exact .inr ⟨_, taken, inOrder⟩
    | tell place => exact .inr ⟨.sendDie, .sendDie place, trivial⟩
    | told | python => exact .inl rfl

theorem python_reachable (reachable : (system layout own).Reachable state) :
    (PyThreadRun.system Loop).Reachable state.python := by
  refine reachable.project State.python ?_ fun _ _ _ taken => python_moves taken
  intro state starts
  obtain ⟨_, _, _, _, _, rfl⟩ := starts
  exact ⟨_, rfl⟩

/-- `py_thread_die` is called once, behind the command to the IO thread, and has put
its command when it returns; the Python thread exits with its module over. -/
structure Valid (own : Loop) (state : State Loop) : Prop where
  untold : state.application.io.dieCalled = false ∨ state.application.main = .dying →
    state.telling = false ∧ state.python.queue.phase .die = .idle
  told : state.application.io.dieCalled = true → state.application.main ≠ .dying →
    state.telling = false → state.python.queue.outcome .die ≠ none
  completed : state.application.phase .pyThread ≠ .running → Over own state.python

/-- What a step of the application does to what the Python thread has to do with. -/
private theorem application_cases {application after : ApplicationRun.State}
    {label : ApplicationRun.Label} (valid : ApplicationRun.Valid layout application)
    (taken : ApplicationRun.Step layout application label after)
    (inside : excluded label = false) :
    (after.io.dieCalled = application.io.dieCalled ∧
        (after.main = .dying ↔ application.main = .dying) ∨
      ofMain label = true ∧ application.io.dieCalled = false ∧ after.main = .dying) ∧
    (after.phase .pyThread ≠ .running → application.phase .pyThread ≠ .running ∨
      label = .enqueue .pyThread) := by
  cases taken with
  | run place | wake place | leave place | join place | delete place =>
      exact ⟨.inl ⟨rfl, by simp [place]⟩, .inl⟩
  | deliver => exact ⟨.inl ⟨rfl, Iff.rfl⟩, .inl⟩
  | @terminate signal _ active =>
      have alive : application.io.dieCalled = false := by simpa [active] using valid.armed signal
      exact ⟨.inr ⟨rfl, alive, rfl⟩, .inl⟩
  | sendDie => cases inside
  | iterate place =>
      unfold ApplicationRun.State.iterate
      split <;> exact ⟨.inl ⟨rfl, by simp [place]⟩, .inl⟩
  | command place =>
      unfold ApplicationRun.State.command
      split <;> exact ⟨.inl ⟨rfl, by simp [place]⟩, .inl⟩
  | io taken notDie =>
      exact ⟨.inl ⟨IoThreadTraffic.dieCalled_step taken notDie, Iff.rfl⟩, .inl⟩
  | @enqueue thread =>
      refine ⟨.inl ⟨rfl, Iff.rfl⟩, fun exiting => ?_⟩
      cases thread with
      | ioThread => exact .inl (by simpa [ApplicationRun.State.enqueue] using exiting)
      | pyThread => exact .inr rfl
  | @send thread sending =>
      refine ⟨.inl ⟨rfl, Iff.rfl⟩, fun exiting => .inl ?_⟩
      cases thread with
      | ioThread => simpa [ApplicationRun.State.send] using exiting
      | pyThread => simp [sending]

/-- The event loops leave the call of `py_thread_die` alone, but for its wake-up. -/
private theorem python_die {python after : PyThreadRun.State Loop} {label : PyThreadRun.Label Loop}
    (taken : PyThreadRun.Step python label after) (other : ∀ traffic, label ≠ .main traffic) :
    (python.queue.phase .die = .idle → after.queue.phase .die = .idle) ∧
      after.queue.outcome .die = python.queue.outcome .die := by
  cases taken with
  | acquire | release | call | «return» | restore => exact ⟨id, rfl⟩
  | main => exact absurd rfl (other _)
  | @traffic loop label _ waiting round taken =>
      have differs : .die ≠ PyThreadRun.caller label := by
        rw [round]
        exact fun same => by cases same
      refine ⟨fun idle => ?_, CondCmdQTraffic.step_outcome_of_ne taken differs⟩
      rcases CondCmdQTraffic.step_phase_of_ne taken differs with same | ⟨asleep, _⟩
      · exact same.trans idle
      · cases idle.symm.trans asleep

theorem Valid.step (valid : Valid own state)
    (application : ApplicationRun.Valid layout state.application)
    (heeds : ApplicationRun.Heeds state.application) {label : Label Loop}
    (taken : Step layout own state label next) : Valid own next := by
  cases taken with
  | application taken inside free completed =>
      obtain ⟨⟨called, dying⟩ | ⟨main, alive, dying⟩, exiting⟩ :=
        application_cases application taken inside
      · refine ⟨fun early => ?_, fun died notDying free => ?_, fun exited => ?_⟩
        · simp only [called, dying] at early
          exact valid.untold early
        · simp only [called, ne_eq, dying] at died notDying
          exact valid.told died notDying free
        · exact (exiting exited).elim valid.completed completed
      · refine ⟨fun _ => valid.untold (.inl alive), fun _ notDying => absurd dying notDying, ?_⟩
        exact fun exited => (exiting exited).elim valid.completed completed
  | tell place =>
      have called : state.application.sendDie.io.dieCalled = true := by
        have died := heeds.called place
        unfold ApplicationRun.State.sendDie
        split <;> exact died
      refine ⟨fun early => ?_, fun _ _ free => Bool.noConfusion free, valid.completed⟩
      rcases early with alive | dying
      · cases called.symm.trans alive
      · cases dying
  | @told result cmdOut telling returned =>
      refine ⟨fun early => ?_, fun _ _ _ => ?_, valid.completed⟩
      · cases telling.symm.trans (valid.untold early).1
      · rw [CondCmdQTraffic.State.outcome, returned]
        exact Option.some_ne_none _
  | @python label python taken allowed =>
      have main {traffic : CondCmdQTraffic.Label (PyThreadRun.Call Loop)}
          (free : state.telling = false) : label ≠ .main traffic := by
        intro same
        subst same
        cases free.symm.trans allowed
      refine ⟨fun early => ?_, fun died notDying free => ?_, fun exited => ?_⟩
      · obtain ⟨free, idle⟩ := valid.untold early
        exact ⟨free, (python_die taken fun traffic => main free).1 idle⟩
      · rw [(python_die taken fun traffic => main free).2]
        exact valid.told died notDying free
      · refine (valid.completed exited).step taken fun released => ?_
        subst released
        exact exited (allowed rfl)

theorem valid (reachable : (system layout own).Reachable state) : Valid own state := by
  have kept : Valid own state ∧ (system layout own).Reachable state := by
    refine reachable.invariant (fun state => Valid own state ∧ (system layout own).Reachable state)
      ?_ ?_
    · intro state starts
      refine ⟨?_, .start starts⟩
      obtain ⟨_, _, _, _, _, rfl⟩ := starts
      exact ⟨fun _ => ⟨rfl, rfl⟩, fun died => Bool.noConfusion died, fun exited => absurd
        rfl exited⟩
    · intro state label next before taken
      have application := application_reachable before.2
      exact ⟨before.1.step (ApplicationRun.valid application) (ApplicationRun.heeds application)
        taken, before.2.step taken⟩
  exact kept.1

theorem signalled (reachable : (system layout own).Reachable state)
    (put : state.python.queue.phase .die ≠ .idle) : state.application.io.dieCalled = true := by
  by_contra alive
  exact put ((valid reachable).untold (.inl (Bool.not_eq_true _ ▸ alive))).2

/-- The Python thread exits because its loop has got the command. -/
theorem exited (reachable : (system layout own).Reachable state)
    (exits : state.application.phase .pyThread ≠ .running) :
    state.python.Has own ∧ state.python.place own = .broke ∧
      state.python.gil = some (.loop own) ∧ state.application.io.dieCalled = true := by
  have python := PyThreadRun.valid (python_reachable reachable)
  obtain ⟨held, ended⟩ := (valid reachable).completed exits
  have broke := ended.resolve_right (python.neverRaised own)
  have has := python.has_of_broke broke
  exact ⟨has, broke, held, signalled reachable (python.called_of_has has)⟩

/-- `py_thread_die` finds room at once, follows a signal, and leaves the command in
the queue or with a loop. The Python thread exits with the command in its own loop
and the lock in its hands, which the main thread hears while it is dying; and both
threads are at their end when `application_run` returns. -/
structure EndsInOrder (own : Loop) (state : State Loop) : Prop where
  atOnce : state.python.queue.phase .die ≠ .asleep
  afterSignal : state.python.queue.phase .die ≠ .idle → state.application.io.dieCalled = true
  delivered : state.application.io.dieCalled = true → state.application.main ≠ .dying →
    state.telling = false →
    state.python.queue.queue.pending = [PyThreadRun.dieCmd] ∨ ∃ loop, state.python.Has loop
  exits : state.application.phase .pyThread ≠ .running →
    state.python.Has own ∧ state.python.place own = .broke ∧ state.python.gil = some (.loop own)
  inTime : state.application.main = .draining (some (exitCmd .pyThread)) →
    state.application.app.runPhase = .dying
  returns : state.application.main.hasReturned = true →
    state.python.Has own ∧ state.application.io.control = .stopped

theorem endsInOrder (layout : IoBufferLayout) (own : Loop) (state : State Loop)
    (reachable : (system layout own).Reachable state) : EndsInOrder own state := by
  have python := PyThreadRun.valid (python_reachable reachable)
  have application := ApplicationRun.valid (application_reachable reachable)
  constructor
  · exact PyThreadRun.awake (python_reachable reachable)
  · exact signalled reachable
  · intro called notDying free
    exact python.conserved.mp (python.outcome_die ((valid reachable).told called notDying free))
  · intro exits
    obtain ⟨has, broke, held, _⟩ := exited reachable exits
    exact ⟨has, broke, held⟩
  · intro draining
    have exits : state.application.phase .pyThread ≠ .running := by
      intro running
      have counts := application.counts .pyThread
      simp [running, ApplicationRun.State.inFlight, draining, ApplicationRun.Main.hand] at counts
    obtain ⟨_, _, _, called⟩ := exited reachable exits
    rw [application.runPhase, draining, called]
    rfl
  · intro returned
    have exits := (application.exitedOfReturned returned).2 .pyThread
    exact ⟨(exited reachable exits).1, (application.goneOfReturned returned).stopped⟩

/-- A signal has come, and `py_thread_die` has returned. -/
theorem told_reachable (layout : IoBufferLayout) (own : Loop) :
    ∃ state, (orderly layout own).Reachable state ∧ state.application.main = .waiting ∧
      state.application.io = (IoThreadTraffic.State.die
        (.fresh layout (fun _ => ⟨0, none⟩) 0 fun _ => 0)).sendDie ∧
      state.telling = false ∧ state.python.queue.queue.pending = [PyThreadRun.dieCmd] := by
  have fresh : (orderly layout own).Reachable
      (.fresh layout (fun _ => ⟨0, .ioThread⟩) (fun _ => ⟨0, none⟩) 0 (fun _ => 0) fun _ =>
        ⟨0, ()⟩) :=
    .start ⟨_, _, _, _, _, rfl⟩
  have running := fresh.step ⟨Step.application (.run rfl) rfl (fun _ => rfl) (by simp), trivial⟩
  have delivered := running.step ⟨Step.application (@ApplicationRun.Step.deliver layout _ .sigint)
    rfl (fun _ => rfl) (by simp), trivial⟩
  have dying := delivered.step ⟨Step.application
    (@ApplicationRun.Step.terminate layout _ .sigint rfl rfl rfl) rfl (fun _ => rfl) (by simp),
    trivial⟩
  have telling := dying.step ⟨Step.tell rfl, trivial⟩
  have entering := telling.step ⟨Step.python (.main (@CondCmdQTraffic.Step.call _ _ _
    PyThreadRun.op _ .die rfl) rfl) rfl, trivial⟩
  obtain ⟨signalled, queue, inserts, pending, returned⟩ :=
    (PyThreadRun.valid (python_reachable entering.of_restrict)).puts (.inl rfl)
  have put := entering.step ⟨Step.python (.main inserts rfl) rfl, trivial⟩
  exact ⟨_, put.step ⟨Step.told rfl returned, trivial⟩, rfl, rfl, rfl, pending⟩

theorem endsInOrder_told : ∃ state : State Unit, state.application.main = .waiting ∧
    state.application.io.dieCalled = true ∧ EndsInOrder () state := by
  obtain ⟨state, reachable, waiting, io, _⟩ := told_reachable .lp64 ()
  exact ⟨state, waiting, by rw [io]; rfl, endsInOrder _ _ _ reachable.of_restrict⟩

end Striga.Greenev.ProgramRun
