import Striga.Greenev.IoThreadDying
import Striga.Greenev.ProgramRun

/-! When greenev can still be made to exit in order, from whatever it has come to. The
IO thread has to be mortal and must have got no socket to listen on, and as one command
is put for all the event loops, while the Python thread ends for the one of its module
only, no other loop may have taken it. -/

set_option autoImplicit false

namespace Striga.Greenev.ProgramRun

open Lib

variable {Loop : Type} [DecidableEq Loop] {layout : IoBufferLayout} {own : Loop}
  {state next : State Loop}

/-- Some continuation that reads no freed object ends with the application deleted. -/
def CanExit (layout : IoBufferLayout) (own : Loop) (state : State Loop) : Prop :=
  (orderly layout own).Can (fun last => last.application.main = .deleted) state

/-- What the application can do while the main thread is not in `py_thread_die`. -/
private theorem application_can {wanted : ApplicationRun.State → Prop}
    (free : state.telling = false)
    (can : (ApplicationRun.withoutPython layout).Can wanted state.application) :
    (orderly layout own).Can (fun last => ∃ application,
      last = { state with application := application } ∧ wanted application) state := by
  refine can.embed (fun application => { state with application := application }) ?_
  intro application label next taken
  obtain ⟨⟨taken, inOrder⟩, inside⟩ := taken
  refine ⟨.application label, ⟨.application taken ?_ (fun _ => free) fun exit => ?_, inOrder⟩⟩
  · cases label with
    | sendDie => cases inside
    | io label =>
        cases label with
        | connect => exact inOrder.elim
        | _ => rfl
    | _ => rfl
  · subst exit
    cases inside

/-- What the event loops can do before the Python thread ends. -/
private theorem python_can {wanted : PyThreadRun.State Loop → Prop}
    (running : state.application.phase .pyThread = .running)
    (can : (PyThreadRun.withoutMain Loop).Can wanted state.python) :
    (orderly layout own).Can (fun last => ∃ python,
      last = { state with python := python } ∧ wanted python) state := by
  refine can.embed (fun python => { state with python := python }) ?_
  intro python label next taken
  obtain ⟨taken, other⟩ := taken
  refine ⟨.python label, .python taken ?_, trivial⟩
  cases label with
  | main traffic => exact absurd rfl (other traffic)
  | release => exact fun _ => running
  | acquire | call | traffic | «return» | restore => trivial

/-- The command to die is in the queue or with the loop of the module. -/
def Destined (own : Loop) (python : PyThreadRun.State Loop) : Prop :=
  python.queue.queue.pending = [PyThreadRun.dieCmd] ∨ python.Has own

private theorem destined_of_outcome {python : PyThreadRun.State Loop}
    (valid : PyThreadRun.Valid python)
    (alone : ∀ other, python.Has other → other = own) (done : python.queue.outcome .die ≠ none) :
    Destined own python := by
  rcases valid.conserved.mp (valid.outcome_die done) with pending | ⟨holder, has⟩
  · exact .inl pending
  · exact .inr (alone holder has ▸ has)

/-- `py_thread_die` gets its command put and returns. -/
private theorem tells (reachable : (orderly layout own).Reachable state)
    (telling : state.telling = true) (alone : ∀ other, state.python.Has other → other = own) :
    (orderly layout own).Can (fun last => last.application = state.application ∧
      last.telling = false ∧ Destined own last.python) state := by
  have puts {state : State Loop} (telling : state.telling = true)
      (python : PyThreadRun.Valid state.python) (holds : state.python.queue.Holds .die) :
      (orderly layout own).Can (fun last => last.application = state.application ∧
        last.telling = false ∧ Destined own last.python) state := by
    obtain ⟨signalled, queue, inserts, pending, returned⟩ := python.puts holds
    refine .step ⟨Step.python (.main inserts rfl) telling, trivial⟩ ?_
    exact .once ⟨Step.told telling returned, trivial⟩ ⟨rfl, rfl, .inl pending⟩
  have python := PyThreadRun.valid (python_reachable reachable.of_restrict)
  cases phase : state.python.queue.phase .die with
  | idle =>
      have called := PyThreadRun.Step.main (CondCmdQTraffic.Step.call phase) rfl
      rw [(CondCmdQTraffic.wellFormed (by decide) python.queue).asserts_eq, if_pos rfl] at called
      refine .step ⟨Step.python called telling, trivial⟩
        (puts telling (python.step called) (.inl ?_))
      simp [CondCmdQTraffic.State.enter]
  | entering => exact puts telling python (.inl phase)
  | woken => exact puts telling python (.inr phase)
  | asleep => exact absurd phase (PyThreadRun.awake (python_reachable reachable.of_restrict))
  | aborted => exact absurd phase (CondCmdQTraffic.notAborted (by decide) python.queue _)
  | expired => cases (CondCmdQTraffic.shaped python.queue).expired _ phase
  | returned result cmdOut =>
      refine .once ⟨Step.told telling phase, trivial⟩
        ⟨rfl, rfl, destined_of_outcome python alone ?_⟩
      simp [CondCmdQTraffic.State.outcome, phase, CondCmdQTraffic.Phase.outcome]

/-- A loop that has ended gets the lock for good. -/
private theorem over_of_broke (running : state.application.phase .pyThread = .running)
    (broke : state.python.place own = .broke) :
    (orderly layout own).Can (fun last => last.application = state.application ∧
      last.telling = state.telling ∧ Over own last.python) state := by
  have locks {state : State Loop} (broke : state.python.place own = .broke)
      (free : state.python.gil = none) :
      (orderly layout own).Can (fun last => last.application = state.application ∧
        last.telling = state.telling ∧ Over own last.python) state := by
    have taken := @PyThreadRun.Step.acquire _ _ state.python (.loop own) free
      (by simp [PyThreadRun.State.interprets, broke, PyThreadRun.Place.interprets])
    exact .once ⟨Step.python taken trivial, trivial⟩ ⟨rfl, rfl, rfl, .inl broke⟩
  cases held : state.python.gil with
  | none => exact locks broke held
  | some thread =>
      exact .step ⟨Step.python (.release held) fun _ => running, trivial⟩ (locks broke rfl)

/-- The Python thread gets its exit command put, whatever it has come to. -/
private theorem reports (reachable : (orderly layout own).Reachable state)
    (free : state.telling = false) (destined : Destined own state.python) :
    (orderly layout own).Can (fun last => last.application.main = state.application.main ∧
      last.application.io = state.application.io ∧ last.telling = false ∧
      last.application.phase .pyThread = .finished) state := by
  have sends {state : State Loop} (free : state.telling = false)
      (sending : state.application.phase .pyThread = .sending) :
      (orderly layout own).Can (fun last => last.application.main = state.application.main ∧
        last.application.io = state.application.io ∧ last.telling = false ∧
        last.application.phase .pyThread = .finished) state :=
    .once ⟨Step.application (.send sending) rfl (fun _ => free) (by simp), trivial⟩
      ⟨rfl, rfl, free, by simp [ApplicationRun.State.send]⟩
  cases phase : state.application.phase .pyThread with
  | finished => exact .now ⟨rfl, rfl, free, phase⟩
  | sending => exact sends free phase
  | running =>
      have python := PyThreadRun.valid (python_reachable reachable.of_restrict)
      have breaks : PyThreadRun.CanBreak own state.python := by
        rcases destined with pending | has
        · exact PyThreadRun.canBreak_of_pending python own pending
        · exact PyThreadRun.canBreak_of_has python has
      refine ((python_can phase breaks).reachable reachable).bind fun broken broke => ?_
      obtain ⟨reachable, python, rfl, broke⟩ := broke
      have locks := @over_of_broke _ _ layout own { state with python := python } phase broke
      refine (locks.reachable reachable).bind fun last completed => ?_
      obtain ⟨reachable, same, unchanged, completed⟩ := completed
      have same : last.application = state.application := same
      have running : last.application.phase .pyThread = .running := by rw [same]; exact phase
      have apart : AppThread.pyThread = .ioThread → last.application.io.control = .stopped :=
        fun same => by cases same
      have valid := ApplicationRun.valid (application_orderly reachable).of_restrict
      have free : last.telling = false := unchanged.trans free
      have sent := @sends { last with application := last.application.enqueue .pyThread } free
        (valid.enqueue running apart).2
      refine .step ⟨Step.application (.enqueue running apart) rfl (fun _ => free)
        fun _ => completed, trivial⟩ (sent.imp fun last reported => ?_)
      obtain ⟨main, io, free, finished⟩ := reported
      exact ⟨main.trans (by simp [ApplicationRun.State.enqueue, same]),
        io.trans (by simp [ApplicationRun.State.enqueue, same]), free, finished⟩

/-- The IO thread has stopped, and the command is where the module can get it. -/
private theorem canExit_of_stopped (reachable : (orderly layout own).Reachable state)
    (free : state.telling = false) (dead : state.application.main ≠ .dying)
    (stopped : state.application.io.control = .stopped) (destined : Destined own state.python) :
    CanExit layout own state := by
  refine ((reports reachable free destined).reachable reachable).bind fun between reported => ?_
  obtain ⟨reachable, main, io, free, pyFinished⟩ := reported
  rw [← io] at stopped
  rw [← main] at dead
  have called := IoThreadTraffic.called_of_stopped
    (ApplicationRun.valid (application_orderly reachable).of_restrict).io stopped
  have ioReports := (ApplicationRun.reports (application_orderly reachable) .ioThread
    fun _ => stopped).weaken fun _ label _ one => show label.apart = false by
      rcases one with rfl | rfl <;> rfl
  refine ((application_can free ioReports).reachable reachable).bind fun last reported => ?_
  obtain ⟨reachable, application, rfl, main, io, ioFinished, others⟩ := reported
  rw [← io] at called
  rw [← main] at dead
  have exits := ApplicationRun.exits_of_finished (application_orderly reachable) called dead
    fun thread => by
      cases thread with
      | ioThread => exact ioFinished
      | pyThread => exact (others _ (by simp)).trans pyFinished
  have leaves := @application_can _ _ _ own { between with application := application } _ free exits
  refine leaves.imp fun last exits => ?_
  obtain ⟨application, rfl, deleted⟩ := exits
  exact deleted

/-- A signal that arrives while the IO thread would take the command to die. -/
private theorem canExit_of_receptive (reachable : (orderly layout own).Reachable state)
    (free : state.telling = false) (waiting : state.application.main = .waiting)
    (receptive : IoThreadTraffic.Receptive state.application.io) : CanExit layout own state := by
  have dies := ApplicationRun.dies_of_receptive (application_orderly reachable) waiting receptive
  refine ((application_can free dies).reachable reachable).bind fun between dying => ?_
  obtain ⟨reachable, application, rfl, dying, _, _, ends⟩ := dying
  have tell : (orderly layout own).step { state with application := application } _ _ :=
    ⟨.tell dying, trivial⟩
  have idle := ((valid reachable.of_restrict).untold (.inr dying)).2
  have alone : ∀ other, state.python.Has other → other = own := fun other has =>
    absurd idle ((PyThreadRun.valid (python_reachable reachable.of_restrict)).called_of_has has)
  have told := tells (reachable.step tell) rfl alone
  refine .step tell ((told.reachable (reachable.step tell)).bind fun last told => ?_)
  obtain ⟨reachable, sent, free, destined⟩ := told
  have sent : last.application = application.sendDie := sent
  rw [← sent] at ends
  refine ((application_can free (ApplicationRun.io_can ends)).reachable reachable).bind
    fun ended stopped => ?_
  obtain ⟨reachable, _, rfl, _, rfl, stopped⟩ := stopped
  exact canExit_of_stopped reachable free (by simp [sent, ApplicationRun.State.sendDie]) stopped
    destined

/-- Before a signal has come. -/
private theorem canExit_of_alive (reachable : (orderly layout own).Reachable state)
    (alive : state.application.io.dieCalled = false) (unheard : ¬ state.application.io.Heard) :
    CanExit layout own state := by
  have free := ((valid reachable.of_restrict).untold (.inl alive)).1
  have ready := ApplicationRun.receptive (application_orderly reachable) alive unheard
  refine ((application_can free ready).reachable reachable).bind fun ready reached => ?_
  obtain ⟨reachable, application, rfl, waiting, receptive⟩ := reached
  exact canExit_of_receptive reachable free waiting receptive

/-- The main thread gets out of `_application_die`, with the IO thread in its loop. -/
private theorem leaves_die (reachable : (orderly layout own).Reachable state)
    (called : state.application.io.dieCalled = true)
    (begun : state.application.io.control ≠ .created)
    (mortal : IoThreadTraffic.Mortal state.application.io)
    (alone : ∀ other, state.python.Has other → other = own) :
    (orderly layout own).Can (fun last => last.telling = false ∧ last.application.main ≠ .dying ∧
      last.application.io.control ≠ .created ∧ IoThreadTraffic.Mortal last.application.io ∧
      Destined own last.python) state := by
  have valid := valid reachable.of_restrict
  have python := PyThreadRun.valid (python_reachable reachable.of_restrict)
  cases telling : state.telling with
  | true =>
      refine (tells reachable telling alone).imp fun last told => ?_
      obtain ⟨same, free, destined⟩ := told
      rw [same]
      refine ⟨free, fun dying => ?_, begun, mortal, destined⟩
      cases telling.symm.trans (valid.untold (.inr dying)).1
  | false =>
      by_cases dying : state.application.main = .dying
      · have tell : (orderly layout own).step state _ _ := ⟨.tell dying, trivial⟩
        refine .step tell ((tells (reachable.step tell) rfl alone).imp fun last told => ?_)
        obtain ⟨same, free, destined⟩ := told
        obtain ⟨lists, inner⟩ := IoThreadTraffic.valid
          (ApplicationRun.valid (application_orderly reachable).of_restrict).io
        have same : last.application = state.application.sendDie := same
        rw [same]
        refine ⟨free, by simp [ApplicationRun.State.sendDie], ?_, ?_, destined⟩
        · unfold ApplicationRun.State.sendDie
          split <;> exact begun
        · unfold ApplicationRun.State.sendDie
          split
          · exact mortal.sendDie inner begun
          · exact mortal
      · exact .now ⟨telling, dying, begun, mortal,
          destined_of_outcome python alone (valid.told called dying telling)⟩

/-- After a signal has come. -/
private theorem canExit_of_mortal (reachable : (orderly layout own).Reachable state)
    (mortal : IoThreadTraffic.Mortal state.application.io)
    (alone : ∀ other, state.python.Has other → other = own) : CanExit layout own state := by
  have onwards {state : State Loop} (reachable : (orderly layout own).Reachable state)
      (begun : state.application.io.control ≠ .created)
      (mortal : IoThreadTraffic.Mortal state.application.io)
      (alone : ∀ other, state.python.Has other → other = own) : CanExit layout own state := by
    refine ((leaves_die reachable mortal.called begun mortal alone).reachable reachable).bind
      fun between left => ?_
    obtain ⟨reachable, free, dead, begun, mortal, destined⟩ := left
    have application := application_orderly reachable
    have stops := mortal.stops (ApplicationRun.io_orderly application) begun
      (ApplicationRun.unsent application.of_restrict dead)
    refine ((application_can free (ApplicationRun.io_can stops)).reachable reachable).bind
      fun last stopped => ?_
    obtain ⟨reachable, _, rfl, _, rfl, stopped⟩ := stopped
    exact canExit_of_stopped reachable free dead stopped destined
  by_cases created : state.application.io.control = .created
  · obtain ⟨lists, inner⟩ := IoThreadTraffic.valid
      (ApplicationRun.valid (application_orderly reachable).of_restrict).io
    have start : (orderly layout own).step state _ _ := ⟨Step.application
      (.io (.start created) (by simp) (by simp)) rfl (fun main => Bool.noConfusion main)
      (by simp), trivial⟩
    exact .step start (onwards (reachable.step start) (by simp) (mortal.start inner created) alone)
  · exact onwards reachable created mortal alone

/-- The module's loop waits for a command that another one has got, and the main
thread, which no signal reaches, for the exit of the Python thread. -/
structure Deserted (own : Loop) (state : State Loop) : Prop where
  unbroken : state.python.place own ≠ .broke
  running : state.application.phase .pyThread = .running
  staying : state.application.main.hasReturned = false
  unarmed : ∀ signal, (state.application.app.watcher signal).active = false

private theorem deserted_of_has {other : Loop} (reachable : (system layout own).Reachable state)
    (differs : other ≠ own) (has : state.python.Has other) : Deserted own state := by
  have python := PyThreadRun.valid (python_reachable reachable)
  have application := ApplicationRun.valid (application_reachable reachable)
  have unbroken : state.python.place own ≠ .broke :=
    fun broke => differs (python.has_unique has (python.has_of_broke broke))
  have running : state.application.phase .pyThread = .running := by
    by_contra exits
    exact unbroken (exited reachable exits).2.1
  refine ⟨unbroken, running, ?_, fun signal => ?_⟩
  · by_contra returned
    exact (application.exitedOfReturned (Bool.not_eq_false _ ▸ returned)).2 .pyThread running
  · rw [application.armed, signalled reachable (python.called_of_has has)]
    rfl

/-- A loop that has got the command keeps it. -/
private theorem has_leads {other : Loop} {last : State Loop}
    (reachable : (system layout own).Reachable state) (has : state.python.Has other)
    (leads : (system layout own).Leads state last) :
    (system layout own).Reachable last ∧ last.python.Has other := by
  refine leads.invariant
    (fun state => (system layout own).Reachable state ∧ state.python.Has other)
    ⟨reachable, has⟩ fun state label next before taken => ⟨before.1.step taken, ?_⟩
  rcases python_moves taken with same | ⟨move, moved⟩
  · rw [same]
    exact before.2
  · exact (PyThreadRun.valid (python_reachable before.1)).has_step before.2 moved

private theorem forgotten_step {application after : ApplicationRun.State}
    (forgotten : IoThreadTraffic.Forgotten application.io)
    (valid : ApplicationRun.Valid layout application) {label : ApplicationRun.Label}
    (taken : ApplicationRun.Step layout application label after)
    (unconnected : ∀ addr, label ≠ .io (.connect addr)) :
    IoThreadTraffic.Forgotten after.io ∨ IoThreadTraffic.Undying after.io := by
  obtain ⟨lists, inner⟩ := IoThreadTraffic.valid valid.io
  rcases ApplicationRun.io_moves valid taken with same | ⟨move, moved, cause⟩
  · rw [same]
    exact .inl forgotten
  · refine forgotten.step inner moved fun addr connects => ?_
    subst connects
    rcases cause with same | same | same
    · exact unconnected addr same
    · cases same
    · cases same

/-- An IO thread that cannot stop any more never will. -/
private theorem not_deletes_of_immortal (reachable : (system layout own).Reachable state)
    (immortal : IoThreadTraffic.Undying state.application.io ∨
      IoThreadTraffic.Forgotten state.application.io) :
    ¬ (system layout own).Can (fun last => last.application.main = .deleted) state := by
  intro exits
  obtain ⟨last, leads, deleted⟩ := exits
  have kept := leads.invariant (fun state => (system layout own).Reachable state ∧
      (IoThreadTraffic.Undying state.application.io ∨
        IoThreadTraffic.Forgotten state.application.io))
    ⟨reachable, immortal⟩ fun state label next before taken => by
      refine ⟨before.1.step taken, ?_⟩
      have valid := ApplicationRun.valid (application_reachable before.1)
      rcases application_moves taken with same | ⟨move, moved, unconnected⟩
      · rw [same]
        exact before.2
      · rcases before.2 with undying | forgotten
        · exact .inl (ApplicationRun.undying_step undying valid moved)
        · exact (forgotten_step forgotten valid moved unconnected).symm
  obtain ⟨reachable, immortal⟩ := kept
  have valid := ApplicationRun.valid (application_reachable reachable)
  obtain ⟨lists, inner⟩ := IoThreadTraffic.valid valid.io
  refine valid.undeleted ?_ deleted
  rcases immortal with undying | forgotten
  · exact (undying.running inner).2
  · exact forgotten.toUnwoken.unstopped

private theorem not_deletes_of_has {other : Loop} (reachable : (system layout own).Reachable state)
    (differs : other ≠ own) (has : state.python.Has other) :
    ¬ (system layout own).Can (fun last => last.application.main = .deleted) state := by
  intro exits
  obtain ⟨last, leads, deleted⟩ := exits
  obtain ⟨reachable, has⟩ := has_leads reachable has leads
  have staying := (deserted_of_has reachable differs has).staying
  rw [deleted] at staying
  cases staying

/-- What listens is closed by the command to die alone, which is not to find it. -/
private theorem not_canExit_of_heard (reachable : (orderly layout own).Reachable state)
    (undead : state.application.io.dieProcessed = false) (heard : state.application.io.Heard) :
    ¬ CanExit layout own state := by
  intro exits
  obtain ⟨last, leads, deleted⟩ := exits
  have kept := leads.invariant (fun state => (orderly layout own).Reachable state ∧
      IoThreadTraffic.Detained state.application.io)
    ⟨reachable, .inl ⟨undead, heard⟩⟩ fun state label next before taken => by
      refine ⟨before.1.step taken, ?_⟩
      have valid := ApplicationRun.valid (application_orderly before.1).of_restrict
      obtain ⟨taken, inOrder⟩ := taken
      cases taken with
      | application taken => exact ApplicationRun.detained_step before.2 valid ⟨taken, inOrder⟩
      | tell place =>
          exact ApplicationRun.detained_step before.2 valid ⟨.sendDie place, trivial⟩
      | told | python => exact before.2
  have valid := ApplicationRun.valid (application_orderly kept.1).of_restrict
  obtain ⟨lists, inner⟩ := IoThreadTraffic.valid valid.io
  exact valid.undeleted (kept.2.running inner).2 deleted

/-- Once an event loop other than the module's has got the command to die, greenev
hangs. -/
theorem hangs_of_taken (layout : IoBufferLayout) (own other : Loop) (state last : State Loop)
    (reachable : (system layout own).Reachable state) (differs : other ≠ own)
    (has : state.python.Has other) (leads : (system layout own).Leads state last) :
    Deserted own last := by
  obtain ⟨reachable, has⟩ := has_leads reachable has leads
  exact deserted_of_has reachable differs has

/-- Two event loops, of which the one that is not the module's gets the command. -/
theorem hangs_of_taken_other : ∃ state : State Bool, (system .lp64 true).Reachable state ∧
    ∀ last, (system .lp64 true).Leads state last → Deserted true last := by
  obtain ⟨told, reachable, _, _, _, pending⟩ := told_reachable .lp64 true
  have python := PyThreadRun.valid (python_reachable reachable.of_restrict)
  have running : told.application.phase .pyThread = .running := by
    by_contra exits
    have taken := (python.removed_of_has (exited reachable.of_restrict exits).1).2
    cases pending.symm.trans taken
  have breaks := PyThreadRun.canBreak_of_pending python false pending
  obtain ⟨last, leads, _, rfl, broke⟩ := @python_can _ _ .lp64 true _ _ running breaks
  have reached := reachable.of_restrict.leads leads.of_restrict
  have has := (PyThreadRun.valid (python_reachable reached)).has_of_broke broke
  exact ⟨_, reached, fun last leads => hangs_of_taken _ _ _ _ _ reached Bool.false_ne_true
    has leads⟩

end Striga.Greenev.ProgramRun
