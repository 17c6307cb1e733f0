import Striga.Greenev.Application
import Striga.Greenev.IoThreadTraffic

/-! Runs of the whole of greenev from the end of `application_ctor`: the main
thread with its loop, the IO thread, and the Python thread, which hands sockets
to the IO thread and may exit at any moment. -/

set_option autoImplicit false

namespace Striga.Greenev.ApplicationRun

open Lib

/-- Where the main thread is: before `application_run`, in its loop (waiting,
draining the application's queue, or in `_application_die` behind the critical
section of its first put), after it, past the join of the Python thread, past
the deletion of the queue, or in `abort`. -/
inductive Main where
  | constructed
  | waiting
  | draining (hand : Option (Cmd AppThread))
  | dying
  | returned
  | joined
  | deleted
  | aborted

def Main.hand : Main → List (Cmd AppThread)
  | .draining hand => hand.toList
  | _ => []

/-- How far a thread has got with the put of its exit command. -/
inductive ExitPhase where
  | running
  | sending
  | finished
  deriving DecidableEq, Repr

/-- The application, its threads, whether its queue has been freed and used
after that, the number of calls of `_application_die`, and which exit commands
have been handled. -/
structure State where
  app : Application
  main : Main
  io : IoThreadTraffic.State
  phase : AppThread → ExitPhase
  freed : Bool
  usedFreed : Bool
  deaths : Nat
  processed : AppThread → Bool

def State.fresh (layout : IoBufferLayout) (appCells : Nat → Cmd AppThread)
    (ioCells : Nat → Cmd (Option Addr)) (block : Nat) (memory : Nat → Nat) : State where
  app := .ctor appCells
  main := .constructed
  io := .fresh layout ioCells block memory
  phase _ := .running
  freed := false
  usedFreed := false
  deaths := 0
  processed _ := false

inductive Label where
  | run
  | deliver (signal : TerminatingSignal)
  | terminate (signal : TerminatingSignal)
  | sendDie
  | wake
  | iterate
  | command
  | leave
  | join
  | delete
  | io (label : IoThreadTraffic.Label)
  | enqueue (thread : AppThread)
  | send (thread : AppThread)

/-- The callback of a signal, up to the end of the critical section of the put
in `io_thread_die`. -/
def State.terminate (state : State) (signal : TerminatingSignal) : State :=
  { state with
    app := (state.app.clear signal).die
    main := .dying
    io := state.io.die
    deaths := state.deaths + 1 }

/-- The rest of `_application_die`. -/
def State.sendDie (state : State) : State :=
  { state with
    main := .waiting
    io := if state.io.dieSending then state.io.sendDie else state.io }

def State.iterate (state : State) : State :=
  match state.app.appCmdQ.take with
  | (none, appCmdQ) =>
      { state with app := { state.app with appCmdQ := appCmdQ }, main := .waiting }
  | (some cmd, appCmdQ) =>
      { state with app := { state.app with appCmdQ := appCmdQ }, main := .draining (some cmd) }

def State.command (state : State) (cmd : Cmd AppThread) : State :=
  match state.app.onApplicationCmd cmd with
  | none => { state with main := .aborted }
  | some app =>
      { state with
        app := app
        main := .draining none
        processed := fun thread => state.processed thread || cmd == exitCmd thread }

/-- The critical section of a thread's `application_command`. -/
def State.enqueue (state : State) (thread : AppThread) : State :=
  let (accepted, appCmdQ) := state.app.appCmdQ.enqueue (exitCmd thread)
  { state with
    app := { state.app with appCmdQ := appCmdQ }
    phase := Function.update state.phase thread (if accepted then .sending else .finished)
    usedFreed := state.usedFreed || state.freed }

def State.send (state : State) (thread : AppThread) : State :=
  { state with
    app := { state.app with appCmdQ := state.app.appCmdQ.send }
    phase := Function.update state.phase thread .finished
    usedFreed := state.usedFreed || state.freed }

/-- The IO thread exits once it has left its loop and stopped its queue, the
Python thread whenever it likes. Callbacks of the main thread begin while
`ev_run` waits. The command to die is put by the main thread only. -/
inductive Step (layout : IoBufferLayout) : State → Label → State → Prop where
  | run {state} :
      state.main = .constructed →
      Step layout state .run
        { state with app := { state.app with runPhase := .run }, main := .waiting }
  | deliver {state signal} :
      Step layout state (.deliver signal) { state with app := state.app.deliver signal }
  | terminate {state signal} :
      state.main = .waiting →
      (state.app.watcher signal).active = true →
      (state.app.watcher signal).pending = true →
      Step layout state (.terminate signal) (state.terminate signal)
  | sendDie {state} :
      state.main = .dying →
      Step layout state .sendDie state.sendDie
  | wake {state} :
      state.main = .waiting →
      state.app.mainLoop.activecnt ≠ 0 →
      state.app.appCmdQ.qWatcher.active = true →
      state.app.appCmdQ.qWatcher.sent = true →
      Step layout state .wake
        { state with
          app := { state.app with appCmdQ :=
            { state.app.appCmdQ with qWatcher := state.app.appCmdQ.qWatcher.clear } }
          main := .draining none }
  | iterate {state} :
      state.main = .draining none →
      Step layout state .iterate state.iterate
  | command {state cmd} :
      state.main = .draining (some cmd) →
      Step layout state .command (state.command cmd)
  | leave {state} :
      state.main = .waiting →
      state.app.mainLoop.activecnt = 0 →
      Step layout state .leave { state with main := .returned }
  | join {state} :
      state.main = .returned →
      state.phase .pyThread = .finished →
      Step layout state .join
        { state with app := { state.app with runPhase := .exit }, main := .joined }
  | delete {state} :
      state.main = .joined →
      Step layout state .delete
        { state with app := state.app.dtor, main := .deleted, freed := true }
  | io {state label io} :
      IoThreadTraffic.Step layout state.io label io →
      label ≠ .die →
      label ≠ .sendDie →
      Step layout state (.io label) { state with io := io }
  | enqueue {state thread} :
      state.phase thread = .running →
      (thread = .ioThread → state.io.control = .stopped) →
      Step layout state (.enqueue thread) (state.enqueue thread)
  | send {state thread} :
      state.phase thread = .sending →
      Step layout state (.send thread) (state.send thread)

def system (layout : IoBufferLayout) : System State Label where
  initial state := ∃ appCells ioCells block memory,
    state = .fresh layout appCells ioCells block memory
  step := Step layout

def State.inFlight (state : State) : List (Cmd AppThread) :=
  state.main.hand ++ state.app.appCmdQ.pending

def Main.inLoop : Main → Bool
  | .waiting | .draining _ | .dying => true
  | _ => false

/-- The run phase while the main thread is at a given place of its life. -/
def Main.runPhase (main : Main) (dieCalled : Bool) : RunPhase :=
  match main with
  | .constructed => .init
  | .joined | .deleted => .exit
  | _ => if dieCalled then .dying else .run

theorem Main.runPhase_inLoop {main : Main} {dieCalled : Bool} (inside : main.inLoop = true) :
    main.runPhase dieCalled = if dieCalled then .dying else .run := by
  cases main with
  | waiting | draining | dying => rfl
  | constructed | returned | joined | deleted | aborted => cases inside

/-- What the main loop counts: the two signal watchers and the two threads. -/
def State.references (state : State) : Int :=
  state.app.sigint.active.toNat + state.app.sigterm.active.toNat +
    (!state.processed .ioThread).toNat + (!state.processed .pyThread).toNat

structure Valid (layout : IoBufferLayout) (state : State) : Prop where
  io : (IoThreadTraffic.system layout).Reachable state.io
  deaths : state.deaths = state.io.dieCalled.toNat
  armed : ∀ signal, (state.app.watcher signal).active = !state.io.dieCalled
  runPhase : state.app.runPhase = state.main.runPhase state.io.dieCalled
  constructed : state.main = .constructed → state.io.dieCalled = false
  queue : state.app.appCmdQ.WellFormed
  qSize : state.app.appCmdQ.qSize = 256
  exits : ∀ cmd ∈ state.inFlight, ∃ thread, cmd = exitCmd thread
  counts : ∀ thread, state.inFlight.count (exitCmd thread) + (state.processed thread).toNat =
    if state.phase thread = .running then 0 else 1
  stopped : state.phase .ioThread ≠ .running → state.io.control = .stopped
  activecnt : state.main ≠ .deleted → state.app.mainLoop.activecnt = state.references
  notAborted : state.main ≠ .aborted
  ended : state.main = .returned ∨ state.main = .joined ∨ state.main = .deleted →
    state.io.dieCalled = true ∧ ∀ thread, state.processed thread = true
  joined : state.main = .joined ∨ state.main = .deleted → state.phase .pyThread = .finished
  freed : state.freed = true → state.main = .deleted

variable {layout : IoBufferLayout} {state next : State}

@[simp] theorem exitCmd_beq (left right : AppThread) :
    (exitCmd left == exitCmd right) = decide (left = right) := by
  cases left <;> cases right <;> rfl

private theorem exitCmd_injective : Function.Injective exitCmd := by
  intro left right same
  have equal := exitCmd_beq left right
  rw [same, beq_self_eq_true] at equal
  exact of_decide_eq_true equal.symm

/-- The IO thread puts its exit command only after it was told to die. -/
theorem Valid.dieCalled (valid : Valid layout state) (exiting : state.phase .ioThread ≠ .running) :
    state.io.dieCalled = true := by
  obtain ⟨lists, inner⟩ := IoThreadTraffic.valid valid.io
  exact inner.dieCalled (inner.ended (.inr (valid.stopped exiting))).1

private theorem exits_length {flight : List (Cmd AppThread)}
    (exits : ∀ cmd ∈ flight, ∃ thread, cmd = exitCmd thread) :
    flight.length = flight.count (exitCmd .ioThread) + flight.count (exitCmd .pyThread) := by
  induction flight with
  | nil => rfl
  | cons cmd flight ih =>
      have later := ih fun other member => exits other (List.mem_cons_of_mem _ member)
      obtain ⟨thread, rfl⟩ := exits cmd (List.mem_cons_self)
      rw [List.length_cons, later, List.count_cons, List.count_cons]
      cases thread <;> simp [exitCmd, appCmdIoThreadExit, appCmdPyThreadExit] <;> omega

/-- The application's queue never refuses an exit command. -/
theorem Valid.room (valid : Valid layout state) :
    state.app.appCmdQ.pending.length < state.app.appCmdQ.qSize.toNat - 1 := by
  have total := exits_length valid.exits
  have io := valid.counts .ioThread
  have py := valid.counts .pyThread
  have inside : state.app.appCmdQ.pending.length ≤ state.inFlight.length := by
    simp [State.inFlight]
  have size : state.app.appCmdQ.qSize.toNat = 256 := by
    rw [valid.qSize]
    rfl
  split at io <;> split at py <;> omega

/-- The facts about the queue and the count with the place of the main thread
put in. -/
theorem Valid.at (valid : Valid layout state) {main : Main} (place : state.main = main) :
    state.app.runPhase = main.runPhase state.io.dieCalled ∧
      (∀ cmd ∈ main.hand ++ state.app.appCmdQ.pending, ∃ thread, cmd = exitCmd thread) ∧
      (∀ thread, (main.hand ++ state.app.appCmdQ.pending).count (exitCmd thread) +
        (state.processed thread).toNat = if state.phase thread = .running then 0 else 1) ∧
      (main ≠ .deleted → state.app.mainLoop.activecnt = state.references ∧ state.freed ≠ true) := by
  subst place
  refine ⟨valid.runPhase, valid.exits, valid.counts, fun present => ⟨valid.activecnt present, ?_⟩⟩
  exact fun freed => present (valid.freed freed)

theorem Valid.enqueue (valid : Valid layout state) {thread : AppThread}
    (running : state.phase thread = .running)
    (stopped : thread = .ioThread → state.io.control = .stopped) :
    Valid layout (state.enqueue thread) ∧ (state.enqueue thread).phase thread = .sending := by
  rcases valid.queue.enqueue_cases (exitCmd thread) with
    ⟨full, _⟩ | ⟨_, after, accepted, kept, appended, size, _, watcher⟩
  · have room := valid.room
    omega
  have shape : state.enqueue thread = { state with
      app := { state.app with appCmdQ := after }
      phase := Function.update state.phase thread .sending
      usedFreed := state.usedFreed || state.freed } := by
    simp [State.enqueue, accepted]
  have flight : (state.enqueue thread).inFlight = state.inFlight ++ [exitCmd thread] := by
    rw [shape]
    simp [State.inFlight, appended]
  refine ⟨?_, by simp [shape]⟩
  rw [shape] at flight ⊢
  refine { valid with
    armed := valid.armed
    queue := kept
    qSize := size.trans valid.qSize
    exits := ?_
    counts := ?_
    stopped := ?_
    joined := ?_ }
  · rw [flight]
    intro cmd member
    rcases List.mem_append.mp member with earlier | last
    · exact valid.exits cmd earlier
    · exact ⟨thread, List.mem_singleton.mp last⟩
  · intro other
    have before := valid.counts other
    rw [flight, List.count_append]
    by_cases same : other = thread
    · subst same
      rw [if_pos running] at before
      simp only [Function.update_self, List.count_singleton_self]
      simp
      omega
    · have differs : exitCmd thread ≠ exitCmd other :=
        fun equal => same (exitCmd_injective equal).symm
      simpa [Function.update_of_ne same, List.count_singleton, differs] using before
  · intro exiting
    by_cases same : thread = .ioThread
    · exact stopped same
    · exact valid.stopped (by simpa [Function.update_of_ne (Ne.symm same)] using exiting)
  · intro joined
    have finished := valid.joined joined
    by_cases same : thread = .pyThread
    · subst same
      cases running.symm.trans finished
    · simpa [Function.update_of_ne (Ne.symm same)] using finished

theorem Valid.die_app (valid : Valid layout state) {signal : TerminatingSignal}
    (active : (state.app.watcher signal).active = true) :
    ((state.app.clear signal).die.sigint.active = false ∧
        (state.app.clear signal).die.sigterm.active = false) ∧
      (state.app.clear signal).die.mainLoop.activecnt = state.app.mainLoop.activecnt - 2 ∧
      (state.app.clear signal).die.appCmdQ = state.app.appCmdQ := by
  have sigint : state.app.sigint.active = true :=
    (valid.armed .sigint).trans ((valid.armed signal).symm.trans active)
  have sigterm : state.app.sigterm.active = true :=
    (valid.armed .sigterm).trans ((valid.armed signal).symm.trans active)
  cases signal <;>
    simp [Application.die, Application.clear, EvSignal.clear, EvSignal.stop, sigint, sigterm,
      EvLoop.unref, Int.sub_sub]

theorem Valid.terminate (valid : Valid layout state) (waiting : state.main = .waiting)
    {signal : TerminatingSignal} (active : (state.app.watcher signal).active = true) :
    Valid layout (state.terminate signal) := by
  have alive : state.io.dieCalled = false := by
    simpa [active] using valid.armed signal
  have sigint : state.app.sigint.active = true := (valid.armed .sigint).trans (by simp [alive])
  have sigterm : state.app.sigterm.active = true := (valid.armed .sigterm).trans (by simp [alive])
  obtain ⟨⟨disarmedInt, disarmedTerm⟩, released, sameQueue⟩ := valid.die_app active
  have flight : (state.terminate signal).inFlight = state.inFlight := by
    simp [State.inFlight, State.terminate, sameQueue, waiting, Main.hand]
  refine {
    io := valid.io.step (.die alive)
    deaths := ?_
    armed := ?_
    runPhase := rfl
    constructed := by simp [State.terminate]
    queue := sameQueue ▸ valid.queue
    qSize := (congrArg WatcherCmdQ.qSize sameQueue).trans valid.qSize
    exits := flight ▸ valid.exits
    counts := flight ▸ valid.counts
    stopped := valid.stopped
    activecnt := ?_
    notAborted := by simp [State.terminate]
    ended := by simp [State.terminate]
    joined := by simp [State.terminate]
    freed := ?_ }
  · simp [State.terminate, IoThreadTraffic.State.die, valid.deaths, alive]
  · intro other
    cases other
    · exact disarmedInt
    · exact disarmedTerm
  · intro _
    have counted := valid.activecnt (by simp [waiting])
    simp only [State.references, sigint, sigterm, Bool.toNat_true] at counted
    simp only [State.terminate, State.references, disarmedInt, disarmedTerm, released,
      Bool.toNat_false]
    omega
  · intro freed
    cases waiting.symm.trans (valid.freed freed)

theorem onApplicationCmd_exit {app : Application} {thread : AppThread}
    (dying : thread = .ioThread → app.runPhase = .dying) :
    app.onApplicationCmd (exitCmd thread) = some { app with mainLoop := app.mainLoop.unref } := by
  cases thread with
  | ioThread => simp [Application.onApplicationCmd, exitCmd, dying rfl]
  | pyThread =>
      simp [Application.onApplicationCmd, exitCmd, appCmdPyThreadExit, appCmdIoThreadExit]

theorem Valid.command (valid : Valid layout state) {cmd : Cmd AppThread}
    (draining : state.main = .draining (some cmd)) : Valid layout (state.command cmd) := by
  have flight : state.inFlight = cmd :: state.app.appCmdQ.pending := by
    simp [State.inFlight, draining, Main.hand]
  obtain ⟨thread, rfl⟩ := valid.exits cmd (by simp [flight])
  have counts := valid.counts
  rw [flight] at counts
  have counted := counts thread
  rw [List.count_cons_self] at counted
  have exiting : state.phase thread ≠ .running := by
    intro running
    rw [if_pos running] at counted
    omega
  rw [if_neg exiting] at counted
  have unprocessed : state.processed thread = false := by
    cases processed : state.processed thread
    · rfl
    · rw [processed, Bool.toNat_true] at counted
      omega
  have dying : thread = .ioThread → state.app.runPhase = .dying := by
    intro same
    subst same
    rw [valid.runPhase, draining, valid.dieCalled exiting]
    rfl
  have shape : state.command (exitCmd thread) = { state with
      app := { state.app with mainLoop := state.app.mainLoop.unref }
      main := .draining none
      processed := fun other => state.processed other || exitCmd thread == exitCmd other } := by
    simp [State.command, onApplicationCmd_exit dying]
  rw [shape]
  refine { valid with
    armed := valid.armed
    runPhase := ?_
    constructed := by simp
    exits := ?_
    counts := ?_
    activecnt := ?_
    notAborted := by simp
    ended := by simp
    joined := by simp
    freed := ?_ }
  · simpa [draining, Main.runPhase] using valid.runPhase
  · intro other member
    exact valid.exits other (flight ▸ List.mem_cons_of_mem _ member)
  · intro other
    have before := counts other
    simp only [State.inFlight, Main.hand, Option.toList_none, List.nil_append]
    by_cases same : other = thread
    · subst same
      rw [if_neg exiting]
      simp only [beq_self_eq_true, Bool.or_true, Bool.toNat_true]
      omega
    · have differs : exitCmd thread ≠ exitCmd other :=
        fun equal => same (exitCmd_injective equal).symm
      rw [List.count_cons_of_ne differs] at before
      simpa [Ne.symm same] using before
  · intro _
    have before := valid.activecnt (by simp [draining])
    simp only [State.references] at before ⊢
    cases thread <;>
    · simp only [unprocessed, Bool.not_false, Bool.toNat_true] at before
      simp [EvLoop.unref]
      omega
  · intro freed
    cases draining.symm.trans (valid.freed freed)

/-- Within its loop the main thread moves on and removes commands from the queue,
as long as it keeps those it removes at hand. -/
theorem Valid.withinLoop (valid : Valid layout state) {main : Main} {queue : WatcherCmdQ AppThread}
    (here : state.main.inLoop = true) (there : main.inLoop = true) (kept : queue.WellFormed)
    (size : queue.qSize = state.app.appCmdQ.qSize)
    (flight : main.hand ++ queue.pending = state.inFlight) :
    Valid layout { state with app := { state.app with appCmdQ := queue }, main := main } := by
  have away : ∀ place : Main, place.inLoop = false → main ≠ place := by
    intro place outside same
    rw [same, outside] at there
    cases there
  have undeleted : state.main ≠ .deleted := by
    intro same
    rw [same] at here
    cases here
  refine { valid with
    armed := valid.armed
    runPhase := ?_
    constructed := fun same => absurd same (away _ rfl)
    queue := kept
    qSize := size.trans valid.qSize
    exits := fun cmd member => valid.exits cmd (flight ▸ member)
    counts := ?_
    activecnt := fun _ => valid.activecnt undeleted
    notAborted := away _ rfl
    ended := ?_
    joined := ?_
    freed := fun freed => absurd (valid.freed freed) undeleted }
  · rw [Main.runPhase_inLoop there, ← Main.runPhase_inLoop here]
    exact valid.runPhase
  · intro thread
    have before := valid.counts thread
    rw [← flight] at before
    exact before
  · intro ended
    rcases ended with same | same | same <;> exact absurd same (away _ rfl)
  · intro joined
    rcases joined with same | same <;> exact absurd same (away _ rfl)

theorem Valid.iterate (valid : Valid layout state) (draining : state.main = .draining none) :
    Valid layout state.iterate := by
  have here : state.main.inLoop = true := by
    rw [draining]
    rfl
  have flight : state.inFlight = state.app.appCmdQ.pending := by
    simp [State.inFlight, draining, Main.hand]
  rcases valid.queue.take_cases with ⟨idle, nothing⟩ | ⟨cmd, after, removed, kept, shape, size, _⟩
  · simp only [State.iterate, nothing]
    exact valid.withinLoop here rfl valid.queue rfl flight.symm
  · simp only [State.iterate, removed]
    exact valid.withinLoop here rfl kept size (shape.symm.trans flight.symm)

theorem Valid.wake (valid : Valid layout state) (waiting : state.main = .waiting)
    {watcher : EvAsync} :
    Valid layout { state with
      app := { state.app with appCmdQ := { state.app.appCmdQ with qWatcher := watcher } }
      main := .draining none } := by
  have flight : state.inFlight = state.app.appCmdQ.pending := by
    simp [State.inFlight, waiting, Main.hand]
  exact valid.withinLoop (by rw [waiting]; rfl) rfl valid.queue rfl flight.symm

theorem Valid.run (valid : Valid layout state) (constructed : state.main = .constructed) :
    Valid layout { state with app := { state.app with runPhase := .run }, main := .waiting } := by
  obtain ⟨_, exits, counts, present⟩ := valid.at constructed
  obtain ⟨activecnt, undeleted⟩ := present (by simp)
  exact { valid with
    armed := valid.armed
    runPhase := by simp [Main.runPhase, valid.constructed constructed]
    constructed := by simp
    exits := exits
    counts := counts
    activecnt := fun _ => activecnt
    notAborted := by simp
    ended := by simp
    joined := by simp
    freed := fun freed => absurd freed undeleted }

theorem Valid.sendDie (valid : Valid layout state) (dying : state.main = .dying) :
    Valid layout state.sendDie := by
  have flight : state.inFlight = state.app.appCmdQ.pending := by
    simp [State.inFlight, dying, Main.hand]
  have moved : Valid layout { state with main := .waiting } :=
    valid.withinLoop (by rw [dying]; rfl) rfl valid.queue rfl flight.symm
  by_cases sending : state.io.dieSending = true
  · have shape : state.sendDie = { state with main := .waiting, io := state.io.sendDie } := by
      simp [State.sendDie, sending]
    rw [shape]
    exact { moved with
      io := valid.io.step (.sendDie sending)
      armed := moved.armed }
  · have shape : state.sendDie = { state with main := .waiting } := by
      simp [State.sendDie, sending]
    rw [shape]
    exact moved

/-- `application_run` returns only when both threads have reported their exit. -/
theorem Valid.leave (valid : Valid layout state) (waiting : state.main = .waiting)
    (zero : state.app.mainLoop.activecnt = 0) : Valid layout { state with main := .returned } := by
  obtain ⟨runPhase, exits, counts, present⟩ := valid.at waiting
  obtain ⟨activecnt, undeleted⟩ := present (by simp)
  have counted := activecnt
  simp only [zero, State.references] at counted
  have disarmed : state.app.sigint.active = false := by
    cases active : state.app.sigint.active
    · rfl
    · rw [active, Bool.toNat_true] at counted
      omega
  have called : state.io.dieCalled = true := by
    simpa using (valid.armed .sigint).symm.trans disarmed
  have processed : ∀ thread, state.processed thread = true := by
    intro thread
    cases done : state.processed thread
    · cases thread <;>
      · rw [done, Bool.not_false, Bool.toNat_true] at counted
        omega
    · rfl
  exact { valid with
    runPhase := runPhase
    constructed := by simp
    exits := exits
    counts := counts
    activecnt := fun _ => activecnt
    notAborted := by simp
    ended := fun _ => ⟨called, processed⟩
    joined := by simp
    freed := fun freed => absurd freed undeleted }

theorem Valid.join (valid : Valid layout state) (returned : state.main = .returned)
    (finished : state.phase .pyThread = .finished) :
    Valid layout { state with app := { state.app with runPhase := .exit }, main := .joined } := by
  obtain ⟨_, exits, counts, present⟩ := valid.at returned
  obtain ⟨activecnt, undeleted⟩ := present (by simp)
  have ended := valid.ended (.inl returned)
  exact { valid with
    armed := valid.armed
    runPhase := rfl
    constructed := by simp
    exits := exits
    counts := counts
    activecnt := fun _ => activecnt
    notAborted := by simp
    ended := fun _ => ended
    joined := fun _ => finished
    freed := fun freed => absurd freed undeleted }

theorem Valid.delete (valid : Valid layout state) (joined : state.main = .joined) :
    Valid layout { state with app := state.app.dtor, main := .deleted, freed := true } := by
  obtain ⟨runPhase, exits, counts, _⟩ := valid.at joined
  obtain ⟨called, processed⟩ := valid.ended (.inr (.inl joined))
  have sigint : state.app.sigint.active = false := (valid.armed .sigint).trans (by simp [called])
  have sigterm : state.app.sigterm.active = false := (valid.armed .sigterm).trans (by simp [called])
  refine { valid with
    armed := ?_
    runPhase := runPhase
    constructed := by simp
    exits := exits
    counts := counts
    activecnt := by simp
    notAborted := by simp
    ended := fun _ => ⟨called, processed⟩
    joined := fun _ => valid.joined (.inl joined)
    freed := fun _ => rfl }
  intro signal
  cases signal <;>
    simp [Application.watcher, Application.dtor, EvSignal.stop, sigint, sigterm, called]

theorem Valid.deliver (valid : Valid layout state) (signal : TerminatingSignal) :
    Valid layout { state with app := state.app.deliver signal } := by
  have same : ∀ watcher : EvSignal, watcher.deliver.active = watcher.active := by
    intro watcher
    unfold EvSignal.deliver
    split <;> rfl
  have armed := valid.armed
  cases signal <;>
  · refine { valid with armed := ?_, activecnt := ?_ }
    · intro other
      have before := armed other
      cases other <;> simpa [Application.watcher, Application.deliver, same] using before
    · intro present
      have before := valid.activecnt present
      simpa [State.references, Application.deliver, same] using before

theorem Valid.ioStep (valid : Valid layout state) {label : IoThreadTraffic.Label}
    {io : IoThreadTraffic.State} (taken : IoThreadTraffic.Step layout state.io label io)
    (other : label ≠ .die) : Valid layout { state with io := io } := by
  have same := IoThreadTraffic.dieCalled_step taken other
  exact { valid with
    io := valid.io.step taken
    deaths := valid.deaths.trans (by rw [same])
    armed := fun signal => (valid.armed signal).trans (by rw [same])
    runPhase := valid.runPhase.trans (by rw [same])
    constructed := fun constructed => same.trans (valid.constructed constructed)
    stopped := fun exiting => IoThreadTraffic.stopped_step taken (valid.stopped exiting)
    ended := fun ended => ⟨same.trans (valid.ended ended).1, (valid.ended ended).2⟩ }

theorem Valid.send (valid : Valid layout state) {thread : AppThread}
    (sending : state.phase thread = .sending) : Valid layout (state.send thread) := by
  have running : ∀ other, Function.update state.phase thread .finished other = .running ↔
      state.phase other = .running := by
    intro other
    by_cases same : other = thread
    · subst same
      simp [sending]
    · simp [same]
  refine { valid with
    armed := valid.armed
    counts := ?_
    stopped := fun exiting => valid.stopped ((running .ioThread).not.mp exiting)
    joined := ?_ }
  · intro other
    have before := valid.counts other
    simp only [State.send, running]
    exact before
  · intro joined
    have finished := valid.joined joined
    by_cases same : thread = .pyThread
    · subst same
      cases sending.symm.trans finished
    · simpa [State.send, Function.update_of_ne (Ne.symm same)] using finished

private theorem fresh_valid (layout : IoBufferLayout) (appCells : Nat → Cmd AppThread)
    (ioCells : Nat → Cmd (Option Addr)) (block : Nat) (memory : Nat → Nat) :
    Valid layout (.fresh layout appCells ioCells block memory) where
  io := .start ⟨_, _, _, rfl⟩
  deaths := rfl
  armed signal := by cases signal <;> rfl
  runPhase := rfl
  constructed _ := rfl
  queue := WatcherCmdQ.new_wellFormed (show (0 : UInt32) < 256 by decide) appCells
  qSize := rfl
  exits cmd member := by cases member
  counts thread := rfl
  stopped exiting := absurd rfl exiting
  activecnt _ := rfl
  notAborted := by simp [State.fresh]
  ended := by simp [State.fresh]
  joined := by simp [State.fresh]
  freed := by simp [State.fresh]

theorem Valid.step (valid : Valid layout state) {label : Label}
    (taken : Step layout state label next) : Valid layout next := by
  cases taken with
  | run constructed => exact valid.run constructed
  | deliver => exact valid.deliver _
  | terminate waiting active _ => exact valid.terminate waiting active
  | sendDie dying => exact valid.sendDie dying
  | wake waiting => exact valid.wake waiting
  | iterate draining => exact valid.iterate draining
  | command draining => exact valid.command draining
  | leave waiting zero => exact valid.leave waiting zero
  | join returned finished => exact valid.join returned finished
  | delete joined => exact valid.delete joined
  | io taken other => exact valid.ioStep taken other
  | enqueue running stopped => exact (valid.enqueue running stopped).1
  | send sending => exact valid.send sending

theorem valid (reachable : (system layout).Reachable state) : Valid layout state := by
  refine reachable.invariant (Valid layout) ?_ ?_
  · intro state starts
    obtain ⟨appCells, ioCells, block, memory, rfl⟩ := starts
    exact fresh_valid layout appCells ioCells block memory
  · intro state label next valid taken
    exact valid.step taken

/-- What a step does to the IO thread: nothing, a step of that thread's own, or what
the main thread does when it tells the thread to die. -/
theorem io_moves (valid : Valid layout state) {label : Label}
    (taken : Step layout state label next) :
    next.io = state.io ∨ ∃ move, IoThreadTraffic.Step layout state.io move next.io ∧
      (label = .io move ∨ move = .die ∨ move = .sendDie) := by
  cases taken with
  | @terminate signal _ active =>
      have alive : state.io.dieCalled = false := by simpa [active] using valid.armed signal
      exact .inr ⟨.die, .die alive, .inr (.inl rfl)⟩
  | sendDie =>
      unfold State.sendDie
      split
      · exact .inr ⟨.sendDie, .sendDie ‹_›, .inr (.inr rfl)⟩
      · exact .inl rfl
  | iterate =>
      unfold State.iterate
      split <;> exact .inl rfl
  | command =>
      unfold State.command
      split <;> exact .inl rfl
  | io taken => exact .inr ⟨_, taken, .inl rfl⟩
  | run | deliver | wake | leave | join | delete | enqueue | send => exact .inl rfl

/-- A whole run, with a signal and both threads' exits. -/
theorem returned_reachable : ∃ state, (system .lp64).Reachable state ∧ state.main = .returned := by
  have fresh : (system .lp64).Reachable
      (.fresh .lp64 (fun _ => ⟨0, .ioThread⟩) (fun _ => ⟨0, none⟩) 0 fun _ => 0) :=
    .start ⟨_, _, _, _, rfl⟩
  have running := fresh.step (.run rfl)
  have started := running.step (@Step.io .lp64 _ _ _ (.start rfl) (by simp) (by simp))
  have delivered := started.step (@Step.deliver .lp64 _ .sigint)
  have dying := delivered.step (@Step.terminate .lp64 _ .sigint rfl rfl rfl)
  have sent := dying.step (@Step.sendDie .lp64 _ rfl)
  have woken := sent.step (@Step.io .lp64 _ _ _ (.wake rfl (by decide) rfl rfl) (by simp) (by simp))
  have taken := woken.step (@Step.io .lp64 _ _ _ (.iterate rfl) (by simp) (by simp))
  have dead := taken.step (@Step.io .lp64 _ _ _
    (@IoThreadTraffic.Step.command .lp64 _ _ (fun _ => .kept) 0 _ rfl rfl) (by simp) (by simp))
  have drained := dead.step (@Step.io .lp64 _ _ _ (.iterate rfl) (by simp) (by simp))
  have left := drained.step (@Step.io .lp64 _ _ _ (.leave rfl rfl) (by simp) (by simp))
  have stopped := left.step (@Step.io .lp64 _ _ _ (.stop rfl) (by simp) (by simp))
  have ioExit := stopped.step (@Step.enqueue .lp64 _ .ioThread rfl fun _ => rfl)
  have pyExit := ioExit.step (@Step.enqueue .lp64 _ .pyThread rfl (by simp))
  have told := pyExit.step (@Step.send .lp64 _ .pyThread rfl)
  have awake := told.step (@Step.wake .lp64 _ rfl (by decide) rfl rfl)
  have first := (awake.step (@Step.iterate .lp64 _ rfl)).step (@Step.command .lp64 _ _ rfl)
  have second := (first.step (@Step.iterate .lp64 _ rfl)).step (@Step.command .lp64 _ _ rfl)
  have idle := second.step (@Step.iterate .lp64 _ rfl)
  have returned := idle.step (@Step.leave .lp64 _ rfl rfl)
  exact ⟨_, returned, rfl⟩

end Striga.Greenev.ApplicationRun
