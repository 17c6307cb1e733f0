import Striga.Singlev.Application
import Striga.CmdQDrain

/-! Runs of singlev from the end of `application_ctor`: the main thread with the
module it runs, and any number of further Python threads, each of which may call
`application_run` and `application_listen` of `pysevapi.c` at any time. What the
interpreter lock protects is one step; what goes on without it is not. -/

set_option autoImplicit false

namespace Striga.Singlev.ApplicationRun

open Lib

/-- Where `main` is: in front of `application_start`, in the module, behind
`application_start`, in `Py_Finalize`, behind it, past the end of
`application_dtor`, or in `abort`. -/
inductive Main where
  | constructed
  | module
  | finished
  | stopped
  | finalized
  | deleted
  | aborted
  deriving DecidableEq, Repr

/-- Python threads get on only while the main thread is in the interpreter. -/
def Main.interprets : Main → Bool
  | .module | .stopped => true
  | _ => false

/-- Where a Python thread is. In `application_run` it has given up the lock but
not stored its state, is in the loop, waits for the lock with the state that it
found stored, or has the lock again. In `application_listen` it is in front of
`cmd_q_put`, in it behind the check whether the queue is started, in it behind the
critical section, or behind it. -/
inductive Place (Thread Call : Type) where
  | python
  | saving
  | looping
  | restoring (tstate : Option Thread)
  | restored
  | issuing
  | putting (call : Call)
  | sending (call : Call)
  | issued (call : Call) (result : Bool)
  deriving DecidableEq, Repr

namespace Place

variable {Thread Call : Type}

def inRun : Place Thread Call → Bool
  | .saving | .looping | .restoring _ | .restored => true
  | _ => false

/-- Within `application_run` and behind the store of the thread state. -/
def stored : Place Thread Call → Bool
  | .looping | .restoring _ | .restored => true
  | _ => false

theorem inRun_of_stored {place : Place Thread Call} (stored : place.stored = true) :
    place.inRun = true := by
  cases place with
  | looping | restoring | restored => rfl
  | python | saving | issuing | putting | sending | issued => cases stored

/-- The call of `cmd_q_put` that a thread is on the way with. -/
def call? : Place Thread Call → Option Call
  | .putting call | .sending call | .issued call _ => some call
  | _ => none

end Place

/-- The application, the holder of the interpreter lock, the place of each thread
and what its last call into `_pysevapi` came to, and the traffic of the queue. -/
structure State (Thread Call : Type) where
  app : Application Thread
  main : Main
  gil : Option Thread
  place : Thread → Place Thread Call
  result : Thread → Option (Except String Unit)
  phase : Call → CmdQDrain.PutPhase
  consumer : CmdQDrain.Consumer Data
  accepted : List Call
  dispatched : List (SubjectCmd Data)

inductive Label (Thread Call : Type) where
  | start
  | finish
  | stop
  | finalize
  | delete
  | deliver (signal : TerminatingSignal)
  | acquire (thread : Thread)
  | release (thread : Thread)
  | run (thread : Thread)
  | store (thread : Thread)
  | terminate (thread : Thread) (signal : TerminatingSignal)
  | drain (thread : Thread) (label : CmdQDrain.Label Call)
  | leave (thread : Thread)
  | restore (thread : Thread)
  | clear (thread : Thread)
  | listen (thread : Thread)
  | check (thread : Thread) (call : Call)
  | enqueue (thread : Thread) (call : Call)
  | send (thread : Thread) (call : Call)
  | reacquire (thread : Thread)

section

variable {Thread Call : Type} [DecidableEq Thread] [DecidableEq Call]

namespace State

/-- `Py_InitializeEx` leaves the lock with the main thread. -/
def fresh (mainThread : Thread) (block : Nat → SubjectCmd Data) : State Thread Call where
  app := .ctor block
  main := .constructed
  gil := some mainThread
  place _ := .python
  result _ := none
  phase _ := .idle
  consumer := .waiting
  accepted := []
  dispatched := []

/-- The global `app`. -/
def global (state : State Thread Call) : Option (Application Thread) :=
  if state.main = .deleted then none else some state.app

def drain (state : State Thread Call) : CmdQDrain.State Call Data :=
  ⟨state.app.cmdQ, state.phase, state.consumer, state.accepted, state.dispatched⟩

def withDrain (state : State Thread Call) (drain : CmdQDrain.State Call Data) :
    State Thread Call :=
  { state with
    app := { state.app with cmdQ := drain.this }
    phase := drain.phase
    consumer := drain.consumer
    accepted := drain.accepted
    dispatched := drain.dispatched }

def moveTo (state : State Thread Call) (thread : Thread) (place : Place Thread Call) :
    State Thread Call :=
  { state with place := Function.update state.place thread place }

def conclude (state : State Thread Call) (thread : Thread) (result : Except String Unit) :
    State Thread Call :=
  { state with result := Function.update state.result thread (some result) }

/-- The end of `application_start` behind `_pyutils_run_module`. -/
def finish (state : State Thread Call) : State Thread Call :=
  match state.app.die with
  | none => { state with main := .aborted }
  | some app => { state with app := app, main := .finished }

def stop (state : State Thread Call) : State Thread Call :=
  match state.app.stop with
  | none => { state with main := .aborted }
  | some app => { state with app := app, main := .stopped }

def delete (state : State Thread Call) : State Thread Call :=
  if state.app.cmdQ.deletable then { state with main := .deleted }
  else { state with main := .aborted }

/-- `_application_on_terminating_signal`. -/
def terminate (state : State Thread Call) (signal : TerminatingSignal) : State Thread Call :=
  match (state.app.clear signal).die with
  | none => { state with main := .aborted }
  | some app => { state with app := app }

/-- `_pysevapi_application_run` up to the release of the lock. -/
def run (state : State Thread Call) (thread : Thread) : State Thread Call :=
  match appReady state.global with
  | .error text => state.conclude thread (.error text)
  | .ok app =>
      if app.pythonThreadState.isSome then
        state.conclude thread (.error "Application event loop seems to be already activated")
      else
        { state with gil := none }.moveTo thread .saving

/-- The assignment of what `PyEval_SaveThread` has returned. -/
def store (state : State Thread Call) (thread : Thread) : State Thread Call :=
  { state with app := { state.app with pythonThreadState := some thread } }.moveTo thread .looping

/-- `_pysevapi_application_run` from the return of `PyEval_RestoreThread`. -/
def clear (state : State Thread Call) (thread : Thread) : State Thread Call :=
  ({ state with app := { state.app with pythonThreadState := none } }.moveTo thread
    .python).conclude thread (.ok ())

/-- `_pysevapi_application_listen` up to the release of the lock. -/
def listen (state : State Thread Call) (thread : Thread) : State Thread Call :=
  match appReady state.global with
  | .error text => state.conclude thread (.error text)
  | .ok _ => { state with gil := none }.moveTo thread .issuing

/-- `cmd_q_put` up to its critical section. -/
def check (state : State Thread Call) (thread : Thread) (call : Call) : State Thread Call :=
  if state.app.cmdQ.watcher.active then
    state.moveTo thread (.putting call)
  else
    (state.withDrain (state.drain.refuse call)).moveTo thread (.issued call false)

/-- The critical section of `cmd_q_put`, which asks no more whether the queue is
started. -/
def enqueue (state : State Thread Call) (thread : Thread) (call : Call) : State Thread Call :=
  let drain := state.drain.insert (fun _ => listenCmd) call
  (state.withDrain drain).moveTo thread
    (if drain.phase call = .sending then .sending call else .issued call false)

def send (state : State Thread Call) (thread : Thread) (call : Call) : State Thread Call :=
  (state.withDrain { state.drain with
    this := state.app.cmdQ.send
    phase := Function.update state.phase call (.returned true) }).moveTo thread (.issued call true)

/-- A call of `cmd_q_put` that has not begun. -/
def Unused (state : State Thread Call) (call : Call) : Prop :=
  state.phase call = .idle ∧ ∀ thread, state.place thread ≠ .putting call

/-- `_pysevapi_application_listen` from the end of its wait for the lock. -/
def reacquire (state : State Thread Call) (thread : Thread) (result : Bool) :
    State Thread Call :=
  ({ state with gil := some thread }.moveTo thread .python).conclude thread
    (if result then .ok () else .error "Failed to issue a application command")

end State

/-- Callbacks begin while `ev_run` waits, and it returns once nothing holds it.
`Py_Finalize` waits for the other Python threads. -/
inductive Step (mainThread : Thread) :
    State Thread Call → Label Thread Call → State Thread Call → Prop where
  | start {state} :
      state.main = .constructed →
      Step mainThread state .start { state with app := state.app.start, main := .module }
  | finish {state} :
      state.main = .module → state.gil = some mainThread →
      state.place mainThread = .python →
      Step mainThread state .finish state.finish
  | stop {state} :
      state.main = .finished →
      Step mainThread state .stop state.stop
  | finalize {state} :
      state.main = .stopped → state.gil = some mainThread →
      (∀ thread, state.place thread = .python) →
      Step mainThread state .finalize
        { state with app := state.app.exit, main := .finalized, gil := none }
  | delete {state} :
      state.main = .finalized →
      Step mainThread state .delete state.delete
  | deliver {state signal} :
      Step mainThread state (.deliver signal) { state with app := state.app.deliver signal }
  | acquire {state thread} :
      state.main.interprets = true → state.gil = none → state.place thread = .python →
      Step mainThread state (.acquire thread) { state with gil := some thread }
  | release {state thread} :
      state.main.interprets = true → state.gil = some thread → state.place thread = .python →
      Step mainThread state (.release thread) { state with gil := none }
  | run {state thread} :
      state.main.interprets = true → state.gil = some thread → state.place thread = .python →
      Step mainThread state (.run thread) (state.run thread)
  | store {state thread} :
      state.place thread = .saving →
      Step mainThread state (.store thread) (state.store thread)
  | terminate {state thread signal} :
      state.place thread = .looping → state.consumer = .waiting →
      (state.app.watcher signal).active = true →
      (state.app.watcher signal).pending = true →
      Step mainThread state (.terminate thread signal) (state.terminate signal)
  | drain {state thread label drain} :
      state.place thread = .looping →
      label = .wake ∨ label = .get ∨ label = .dispatch ∨ label = .finish →
      CmdQDrain.Step (fun _ => listenCmd) true state.drain label drain →
      Step mainThread state (.drain thread label) (state.withDrain drain)
  | leave {state thread} :
      state.place thread = .looping → state.consumer = .waiting →
      state.app.mainLoop.activecnt = 0 →
      Step mainThread state (.leave thread)
        (state.moveTo thread (.restoring state.app.pythonThreadState))
  | restore {state thread owner} :
      state.main.interprets = true → state.gil = none →
      state.place thread = .restoring (some owner) →
      Step mainThread state (.restore thread)
        ({ state with gil := some owner }.moveTo thread .restored)
  | clear {state thread} :
      state.place thread = .restored →
      Step mainThread state (.clear thread) (state.clear thread)
  | listen {state thread} :
      state.main.interprets = true → state.gil = some thread → state.place thread = .python →
      Step mainThread state (.listen thread) (state.listen thread)
  | check {state thread call} :
      state.place thread = .issuing → state.Unused call →
      Step mainThread state (.check thread call) (state.check thread call)
  | enqueue {state thread call} :
      state.place thread = .putting call →
      Step mainThread state (.enqueue thread call) (state.enqueue thread call)
  | send {state thread call} :
      state.place thread = .sending call →
      Step mainThread state (.send thread call) (state.send thread call)
  | reacquire {state thread call result} :
      state.main.interprets = true → state.gil = none →
      state.place thread = .issued call result →
      Step mainThread state (.reacquire thread) (state.reacquire thread result)

def system (mainThread : Thread) (Call : Type) [DecidableEq Call] :
    System (State Thread Call) (Label Thread Call) where
  initial state := ∃ block, state = .fresh mainThread block
  step := Step mainThread

end

variable {Thread Call : Type} {thread : Thread} {state next : State Thread Call}

private theorem appReady_global (interprets : state.main.interprets = true) :
    (state.app.runPhase = .run ∧ appReady state.global = .ok state.app) ∨
      (state.app.runPhase ≠ .run ∧ appReady state.global =
        .error "Application is not running") := by
  have present : state.global = some state.app := by
    apply if_neg
    intro deleted
    rw [deleted] at interprets
    cases interprets
  rw [present]
  by_cases running : state.app.runPhase = .run
  · exact .inl ⟨running, by simp [appReady, running]⟩
  · exact .inr ⟨running, by simp [appReady, running]⟩

@[simp] theorem State.moveTo_self [DecidableEq Thread] (place : Place Thread Call) :
    (state.moveTo thread place).place thread = place := Function.update_self ..

theorem State.moveTo_of_ne [DecidableEq Thread] {other : Thread} (differs : other ≠ thread)
    (place : Place Thread Call) : (state.moveTo thread place).place other = state.place other :=
  Function.update_of_ne differs ..

/-- At most one thread is in `application_run`; the state that is stored is its
own, and so is the one that it takes back. -/
structure LoopsAlone (state : State Thread Call) : Prop where
  alone : ∀ first second, (state.place first).inRun = true → (state.place second).inRun = true →
    first = second
  stored : ∀ thread, state.app.pythonThreadState = some thread ↔
    (state.place thread).stored = true
  own : ∀ thread tstate, state.place thread = .restoring tstate → tstate = some thread

/-- No thread calls `application_run` of a running application between the
release of the lock by another one and its store of the thread state. -/
def EntersApart (state : State Thread Call) (label : Label Thread Call)
    (_ : State Thread Call) : Prop :=
  ∀ thread, label = .run thread → state.app.runPhase = .run →
    ∀ other, state.place other ≠ .saving

private theorem die_frame {app after : Application Thread} (died : app.die = some after) :
    after.pythonThreadState = app.pythonThreadState ∧ after.cmdQ = app.cmdQ := by
  unfold Application.die at died
  split at died
  · cases died
    exact ⟨rfl, rfl⟩
  · split at died
    · cases died
      exact ⟨rfl, rfl⟩
    · split at died
      · cases died
        exact ⟨rfl, rfl⟩
      · cases died

/-- What `main` and the callback of a signal do not touch. -/
structure Frame (state next : State Thread Call) : Prop where
  place : next.place = state.place
  tstate : next.app.pythonThreadState = state.app.pythonThreadState
  drain : next.drain = state.drain

theorem frame_finish (state : State Thread Call) : Frame state state.finish := by
  unfold State.finish
  cases died : state.app.die with
  | none => exact ⟨rfl, rfl, rfl⟩
  | some app =>
      obtain ⟨tstate, queue⟩ := die_frame died
      exact ⟨rfl, tstate, by rw [State.drain, queue]; rfl⟩

theorem frame_delete (state : State Thread Call) : Frame state state.delete := by
  unfold State.delete
  split
  · exact ⟨rfl, rfl, rfl⟩
  · exact ⟨rfl, rfl, rfl⟩

theorem frame_deliver (state : State Thread Call) (signal : TerminatingSignal) :
    Frame state { state with app := state.app.deliver signal } := by
  cases signal with
  | sigint => exact ⟨rfl, rfl, rfl⟩
  | sigterm => exact ⟨rfl, rfl, rfl⟩

theorem frame_terminate (state : State Thread Call) (signal : TerminatingSignal) :
    Frame state (state.terminate signal) := by
  unfold State.terminate
  cases died : (state.app.clear signal).die with
  | none => exact ⟨rfl, rfl, rfl⟩
  | some app =>
      obtain ⟨tstate, queue⟩ := die_frame died
      cases signal with
      | sigint => exact ⟨rfl, tstate, by rw [State.drain, queue]; rfl⟩
      | sigterm => exact ⟨rfl, tstate, by rw [State.drain, queue]; rfl⟩

private theorem stop_tstate {app after : Application Thread} (stopped : app.stop = some after) :
    after.pythonThreadState = app.pythonThreadState := by
  unfold Application.stop at stopped
  split at stopped
  · cases stopped
  · cases stopped
    rfl

namespace LoopsAlone

private theorem of_only (others : ∀ other, (state.place other).inRun = true → other = thread)
    (stored : state.app.pythonThreadState =
      if (state.place thread).stored then some thread else none)
    (own : ∀ tstate, state.place thread = .restoring tstate → tstate = some thread) :
    LoopsAlone state where
  alone first second left right := (others first left).trans (others second right).symm
  stored other := by
    rw [stored]
    constructor
    · intro same
      split at same
      · rename_i inside
        cases same
        exact inside
      · cases same
    · intro inside
      obtain rfl := others other (Place.inRun_of_stored inside)
      exact if_pos inside
  own other tstate place := by
    have same := others other (by rw [place]; rfl)
    subst same
    exact own tstate place

private theorem congr (alone : LoopsAlone state) (place : next.place = state.place)
    (tstate : next.app.pythonThreadState = state.app.pythonThreadState) : LoopsAlone next where
  alone := by rw [place]; exact alone.alone
  stored := by rw [place, tstate]; exact alone.stored
  own := by rw [place]; exact alone.own

variable [DecidableEq Thread]

/-- What a thread does on its way through `application_listen`. -/
private theorem outside (alone : LoopsAlone state) {place : Place Thread Call}
    (before : (state.place thread).inRun = false) (after : place.inRun = false)
    (places : next.place = Function.update state.place thread place)
    (tstate : next.app.pythonThreadState = state.app.pythonThreadState) : LoopsAlone next := by
  have elsewhere : ∀ other, (next.place other).inRun = true → next.place other =
    state.place other := by
    intro other inside
    rw [places] at inside ⊢
    apply Function.update_of_ne
    intro same
    rw [same, Function.update_self, after] at inside
    cases inside
  constructor
  · intro first second left right
    exact alone.alone first second (elsewhere first left ▸ left) (elsewhere second right ▸ right)
  · intro other
    rw [tstate, alone.stored, places]
    by_cases same : other = thread
    · subst same
      rw [Function.update_self]
      constructor
      · intro inside
        rw [Place.inRun_of_stored inside] at before
        cases before
      · intro inside
        rw [Place.inRun_of_stored inside] at after
        cases after
    · rw [Function.update_of_ne same]
  · intro other owner restoring
    have same := elsewhere other (by rw [restoring]; rfl)
    exact alone.own other owner (same.symm.trans restoring)

/-- What the thread in `application_run` does on its way through it. -/
private theorem inside (alone : LoopsAlone state) {place : Place Thread Call}
    (before : (state.place thread).inRun = true)
    (places : next.place = Function.update state.place thread place)
    (tstate : next.app.pythonThreadState = if place.stored then some thread else none)
    (own : ∀ owner, place = .restoring owner → owner = some thread) : LoopsAlone next := by
  have others : ∀ other, (next.place other).inRun = true → other = thread := by
    intro other inside
    by_cases same : other = thread
    · exact same
    · rw [places, Function.update_of_ne same] at inside
      exact alone.alone other thread inside before
  apply of_only others
  · rw [places, Function.update_self]
    exact tstate
  · rw [places, Function.update_self]
    exact own

private theorem enter (alone : LoopsAlone state) (none : state.app.pythonThreadState = none)
    (noneSaving : ∀ other, state.place other ≠ .saving) :
    LoopsAlone ({ state with gil := Option.none }.moveTo thread .saving) := by
  have others : ∀ other,
      (({ state with gil := Option.none }.moveTo thread .saving).place other).inRun = true →
      other = thread := by
    intro other inside
    by_cases same : other = thread
    · exact same
    · have before : (state.place other).inRun = true := by
        simpa [State.moveTo, Function.update_of_ne same] using inside
      have stored : (state.place other).stored = true := by
        cases place : state.place other with
        | saving => exact absurd place (noneSaving other)
        | looping | restoring | restored => rfl
        | python | issuing | putting | sending | issued =>
            rw [place] at before
            cases before
      have own := (alone.stored other).mpr stored
      rw [none] at own
      cases own
  apply of_only others
  · simp [State.moveTo, none, Place.stored]
  · simp [State.moveTo]

omit [DecidableEq Thread] in
theorem fresh (mainThread : Thread) (block : Nat → SubjectCmd Data) :
    LoopsAlone (.fresh mainThread block : State Thread Call) := by
  have others : ∀ other,
      ((State.fresh mainThread block : State Thread Call).place other).inRun = true →
      other = mainThread := by
    intro other inside
    cases inside
  exact of_only others rfl fun _ place => by cases place

end LoopsAlone

variable [DecidableEq Thread]

/-- A call of `application_run` is let in while the application runs and no
thread state is stored. -/
theorem run_cases (interprets : state.main.interprets = true) (thread : Thread) :
    (state.app.runPhase = .run ∧ state.app.pythonThreadState = none ∧
      state.run thread = { state with gil := none }.moveTo thread .saving) ∨
      (¬(state.app.runPhase = .run ∧ state.app.pythonThreadState = none) ∧
        ∃ text, state.run thread = state.conclude thread (.error text)) := by
  unfold State.run
  rcases appReady_global interprets with ⟨running, ready⟩ | ⟨not_running, refused⟩
  · rw [ready]
    cases tstate : state.app.pythonThreadState with
    | none => exact .inl ⟨running, rfl, by simp [tstate]⟩
    | some owner => exact .inr ⟨by simp, _, by simp [tstate]; rfl⟩
  · rw [refused]
    exact .inr ⟨fun both => not_running both.1, _, rfl⟩

theorem listen_cases (interprets : state.main.interprets = true) (thread : Thread) :
    (state.app.runPhase = .run ∧
      state.listen thread = { state with gil := none }.moveTo thread .issuing) ∨
      (state.app.runPhase ≠ .run ∧
        ∃ text, state.listen thread = state.conclude thread (.error text)) := by
  unfold State.listen
  rcases appReady_global interprets with ⟨running, ready⟩ | ⟨not_running, refused⟩
  · rw [ready]
    exact .inl ⟨running, rfl⟩
  · rw [refused]
    exact .inr ⟨not_running, _, rfl⟩

variable [DecidableEq Call] {mainThread : Thread} {label : Label Thread Call}

theorem check_cases (state : State Thread Call) (thread : Thread) (call : Call) :
    (state.app.cmdQ.watcher.active = true ∧
      state.check thread call = state.moveTo thread (.putting call)) ∨
      (state.app.cmdQ.watcher.active = false ∧ state.check thread call =
        (state.withDrain (state.drain.refuse call)).moveTo thread (.issued call false)) := by
  unfold State.check
  cases state.app.cmdQ.watcher.active with
  | true => exact .inl ⟨rfl, rfl⟩
  | false => exact .inr ⟨rfl, rfl⟩

theorem LoopsAlone.step_iff (alone : LoopsAlone state) (taken : Step mainThread state label next) :
    LoopsAlone next ↔ EntersApart state label next := by
  have other (kept : LoopsAlone next) (elsewhere : ∀ thread, label ≠ .run thread) :
      LoopsAlone next ↔ EntersApart state label next :=
    ⟨fun _ thread same => absurd same (elsewhere thread), fun _ => kept⟩
  cases taken with
  | start => exact other (alone.congr rfl rfl) (by simp)
  | finish =>
      have frame := frame_finish state
      exact other (alone.congr frame.place frame.tstate) (by simp)
  | stop =>
      refine other ?_ (by simp)
      unfold State.stop
      cases stopped : state.app.stop with
      | none => exact alone.congr rfl rfl
      | some app => exact alone.congr rfl (stop_tstate stopped)
  | finalize => exact other (alone.congr rfl rfl) (by simp)
  | delete =>
      have frame := frame_delete state
      exact other (alone.congr frame.place frame.tstate) (by simp)
  | @deliver signal =>
      have frame := frame_deliver state signal
      exact other (alone.congr frame.place frame.tstate) (by simp)
  | acquire | release => exact other (alone.congr rfl rfl) (by simp)
  | @terminate thread signal =>
      have frame := frame_terminate state signal
      exact other (alone.congr frame.place frame.tstate) (by simp)
  | drain => exact other (alone.congr rfl rfl) (by simp)
  | store saving =>
      refine other (alone.inside ?_ rfl rfl (by simp)) (by simp)
      rw [saving]
      rfl
  | leave looping =>
      have own := (alone.stored _).mpr (by rw [looping]; rfl)
      refine other (alone.inside ?_ rfl ?_ ?_) (by simp)
      · rw [looping]
        rfl
      · exact own
      · intro owner same
        cases same
        exact own
  | restore _ _ restoring =>
      have own := (alone.stored _).mpr (by rw [restoring]; rfl)
      refine other (alone.inside ?_ rfl own (by simp)) (by simp)
      rw [restoring]
      rfl
  | clear restored =>
      refine other (alone.inside ?_ rfl rfl (by simp)) (by simp)
      rw [restored]
      rfl
  | @listen thread interprets _ python =>
      refine other ?_ (by simp)
      rcases listen_cases interprets thread with ⟨_, entered⟩ | ⟨_, text, refused⟩
      · rw [entered]
        exact alone.outside (by rw [python]; rfl) rfl rfl rfl
      · rw [refused]
        exact alone.congr rfl rfl
  | check issuing =>
      refine other ?_ (by simp)
      rcases check_cases state _ _ with ⟨_, passed⟩ | ⟨_, refused⟩
      · rw [passed]
        exact alone.outside (by rw [issuing]; rfl) rfl rfl rfl
      · rw [refused]
        exact alone.outside (by rw [issuing]; rfl) rfl rfl rfl
  | enqueue putting =>
      refine other (alone.outside (by rw [putting]; rfl) ?_ rfl rfl) (by simp)
      split <;> rfl
  | send sending =>
      exact other (alone.outside (by rw [sending]; rfl) rfl rfl rfl) (by simp)
  | reacquire _ _ issued =>
      exact other (alone.outside (by rw [issued]; rfl) rfl rfl rfl) (by simp)
  | @run thread interprets _ python =>
      rcases run_cases interprets thread with ⟨running, none, entered⟩ | ⟨closed, text, refused⟩
      · rw [entered]
        constructor
        · intro kept called same _ other saving
          cases same
          have differs : other ≠ thread := by
            intro same
            rw [same, python] at saving
            cases saving
          refine differs (kept.alone other thread ?_ ?_)
          · simp [State.moveTo, Function.update_of_ne differs, saving, Place.inRun]
          · simp [State.moveTo, Place.inRun]
        · intro apart
          exact alone.enter none (apart thread rfl running)
      · rw [refused]
        have kept : LoopsAlone (state.conclude thread (.error text)) := alone.congr rfl rfl
        refine ⟨fun _ => ?_, fun _ => kept⟩
        intro called same running other saving
        cases same
        cases tstate : state.app.pythonThreadState with
        | none => exact closed ⟨running, tstate⟩
        | some owner =>
            have inside := (alone.stored owner).mp tstate
            have same := alone.alone owner other (Place.inRun_of_stored inside)
              (by rw [saving]; rfl)
            rw [same, saving] at inside
            cases inside

/-- Two threads are in `application_run` at once, or one of them has the thread
state of another, only if one has called it in the moment in which another one
has given up the lock but not yet stored its state. -/
theorem loopsAlone_iff_entersApart {start : State Thread Call}
    {path : List (Label Thread Call × State Thread Call)}
    (run : (system mainThread Call).Run start path) :
    AllStates LoopsAlone start path ↔ AllSteps EntersApart start path := by
  apply run.allStates_iff
  · obtain ⟨block, rfl⟩ := run.starts
    exact LoopsAlone.fresh mainThread block
  · intro state label next _ alone taken
    exact alone.step_iff taken

def running : State Bool Unit :=
  { State.fresh false fun _ => listenCmd with
    app := (Application.ctor fun _ => listenCmd).start
    main := .module }

/-- The first thread is about to store its state, and the second one has the lock. -/
def switched : State Bool Unit := { running.run false with gil := some true }

def switching : List (Label Bool Unit × State Bool Unit) :=
  [(.start, running), (.run false, running.run false), (.acquire true, switched),
    (.run true, switched.run true)]

theorem not_loopsAlone_switching :
    ¬AllStates LoopsAlone (.fresh false fun _ => listenCmd) switching := by
  intro alone
  have run : (system false Unit).Run (.fresh false fun _ => listenCmd) switching :=
    ⟨⟨_, rfl⟩, .start rfl, .run rfl rfl rfl, .acquire rfl rfl rfl, .run rfl rfl rfl, trivial⟩
  have apart := (loopsAlone_iff_entersApart run).mp alone
  exact apart.2.2.2.1 true rfl rfl false rfl

end Striga.Singlev.ApplicationRun
