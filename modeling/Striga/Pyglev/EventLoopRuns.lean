import Striga.CmdQDrain
import Striga.Pyglev.EventLoopBreak

/-! A pyglev event loop with its command queue, over any run of `schedule` and
`_xschedule` calls from any thread, the drain and the other callbacks of the loop
thread, and the garbage collector. A scheduling call holds the interpreter lock
from its `cmd_q_put` to its `Py_INCREF`; a callback that needs the lock waits for
it. -/

set_option autoImplicit false

namespace Striga.Pyglev

open Lib
open Lib.LinkedList (Chain)

namespace EventLoop

/-- The switch of `_event_loop_on_cmdq_ready` up to where it calls out: a callable
is about to be called, a listen command is linked. -/
def beginDispatch (self : EventLoop) (cmd : SubjectCmd Addr) : Except Crash EventLoop :=
  if cmd.id = 0 then .ok (self.beginCallable cmd.subject)
  else if cmd.id = 50 then self.linkListenCmd cmd.subject
  else .ok self

/-- The rest of it. -/
def endDispatch (self : EventLoop) (cmd : SubjectCmd Addr) (outcome : DispatchOutcome) :
    Except Crash EventLoop :=
  if cmd.id = 0 then .ok (self.endCallable cmd.subject outcome.raises)
  else if cmd.id = 50 then self.listenCmdXschedule01 cmd.subject outcome.resolve
  else .ok self.dispatchUnknown

theorem dispatch_eq (self : EventLoop) (cmd : SubjectCmd Addr) (outcome : DispatchOutcome) :
    self.dispatch cmd outcome =
      self.beginDispatch cmd >>= fun begun => begun.endDispatch cmd outcome := by
  unfold dispatch beginDispatch endDispatch
  split
  · rfl
  · split
    · rfl
    · rfl

theorem beginDispatch_cases {self next : EventLoop} {cmd : SubjectCmd Addr}
    (done : self.beginDispatch cmd = .ok next) :
    (cmd.id = 0 ∧ next = self.beginCallable cmd.subject) ∨
      (cmd.id = 50 ∧ ∃ found, self.listenCmds cmd.subject = some found ∧
        next = { self.setListenCmd cmd.subject { found with next := self.listenCommands } with
          listenCommands := some cmd.subject }) ∨
      (cmd.id ≠ 0 ∧ cmd.id ≠ 50 ∧ next = self) := by
  unfold beginDispatch at done
  split at done
  · rename_i callable
    cases done
    exact .inl ⟨callable, rfl⟩
  · rename_i notCallable
    split at done
    · rename_i listens
      unfold linkListenCmd at done
      split at done
      · cases done
      · rename_i found live
        cases done
        exact .inr (.inl ⟨listens, found, live, rfl⟩)
    · rename_i notListens
      cases done
      exact .inr (.inr ⟨notCallable, notListens, rfl⟩)

theorem endDispatch_cases {self next : EventLoop} {cmd : SubjectCmd Addr}
    {outcome : DispatchOutcome} (fresh : outcome.resolve.Fresh self.openFds)
    (done : self.endDispatch cmd outcome = .ok next) :
    (cmd.id = 0 ∧ next = self.endCallable cmd.subject outcome.raises) ∨
      (cmd.id = 50 ∧ ∃ found, self.listenCmds cmd.subject = some found ∧
        self.Scheduled cmd.subject found outcome.resolve next) ∨
      (cmd.id ≠ 0 ∧ cmd.id ≠ 50 ∧ next = self.dispatchUnknown) := by
  unfold endDispatch at done
  split at done
  · rename_i callable
    cases done
    exact .inl ⟨callable, rfl⟩
  · rename_i notCallable
    split at done
    · rename_i listens
      obtain ⟨found, live, scheduled⟩ :=
        (listenCmdXschedule01_within cmd.subject outcome.resolve).of_ok done
      exact .inr (.inl ⟨listens, found, live, scheduled fresh⟩)
    · rename_i notListens
      cases done
      exact .inr (.inr ⟨notCallable, notListens, rfl⟩)

/-- `event_loop_ctor`, as far as the loop keeps what it does. -/
def ctor (gil : Gil) (openFds : Finset Int) (dieOnSignal : Bool) : EventLoop :=
  let self := { fresh gil with openFds := openFds }
  if dieOnSignal then
    let sigint := EvSignal.start self.loop EvSignal.init
    let sigterm := EvSignal.start sigint.1 EvSignal.init
    { self with loop := sigterm.1, sigintWatcher := sigint.2, sigtermWatcher := sigterm.2 }
  else self

/-- `cmd_q_size` of `event_loop_ctor`. -/
def cmdQSize : UInt32 := 128

end EventLoop

namespace EventLoopRuns

/-- What the loop thread does between two points where others may come in, and
what the garbage collector calls. -/
inductive Work where
  | dispatch (cmd : SubjectCmd Addr) (qsize : Int32)
  | finish (cmd : SubjectCmd Addr) (qsize : Int32) (outcome : DispatchOutcome)
  | breakSignal (drops : List Dropped)
  | listenSocketIo (array index : Nat) (revents : EvEvents) (reported : EventLoop.Reported)
      (outcome : AcceptOutcome)
  | estSocketIo (socket : Addr) (revents : EvEvents) (outcome : ReadOutcome)
  | traverse (onErrorStops : Bool) (visits : List Bool)
  | clear

def Work.perform (eventLoop : EventLoop) : Work → Except Crash EventLoop
  | .dispatch cmd _ => eventLoop.beginDispatch cmd
  | .finish cmd _ outcome => eventLoop.endDispatch cmd outcome
  | .breakSignal drops => eventLoop.eventLoopBreak drops
  | .listenSocketIo array _ revents reported outcome =>
      eventLoop.onListenSocketIo array revents reported outcome
  | .estSocketIo socket revents outcome => eventLoop.onEstSocketIo socket revents outcome
  | .traverse onErrorStops visits => eventLoop.tpTraverse onErrorStops visits
  | .clear => eventLoop.tpClear

def Work.breaks : Work → Bool
  | .breakSignal _ => true
  | _ => false

/-- `window` is the scheduling call that has put its command and not taken its
reference yet. `scheduled` are the listen commands that were accepted, `refused`
the calls that were not. `broken` tells that a break was the last to happen among
breaks and scheduling calls. -/
structure State (Call : Type) where
  queue : CmdQDrain.State Call Addr
  eventLoop : EventLoop
  window : Option Call
  scheduled : List Addr
  refused : List Call
  broken : Bool
  fault : Option Fault

inductive Label (Call : Type) where
  | construct (listenCmd : Addr) (host : Option String) (port : String)
  | release (listenCmd : Addr)
  | mistyped (call : Call)
  | enqueue (call : Call)
  | send (call : Call)
  | incref (call : Call)
  | wake
  | get
  | work (work : Work)

variable {Call : Type} [DecidableEq Call]

/-- The drain moves on with the beginning and the end of a dispatch. -/
def Work.advance (queue : CmdQDrain.State Call Addr) : Work → CmdQDrain.State Call Addr
  | .dispatch cmd qsize =>
      { queue with
        consumer := .dispatching cmd qsize
        dispatched := queue.dispatched ++ [cmd] }
  | .finish _ qsize _ => { queue with consumer := .afterDispatch true qsize }
  | _ => queue

/-- When the work can be done. A connection gets no event that it does not wait for,
and a traversal an answer for each command of the list, where that is finite. -/
def State.Ready (state : State Call) : Work → Prop
  | .dispatch cmd qsize => state.queue.consumer = .holding cmd qsize ∧
      (cmd.id ≠ 50 → state.window = none)
  | .finish cmd qsize outcome => state.queue.consumer = .dispatching cmd qsize ∧
      (cmd.id ≠ 50 → state.window = none) ∧ outcome.resolve.Fresh state.eventLoop.openFds
  | .breakSignal drops => state.queue.consumer = .waiting ∧ state.window = none ∧
      (state.eventLoop.sigintWatcher.active = true ∨ state.eventLoop.sigtermWatcher.active = true) ∧
      ∀ addrs, Chain state.eventLoop.listenLinks state.eventLoop.listenCommands addrs →
        addrs.length ≤ drops.length
  | .listenSocketIo array index _ _ outcome => state.queue.consumer = .waiting ∧
      .listen array index ∈ state.eventLoop.active ∧ outcome.Fresh state.eventLoop
  | .estSocketIo socket revents _ => state.queue.consumer = .waiting ∧
      .est socket ∈ state.eventLoop.active ∧ ∀ found,
        state.eventLoop.estSockets socket = some found → found.awaits revents = true
  | .traverse _ visits => state.window = none ∧
      ∀ addrs, Chain state.eventLoop.listenLinks state.eventLoop.listenCommands addrs →
        addrs.length ≤ visits.length
  | .clear => state.window = none

def State.did (state : State Call) (work : Work) (next : EventLoop) : State Call :=
  { state with
    queue := work.advance state.queue
    eventLoop := next
    broken := state.broken || work.breaks }

/-- `schedule` takes any object, `_xschedule` listen commands. -/
def State.Schedules (state : State Call) (cmd : SubjectCmd Addr) : Prop :=
  cmd.id = 0 ∨ cmd.id = 50 ∧ state.eventLoop.listenCmds cmd.subject ≠ none

/-- The critical section of the `cmd_q_put` of a scheduling call. -/
def State.enqueue (state : State Call) (cmd : Call → SubjectCmd Addr) (call : Call) :
    State Call :=
  let queue := state.queue.enqueue cmd call
  if queue.phase call = .sending then
    { state with
      queue := queue
      window := some call
      scheduled := if (cmd call).id = 50 then (cmd call).subject :: state.scheduled
        else state.scheduled
      broken := false }
  else
    { state with queue := queue, refused := call :: state.refused, broken := false }

theorem State.enqueue_cases {cmd : Call → SubjectCmd Addr} {state : State Call}
    (active : state.queue.this.watcher.active = true) (valid : state.queue.this.WellFormed)
    (call : Call) :
    state.enqueue cmd call = { state with
        queue := { state.queue with
          phase := Function.update state.queue.phase call (.returned false) }
        refused := call :: state.refused
        broken := false } ∨
      ∃ after, after.pending = state.queue.this.pending ++ [cmd call] ∧
        state.enqueue cmd call = { state with
          queue := { state.queue with
            this := after
            phase := Function.update state.queue.phase call .sending
            accepted := state.queue.accepted ++ [call] }
          window := some call
          scheduled := if (cmd call).id = 50 then (cmd call).subject :: state.scheduled
            else state.scheduled
          broken := false } := by
  unfold State.enqueue
  dsimp only
  rcases @CmdQDrain.enqueue_cases _ _ _ cmd _ active valid call with
    refused | ⟨after, pending, accepted⟩
  · have phase : (state.queue.enqueue cmd call).phase call ≠ .sending := by simp [refused]
    rw [if_neg phase, refused]
    exact .inl rfl
  · have phase : (state.queue.enqueue cmd call).phase call = .sending := by simp [accepted]
    rw [if_pos phase, accepted]
    exact .inr ⟨after, pending, rfl⟩

/-- A listen command is freed by others only when the loop holds no reference to it
and no call is about to take one. -/
inductive Step (cmd : Call → SubjectCmd Addr) :
    State Call → Label Call → State Call → Prop where
  | construct {state listenCmd host port} :
      state.fault = none → state.eventLoop.listenCmds listenCmd = none →
      Step cmd state (.construct listenCmd host port)
        { state with
          eventLoop := state.eventLoop.setListenCmd listenCmd ⟨none, host, port, .init, 0, none⟩
          scheduled := state.scheduled.filter (· ≠ listenCmd) }
  | release {state listenCmd found} :
      state.fault = none → state.eventLoop.listenCmds listenCmd = some found →
      state.eventLoop.refs listenCmd ≤ 0 →
      (∀ call, state.window = some call → (cmd call).subject ≠ listenCmd) →
      Step cmd state (.release listenCmd)
        { state with eventLoop := state.eventLoop.freeListenCmd listenCmd found }
  | mistyped {state call} :
      state.fault = none → state.window = none → state.queue.phase call = .idle →
      call ∉ state.refused → (cmd call).id = 50 →
      state.eventLoop.listenCmds (cmd call).subject = none →
      Step cmd state (.mistyped call)
        { state with refused := call :: state.refused, broken := false }
  | enqueue {state call} :
      state.fault = none → state.window = none → state.queue.phase call = .idle →
      call ∉ state.refused → state.Schedules (cmd call) →
      Step cmd state (.enqueue call) (state.enqueue cmd call)
  | send {state call} :
      state.fault = none → state.queue.phase call = .sending →
      Step cmd state (.send call)
        { state with queue := { state.queue with
            this := state.queue.this.send
            phase := Function.update state.queue.phase call (.returned true) } }
  | incref {state call} :
      state.fault = none → state.window = some call → state.queue.phase call = .returned true →
      Step cmd state (.incref call)
        { state with
          eventLoop := state.eventLoop.addRefs (cmd call).subject 1
          window := none }
  | wake {state} :
      state.fault = none → state.queue.consumer = .waiting →
      state.queue.this.watcher.active = true → state.queue.this.watcher.sent = true →
      Step cmd state .wake
        { state with queue := { state.queue with
            this := { state.queue.this with watcher := state.queue.this.watcher.clear }
            consumer := .getting } }
  | get {state} :
      state.fault = none → state.queue.consumer = .getting →
      Step cmd state .get { state with queue := state.queue.get }
  | work {state work next} :
      state.fault = none → state.Ready work → work.perform state.eventLoop = .ok next →
      Step cmd state (.work work) (state.did work next)
  | crash {state work crash} :
      state.fault = none → state.Ready work → work.perform state.eventLoop = .error crash →
      Step cmd state (.work work) { state with fault := some crash.fault }

def system (cmd : Call → SubjectCmd Addr) : System (State Call) (Label Call) where
  initial state := ∃ loop block gil openFds dieOnSignal, state =
    ⟨CmdQDrain.State.fresh loop EventLoop.cmdQSize block, EventLoop.ctor gil openFds dieOnSignal,
      none, [], [], false, none⟩
  step := Step cmd

variable {cmd : Call → SubjectCmd Addr} {state next : State Call} {label : Label Call}

/-- The queue of a run goes through a run of the queue alone. -/
theorem queue_reachable (reachable : (system cmd).Reachable state) :
    (CmdQDrain.system cmd EventLoop.cmdQSize true).Reachable state.queue := by
  apply reachable.invariant fun state =>
    (CmdQDrain.system cmd EventLoop.cmdQSize true).Reachable state.queue
  · intro state initial
    obtain ⟨loop, block, gil, openFds, dieOnSignal, rfl⟩ := initial
    exact .start ⟨loop, block, rfl⟩
  · intro state label next reached taken
    cases taken with
    | construct | release | mistyped | incref | crash => exact reached
    | enqueue _ _ idle =>
        have moved := reached.step (.enqueue idle)
        unfold State.enqueue
        dsimp only
        split
        · exact moved
        · exact moved
    | send _ sending => exact reached.step (.send sending)
    | wake _ waiting active sent => exact reached.step (.wake waiting active sent)
    | get _ getting => exact reached.step (.get getting)
    | @work work after _ ready done =>
        cases work with
        | dispatch command qsize => exact reached.step (.dispatch ready.1)
        | finish command qsize outcome => exact reached.step (.finish ready.1)
        | _ => exact reached

theorem queue_active (reachable : (system cmd).Reachable state) :
    state.queue.this.watcher.active = true :=
  CmdQDrain.active (queue_reachable reachable)

theorem queue_wellFormed (reachable : (system cmd).Reachable state) :
    state.queue.this.WellFormed := by
  obtain ⟨history, _, same⟩ :=
    CmdQDrain.refines_history (by decide) (by decide) (queue_reachable reachable)
  exact same.queue.bounded

theorem queue_small (reachable : (system cmd).Reachable state) :
    state.queue.this.size.toNat ≤ 2 ^ 31 := by
  obtain ⟨history, reached, same⟩ :=
    CmdQDrain.refines_history (by decide) (by decide) (queue_reachable reachable)
  have size := Ring.Machine.Represents.size_eq (by decide) same.queue (History.capacity_eq reached)
  rw [size]
  decide

end EventLoopRuns

end Striga.Pyglev
