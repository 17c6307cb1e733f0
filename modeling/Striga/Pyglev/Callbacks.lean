import Striga.CmdQ
import Striga.Pyglev.EstSocket

/-! The callbacks of a pyglev event loop: the break, the dispatch of one command
and the drain, `event_loop_run` around them, and what the garbage collector
calls. -/

set_option autoImplicit false

namespace Striga.Pyglev

open Lib

/-- What a read of freed memory gives: what was there, NULL, or anything else. -/
inductive FreedRead where
  | kept
  | null
  | wild
  deriving DecidableEq, Repr

/-- Whether others refer to an object when the loop drops it, and what is then
read from its `next`. -/
inductive Dropped where
  | held
  | freed (next : FreedRead)
  deriving DecidableEq, Repr

structure DispatchOutcome where
  raises : Bool
  resolve : ResolveOutcome

namespace EventLoop

/-- The destructor of a listen command. -/
def freeListenCmd (self : EventLoop) (listenCmd : Addr) (cmd : ListenCmd) : EventLoop :=
  { self with
    listenCmds := Function.update self.listenCmds listenCmd none
    arrays :=
      match cmd.watchers with
      | none => self.arrays
      | some array => Function.update self.arrays array none }

/-- `Py_DECREF(listen_cmd)` and the read of `listen_cmd->next` that follows it. -/
def dropListenCmd (self : EventLoop) (listenCmd : Addr) (dropped : Dropped) :
    Except Crash (EventLoop × Option Addr) :=
  let self := (self.calls [.decref listenCmd]).addRefs listenCmd (-1)
  match self.listenCmds listenCmd with
  | none => self.crash .dangling
  | some cmd =>
      match dropped with
      | .held => .ok (self, cmd.next)
      | .freed next =>
          if 0 < self.refs listenCmd then
            .ok (self, cmd.next)
          else
            let self := self.freeListenCmd listenCmd cmd
            match next with
            | .kept => .ok (self, cmd.next)
            | .null => .ok (self, none)
            | .wild => self.crash .dangling

/-- The loop of `_event_loop_break`, as far as the answers given take it. -/
def closeListed (self : EventLoop) : Option Addr → List Dropped → Except Crash EventLoop
  | none, _ => .ok self
  | some _, [] => self.crash .unfinished
  | some listenCmd, dropped :: rest => do
      let self ← self.listenCmdClose listenCmd
      let (self, next) ← self.dropListenCmd listenCmd dropped
      closeListed { self with listenCommands := next } next rest

def stopBreakSignals (self : EventLoop) : EventLoop :=
  let sigint :=
    if self.sigintWatcher.active then self.sigintWatcher.stop self.loop
    else (self.loop, self.sigintWatcher)
  let sigterm :=
    if self.sigtermWatcher.active then self.sigtermWatcher.stop sigint.1
    else (sigint.1, self.sigtermWatcher)
  { self with loop := sigterm.1, sigintWatcher := sigint.2, sigtermWatcher := sigterm.2 }

def eventLoopBreak (self : EventLoop) (drops : List Dropped) : Except Crash EventLoop := do
  let self := self.stopBreakSignals.restoreThread
  let self ← self.closeListed self.listenCommands drops
  .ok self.saveThread

/-- The branch `pyglev_evloop_cmd_CALLABLE` up to the call. -/
def beginCallable (self : EventLoop) (callable : Addr) : EventLoop :=
  self.restoreThread.calls [.tupleNew, .callObject callable]

/-- The same branch from the return of the call on. -/
def endCallable (self : EventLoop) (callable : Addr) (raises : Bool) : EventLoop :=
  let self := self.calls (if raises then [.errPrint] else [.decrefTemporary])
  ((self.calls [.decrefTemporary, .decref callable]).addRefs callable (-1)).saveThread

/-- The branch `pyglev_evloop_cmd_LISTEN_CMD_01` up to the first step of xschedule. -/
def linkListenCmd (self : EventLoop) (listenCmd : Addr) : Except Crash EventLoop :=
  match self.listenCmds listenCmd with
  | none => self.crash .dangling
  | some cmd =>
      .ok { self.setListenCmd listenCmd { cmd with next := self.listenCommands } with
        listenCommands := some listenCmd }

def dispatchUnknown (self : EventLoop) : EventLoop :=
  (self.restoreThread.calls
    [.unicodeFromFormat, .errSetObject, .decrefTemporary, .errWriteUnraisable]).saveThread

/-- The switch of `_event_loop_on_cmdq_ready`. -/
def dispatch (self : EventLoop) (cmd : SubjectCmd Addr) (outcome : DispatchOutcome) :
    Except Crash EventLoop :=
  if cmd.id = 0 then
    .ok ((self.beginCallable cmd.subject).endCallable cmd.subject outcome.raises)
  else if cmd.id = 50 then do
    let self ← self.linkListenCmd cmd.subject
    self.listenCmdXschedule01 cmd.subject outcome.resolve
  else
    .ok self.dispatchUnknown

/-- `_event_loop_on_cmdq_ready`, with what its calls of `cmd_q_get` return; where
these are used up the next one returns -1. -/
def onCmdqReady (self : EventLoop) :
    List (Int32 × SubjectCmd Addr × DispatchOutcome) → Except Crash EventLoop
  | [] => .ok self
  | (qsize, cmd, outcome) :: rest =>
      if qsize < 0 then
        .ok self
      else do
        let self ← self.dispatch cmd outcome
        if qsize = 0 then .ok self else onCmdqReady self rest

/-- The loop of `event_loop_tp_traverse`; a visit may ask to stop. -/
def traverseListed (self : EventLoop) : Option Addr → List Bool → Except Crash EventLoop
  | none, _ => .ok self
  | some _, [] => self.crash .unfinished
  | some listenCmd, stops :: rest =>
      if stops then
        .ok self
      else
        match self.listenCmds listenCmd with
        | none => self.crash .dangling
        | some cmd => traverseListed { self with listenCommands := cmd.next } cmd.next rest

/-- `event_loop_tp_traverse`, which visits `on_error` first. -/
def tpTraverse (self : EventLoop) (onErrorStops : Bool) (visits : List Bool) :
    Except Crash EventLoop :=
  if onErrorStops then .ok self else self.traverseListed self.listenCommands visits

/-- `event_loop_tp_clear`: `Py_CLEAR` sets the loop's own variable to NULL, and
the loop goes on with its `next`. -/
def tpClear (self : EventLoop) : Except Crash EventLoop :=
  match self.listenCommands with
  | none => .ok self
  | some _ => self.crash .nullDereference

/-- A traversal that comes to its end leaves the list with another head. -/
theorem traverseListed_eq (visits : List Bool) : ∀ {self next : EventLoop} {head : Option Addr},
    self.traverseListed head visits = .ok next →
      ∃ listenCommands, next = { self with listenCommands := listenCommands } := by
  induction visits with
  | nil =>
      intro self next head done
      cases head with
      | none =>
          cases done
          exact ⟨_, rfl⟩
      | some listenCmd => cases done
  | cons stops rest ih =>
      intro self next head done
      cases head with
      | none =>
          cases done
          exact ⟨_, rfl⟩
      | some listenCmd =>
          unfold traverseListed at done
          split at done
          · cases done
            exact ⟨_, rfl⟩
          · split at done
            · cases done
            · obtain ⟨listenCommands, rfl⟩ := ih done
              exact ⟨listenCommands, rfl⟩

theorem tpTraverse_eq {self next : EventLoop} {onErrorStops : Bool} {visits : List Bool}
    (done : self.tpTraverse onErrorStops visits = .ok next) :
    ∃ listenCommands, next = { self with listenCommands := listenCommands } := by
  unfold tpTraverse at done
  split at done
  · cases done
    exact ⟨_, rfl⟩
  · exact traverseListed_eq visits done

theorem tpClear_eq {self next : EventLoop} (done : self.tpClear = .ok next) : next = self := by
  unfold tpClear at done
  split at done
  · cases done
    rfl
  · cases done

end EventLoop

/-- A libev callback, with what the calls it makes answer. -/
inductive Callback where
  | breakSignal (drops : List Dropped)
  | cmdqReady (gets : List (Int32 × SubjectCmd Addr × DispatchOutcome))
  | listenSocketIo (array : Nat) (revents : EvEvents) (reported : EventLoop.Reported)
      (outcome : AcceptOutcome)
  | estSocketIo (socket : Addr) (revents : EvEvents) (outcome : ReadOutcome)

namespace EventLoop

def callback (self : EventLoop) : Callback → Except Crash EventLoop
  | .breakSignal drops => self.eventLoopBreak drops
  | .cmdqReady gets => self.onCmdqReady gets
  | .listenSocketIo array revents reported outcome =>
      self.onListenSocketIo array revents reported outcome
  | .estSocketIo socket revents outcome => self.onEstSocketIo socket revents outcome

/-- What `ev_run` does between two points where it polls: some callbacks, one
after the other. -/
def evRun (self : EventLoop) (callbacks : List Callback) : Except Crash EventLoop :=
  callbacks.foldlM callback self

/-- `event_loop_run`. -/
def run (self : EventLoop) (callbacks : List Callback) : Except Crash EventLoop := do
  let self ← self.saveThread.evRun callbacks
  .ok self.restoreThread

end EventLoop

end Striga.Pyglev
