import Striga.Libev
import Striga.Lib.LinkedList
import Striga.Pyglev.Gil
import Mathlib.Data.Finset.Card

/-! `struct event_loop` of `pyglev/core/evloop.h` with the objects, watchers and
descriptors that its callbacks use, and `_event_loop_error`. What the kernel and
the interpreter answer is a parameter of each function. -/

set_option autoImplicit false

namespace Striga.Pyglev

open Lib

inductive ListenCmdStatus where
  | init
  | resolving
  | listening
  | closed
  deriving DecidableEq, Repr

/-- `struct listen_cmd`; `watchers` is the index of an allocated array. -/
structure ListenCmd where
  next : Option Addr
  host : Option String
  port : String
  status : ListenCmdStatus
  watchersCount : Nat
  watchers : Option Nat
  deriving DecidableEq, Repr

/-- An array of watchers: the `data` and the `fd` of each. -/
structure WatcherArray where
  data : Addr
  fds : List Int
  deriving DecidableEq, Repr

/-- `struct est_socket` with the `fd` and `events` of its watcher. -/
structure EstSocket where
  next : Option Addr
  protocol : Option Addr
  fd : Int
  events : Int
  deriving DecidableEq, Repr

/-- The watcher waits for `EV_READ`. -/
def EstSocket.reads (socket : EstSocket) : Bool := (BitVec.ofInt 32 socket.events).getLsbD 0

/-- The watcher waits for `EV_WRITE`. -/
def EstSocket.writes (socket : EstSocket) : Bool := (BitVec.ofInt 32 socket.events).getLsbD 1

/-- The events that come of the kernel are some of those that the watcher waits for. -/
def EstSocket.awaits (socket : EstSocket) (revents : EvEvents) : Bool :=
  (!revents.read || socket.reads) && (!revents.write || socket.writes)

/-- The io watchers of a loop, by where they are in memory. -/
inductive Io where
  | listen (array index : Nat)
  | est (socket : Addr)
  deriving DecidableEq, Repr

/-- `refs` and `protocolRefs` count the references that the loop has taken and
not given back: on scheduled objects, and on protocols. A descriptor that is
closed while it is not open goes to `badCloses`. -/
structure EventLoop where
  loop : EvLoop
  active : Finset Io
  sigintWatcher : EvSignal
  sigtermWatcher : EvSignal
  gil : Gil
  listenCommands : Option Addr
  listenCmds : Addr → Option ListenCmd
  arrays : Nat → Option WatcherArray
  nextArray : Nat
  establishedSockets : Option Addr
  estSockets : Addr → Option EstSocket
  openFds : Finset Int
  badCloses : List Int
  refs : Addr → Int
  protocolRefs : Addr → Int

namespace EventLoop

/-- `event_loop_ctor` without break signals, and without the interpreter's part. -/
def fresh (gil : Gil) : EventLoop where
  loop := ⟨0⟩
  active := ∅
  sigintWatcher := EvSignal.init
  sigtermWatcher := EvSignal.init
  gil := gil
  listenCommands := none
  listenCmds := fun _ => none
  arrays := fun _ => none
  nextArray := 0
  establishedSockets := none
  estSockets := fun _ => none
  openFds := ∅
  badCloses := []
  refs := fun _ => 0
  protocolRefs := fun _ => 0

def crash {Value : Type} (self : EventLoop) (fault : Fault) : Except Crash Value :=
  .error ⟨fault, self.gil⟩

def restoreThread (self : EventLoop) : EventLoop := { self with gil := self.gil.restoreThread }

def saveThread (self : EventLoop) : EventLoop := { self with gil := self.gil.saveThread }

def calls (self : EventLoop) (apis : List PyCall) : EventLoop :=
  { self with gil := self.gil.calls apis }

def ioStart (self : EventLoop) (io : Io) : EventLoop :=
  if io ∈ self.active then self
  else { self with active := insert io self.active, loop := self.loop.ref }

def ioStop (self : EventLoop) (io : Io) : EventLoop :=
  if io ∈ self.active then
    { self with active := self.active.erase io, loop := self.loop.unref }
  else self

def openFd (self : EventLoop) (fd : Int) : EventLoop :=
  { self with openFds := insert fd self.openFds }

def closeFd (self : EventLoop) (fd : Int) : EventLoop :=
  if fd ∈ self.openFds then { self with openFds := self.openFds.erase fd }
  else { self with badCloses := self.badCloses ++ [fd] }

def setListenCmd (self : EventLoop) (addr : Addr) (cmd : ListenCmd) : EventLoop :=
  { self with listenCmds := Function.update self.listenCmds addr (some cmd) }

def setEstSocket (self : EventLoop) (addr : Addr) (socket : EstSocket) : EventLoop :=
  { self with estSockets := Function.update self.estSockets addr (some socket) }

def addRefs (self : EventLoop) (object : Addr) (change : Int) : EventLoop :=
  { self with refs := Function.update self.refs object (self.refs object + change) }

def addProtocolRefs (self : EventLoop) (protocol : Addr) (change : Int) : EventLoop :=
  { self with
    protocolRefs := Function.update self.protocolRefs protocol
      (self.protocolRefs protocol + change) }

/-- The links of the listen commands. -/
def listenLinks (self : EventLoop) : LinkedList.Links Addr :=
  fun addr => (self.listenCmds addr).map ListenCmd.next

/-- The links of the established sockets. -/
def estLinks (self : EventLoop) : LinkedList.Links Addr :=
  fun addr => (self.estSockets addr).map EstSocket.next

/-- The watchers that keep `ev_run` from returning. -/
def Counted (self : EventLoop) : Prop :=
  self.loop.activecnt = self.active.card +
    (if self.sigintWatcher.active then 1 else 0) + (if self.sigtermWatcher.active then 1 else 0)

variable {self : EventLoop} {io : Io}

@[simp] theorem calls_calls (before after : List PyCall) :
    (self.calls before).calls after = self.calls (before ++ after) := by
  simp [calls, Gil.calls]

theorem refs_addRefs (object other : Addr) (change : Int) :
    (self.addRefs object change).refs other =
      self.refs other + if object = other then change else 0 := by
  by_cases same : object = other
  · subst same
    simp [addRefs]
  · simp [addRefs, same, Ne.symm same]

theorem Counted.calls (counted : self.Counted) (apis : List PyCall) :
    (self.calls apis).Counted := counted

theorem Counted.saveThread (counted : self.Counted) : self.saveThread.Counted := counted

theorem Counted.ioStart (counted : self.Counted) : (self.ioStart io).Counted := by
  unfold EventLoop.ioStart
  split
  · exact counted
  · rename_i inactive
    simp only [Counted, EvLoop.ref, Finset.card_insert_of_notMem inactive] at counted ⊢
    omega

theorem Counted.ioStop (counted : self.Counted) : (self.ioStop io).Counted := by
  unfold EventLoop.ioStop
  split
  · rename_i isActive
    have positive := Finset.card_pos.mpr ⟨io, isActive⟩
    simp only [Counted, EvLoop.unref, Finset.card_erase_of_mem isActive] at counted ⊢
    omega
  · exact counted

theorem ioStart_eq : ∃ loop, self.ioStart io =
    { self with active := insert io self.active, loop := loop } := by
  unfold ioStart
  split
  · rename_i isActive
    exact ⟨self.loop, by rw [Finset.insert_eq_of_mem isActive]⟩
  · exact ⟨_, rfl⟩

theorem ioStop_eq : ∃ loop, self.ioStop io =
    { self with active := self.active.erase io, loop := loop } := by
  unfold ioStop
  split
  · exact ⟨_, rfl⟩
  · rename_i inactive
    exact ⟨self.loop, by rw [Finset.erase_eq_of_notMem inactive]⟩

theorem ioStarts_eq (ios : List Io) : ∀ {self : EventLoop}, ∃ loop,
    (self.Counted → (ios.foldl EventLoop.ioStart self).Counted) ∧
      ios.foldl EventLoop.ioStart self =
        { self with active := self.active ∪ ios.toFinset, loop := loop } := by
  induction ios with
  | nil =>
      intro self
      exact ⟨self.loop, fun counted => counted, by simp⟩
  | cons io ios ih =>
      intro self
      obtain ⟨first, started⟩ := @ioStart_eq self io
      obtain ⟨loop, counts, same⟩ := @ih (self.ioStart io)
      refine ⟨loop, fun counted => counts counted.ioStart, ?_⟩
      rw [List.foldl_cons, same, started]
      simp [Finset.insert_union]

/-- What one error report meets: `self->on_error`, NULL or else with whether its
call raises, and the text of `strerror_r`. -/
structure Reported where
  onError : Option Bool
  strerror : String
  deriving DecidableEq, Repr

/-- The interpreter calls of `_event_loop_error` once the text is formatted. -/
def reportCalls (subject : Addr) (errorType : ErrorType) (errorCode : Int) (text : String)
    (reported : Reported) : List PyCall :=
  let (strerrorCalls, text) :=
    if errorType = .errno then
      ([.unicodeFromFormat, .decrefTemporary], text ++ ": " ++ reported.strerror)
    else ([], text)
  let resultCalls :=
    match reported.onError with
    | none => [.unicodeAsUtf8, .sysWriteStderr, .errClear]
    | some true => [.errPrint]
    | some false => [.decrefTemporary]
  strerrorCalls ++ [.callOnError subject errorType.code errorCode text] ++ resultCalls ++
    [.decrefTemporary, .decrefTemporary, .decrefTemporary]

/-- `_event_loop_error`; its `format` and arguments come as the text they give,
which is none where a `%s` is given NULL. -/
def error (self : EventLoop) (subject : Addr) (errorType : ErrorType) (errorCode : Int)
    (text : Option String) (reported : Reported) : Except Crash EventLoop :=
  let self := self.restoreThread.calls [.longFromLong, .longFromLong, .unicodeFromFormat]
  match text with
  | none => self.crash .nullFormat
  | some text =>
      .ok (self.calls (reportCalls subject errorType errorCode text reported)).saveThread

/-- A report changes nothing but what the lock has seen. -/
theorem error_within (self : EventLoop) (subject : Addr) (errorType : ErrorType) (errorCode : Int)
    (text : Option String) (reported : Reported) :
    Within Gil.Released Gil.Released self.gil EventLoop.gil
      (fun next => ∃ gil, next = { self with gil := gil })
      (self.error subject errorType errorCode text reported) := by
  apply Within.after fun tstate (released : self.gil.Released tstate) => released.restoreThread
  cases text with
  | none => exact fun tstate held => (held.calls _).disciplined
  | some text =>
      apply Within.ok
      · intro tstate held
        exact ((held.calls _).calls _).saveThread
      · exact ⟨_, rfl⟩

end EventLoop

end Striga.Pyglev
