import Striga.Pyglev.ListenCmd

/-! Connections: `pyglev/core/estsock.c`, and accepting them on a listening
socket as in `pyglev/core/lstncmd.c`. -/

set_option autoImplicit false

namespace Striga.Pyglev

open Lib

/-- The conversion of a `long` to an `int`. -/
def cInt (value : Int) : Int := (Int32.ofInt value).toInt

/-- The assert of `ev_io_start`: no bit but `EV_READ`, `EV_WRITE` and `EV__IOFDSET`. -/
def legalMask (events : Int) : Bool := BitVec.ofInt 32 events &&& ~~~0x83#32 == 0#32

/-- What resuming a protocol gives: it ends, it raises, or it yields an object,
with the `long` that `PyLong_AsLong` makes of it unless that fails. -/
inductive Resumed where
  | finished
  | raised
  | yielded (value : Option Int)
  deriving DecidableEq, Repr

inductive EstOutcome where
  | noMemory
  | allocated (socket : Addr) (first : Resumed)
  deriving DecidableEq, Repr

/-- What `PyUnicode_FromFormat` makes of the `repr` of an object, and `PyUnicode_AsUTF8`
of that: NULL from the one; NULL from the other, which the C library prints for `%s` or
does not; or a text. -/
inductive ReprOutcome where
  | null
  | noUtf8 (printed : Bool)
  | text
  deriving DecidableEq, Repr

/-- What `on_accept` returns. -/
inductive ProtocolOutcome where
  | null
  | falsy (object : Addr)
  | notGenerator (object : Addr) (repr : ReprOutcome)
  | generator (object : Addr) (est : EstOutcome)
  deriving DecidableEq, Repr

inductive AcceptOutcome where
  | failed (errno : Int) (reported : EventLoop.Reported)
  | accepted (clientSocket : Int) (notListening : EventLoop.Reported) (protocol : ProtocolOutcome)
  deriving DecidableEq, Repr

inductive ReadOutcome where
  | closed
  | failed
  | data (size : Nat) (resumed : Resumed)
  deriving DecidableEq, Repr

/-- The number given is one that `ev_io_start` takes. -/
def Resumed.legal : Resumed → Bool
  | .yielded (some value) => legalMask (cInt value)
  | _ => true

def EstOutcome.legal : EstOutcome → Bool
  | .allocated _ first => first.legal
  | .noMemory => true

def ReprOutcome.printed : ReprOutcome → Bool
  | .null => false
  | .noUtf8 printed => printed
  | .text => true

/-- Nothing ends the process on the way to what is made of a protocol. -/
def ProtocolOutcome.survived : ProtocolOutcome → Bool
  | .null | .falsy _ => true
  | .notGenerator _ repr => repr.printed
  | .generator _ est => est.legal

/-- The connection that comes of it, with its first mask. -/
def EstOutcome.connects : EstOutcome → Option (Addr × Int)
  | .allocated socket (.yielded (some value)) => some (socket, cInt value)
  | _ => none

/-- The memory that is left behind by a protocol that does not get that far. -/
def EstOutcome.leaves : EstOutcome → Option Addr
  | .allocated _ (.yielded (some _)) => none
  | .allocated socket _ => some socket
  | .noMemory => none

theorem EstOutcome.connects_eq_some {est : EstOutcome} {socket : Addr} {mask : Int} :
    est.connects = some (socket, mask) ↔
      ∃ value, est = .allocated socket (.yielded (some value)) ∧ cInt value = mask := by
  rcases est with _ | ⟨addr, _ | _ | _ | value⟩
  all_goals simp [connects]

def ProtocolOutcome.connects : ProtocolOutcome → Option (Addr × Addr × Int)
  | .generator object est => est.connects.map fun connection => (object, connection)
  | _ => none

def ProtocolOutcome.leaves : ProtocolOutcome → Option Addr
  | .generator _ est => est.leaves
  | _ => none

/-- The memory that `malloc` gives for a connection. -/
def ProtocolOutcome.allocates : ProtocolOutcome → Option Addr
  | .generator _ (.allocated socket _) => some socket
  | _ => none

theorem ProtocolOutcome.allocates_of_connects {protocol : ProtocolOutcome} {object addr : Addr}
    {mask : Int} (connects : protocol.connects = some (object, addr, mask)) :
    protocol.allocates = some addr := by
  cases protocol with
  | generator subject est =>
      obtain ⟨connection, connected, same⟩ := Option.map_eq_some_iff.mp connects
      cases same
      obtain ⟨value, rfl, _⟩ := EstOutcome.connects_eq_some.mp connected
      rfl
  | _ => cases connects

theorem ProtocolOutcome.allocates_of_leaves {protocol : ProtocolOutcome} {addr : Addr}
    (leaves : protocol.leaves = some addr) : protocol.allocates = some addr := by
  rcases protocol with _ | _ | _ | ⟨object, est⟩
  · cases leaves
  · cases leaves
  · cases leaves
  · rcases est with _ | ⟨socket, _ | _ | _ | mask⟩
    · cases leaves
    · exact leaves
    · exact leaves
    · exact leaves
    · cases leaves

theorem ProtocolOutcome.leaves_of_allocates {protocol : ProtocolOutcome} {addr : Addr}
    (allocates : protocol.allocates = some addr) (refused : protocol.connects = none) :
    protocol.leaves = some addr := by
  rcases protocol with _ | _ | _ | ⟨object, est⟩
  · cases allocates
  · cases allocates
  · cases allocates
  · rcases est with _ | ⟨socket, _ | _ | _ | mask⟩
    · cases allocates
    · exact allocates
    · exact allocates
    · exact allocates
    · cases refused

/-- Neither the kernel nor `malloc` gives out what is in use. -/
def AcceptOutcome.Fresh (eventLoop : EventLoop) : AcceptOutcome → Prop
  | .failed _ _ => True
  | .accepted clientSocket _ protocol => clientSocket ∉ eventLoop.openFds ∧
      ∀ addr, protocol.allocates = some addr → eventLoop.estSockets addr = none

namespace EventLoop

/-- `_est_socket_preconfig`. -/
def estSocketPreconfig (self : EventLoop) (addr : Addr) (socket : EstSocket) :
    Resumed → Except Crash (EventLoop × Bool)
  | .finished | .raised => .ok (self, false)
  | .yielded none => .ok (self.calls [.longAsLong, .errOccurred], false)
  | .yielded (some value) =>
      let eventMask := cInt value
      let self := self.calls (if eventMask < 0 then [.longAsLong, .errOccurred] else [.longAsLong])
      let self := self.ioStop (.est addr)
      let self := self.setEstSocket addr { socket with events := eventMask }
      if legalMask eventMask then .ok (self.ioStart (.est addr), true)
      else self.crash .illegalMask

/-- How `est_socket_new` fails once the memory is allocated: the reference to the
protocol is given back, the memory is not. -/
def estSocketFail (self : EventLoop) (addr : Addr) (socket : EstSocket) (protocol : Addr) :
    EventLoop :=
  ((self.calls [.decref protocol]).addProtocolRefs protocol (-1)).setEstSocket addr
    { socket with protocol := none }

def estSocketNew (self : EventLoop) (protocol : Addr) (fd : Int) :
    EstOutcome → Except Crash (EventLoop × Option Addr)
  | .noMemory => .ok (self.calls [.errSetString], none)
  | .allocated addr first =>
      let socket : EstSocket := ⟨none, some protocol, fd, 0⟩
      let self := (self.setEstSocket addr socket).calls [.incref protocol]
      let self := (self.addProtocolRefs protocol 1).calls [.iterNext protocol]
      match first with
      | .finished | .raised => .ok (self.estSocketFail addr socket protocol, none)
      | .yielded value => do
          let (self, res) ← self.estSocketPreconfig addr socket (.yielded value)
          if res then .ok (self.calls [.decrefTemporary], some addr)
          else .ok ((self.calls [.decrefTemporary]).estSocketFail addr socket protocol, none)

/-- The label `exit_release_gil` of `_on_listen_socket_accept`, and what follows it. -/
def exitReleaseGil (self : EventLoop) (clientSocket : Int) : EventLoop :=
  self.saveThread.closeFd clientSocket

/-- The label `exit_remove_protocol`. -/
def exitRemoveProtocol (self : EventLoop) (protocol : Addr) (clientSocket : Int) : EventLoop :=
  ((self.calls [.decref protocol]).addProtocolRefs protocol (-1)).exitReleaseGil clientSocket

/-- Put a new connection in front of the list. -/
def linkEstSocket (self : EventLoop) (addr : Addr) : EventLoop :=
  { self with
    estSockets := Function.update self.estSockets addr ((self.estSockets addr).map fun socket =>
      { socket with next := self.establishedSockets })
    establishedSockets := some addr }

/-- The report of an object that is no generator. -/
def reportNotGenerator (self : EventLoop) : ReprOutcome → Except Crash EventLoop
  | .null => (self.calls [.unicodeFromFormat, .unicodeAsUtf8]).crash .nullUnicode
  | .noUtf8 false =>
      (self.calls [.unicodeFromFormat, .unicodeAsUtf8, .sysWriteStderr]).crash .nullFormat
  | .noUtf8 true | .text =>
      .ok (self.calls [.unicodeFromFormat, .unicodeAsUtf8, .sysWriteStderr, .decrefTemporary])

/-- `_on_listen_socket_accept` from its call of `on_accept` on. -/
def acceptProtocol (self : EventLoop) (listenCmd : Addr) (clientSocket : Int) :
    ProtocolOutcome → Except Crash EventLoop
  | .null => .ok ((self.calls [.callOnAccept listenCmd, .errPrint]).exitReleaseGil clientSocket)
  | .falsy object =>
      .ok (((self.calls [.callOnAccept listenCmd, .objectNot]).addProtocolRefs object
        1).exitRemoveProtocol object clientSocket)
  | .notGenerator object repr => do
      let self :=
        (self.calls [.callOnAccept listenCmd, .objectNot, .genCheck]).addProtocolRefs object 1
      let self ← self.reportNotGenerator repr
      .ok (self.exitRemoveProtocol object clientSocket)
  | .generator object est => do
      let self :=
        (self.calls [.callOnAccept listenCmd, .objectNot, .genCheck]).addProtocolRefs object 1
      match ← self.estSocketNew object clientSocket est with
      | (self, none) => .ok ((self.calls [.errPrint]).exitRemoveProtocol object clientSocket)
      | (self, some addr) =>
          .ok (((self.calls [.decref object]).addProtocolRefs object
            (-1)).linkEstSocket addr).saveThread

def onListenSocketAccept (self : EventLoop) (listenCmd : Addr) (cmd : ListenCmd) :
    AcceptOutcome → Except Crash EventLoop
  | .failed errno reported =>
      self.error listenCmd .errno errno (some "accepting on listen socket") reported
  | .accepted clientSocket notListening protocol =>
      let self := self.openFd clientSocket
      if cmd.status = .listening then
        self.restoreThread.acceptProtocol listenCmd clientSocket protocol
      else do
        let self ← self.error listenCmd .gener 1 (some "not LISTENING") notListening
        .ok (self.closeFd clientSocket)

/-- The listen command that the watchers of an array belong to. -/
def watcherData (self : EventLoop) (array : Nat) : Option (Addr × ListenCmd) :=
  (self.arrays array).bind fun watchers =>
    (self.listenCmds watchers.data).map fun cmd => (watchers.data, cmd)

def onListenSocketIo (self : EventLoop) (array : Nat) (revents : EvEvents)
    (reported : Reported) (outcome : AcceptOutcome) : Except Crash EventLoop :=
  match self.watcherData array with
  | none => self.crash .dangling
  | some (listenCmd, cmd) =>
      if revents.error then self.error listenCmd .gener 1 (some "listening") reported
      else if revents.read then self.onListenSocketAccept listenCmd cmd outcome
      else .ok self

/-- `_on_est_socket_read`; a connection whose protocol does not go on stays as it is. -/
def onEstSocketRead (self : EventLoop) (addr : Addr) (socket : EstSocket) (size : Nat)
    (resumed : Resumed) : Except Crash EventLoop := do
  let self := self.restoreThread.calls [.callSend socket.protocol size]
  let (self, res) ← self.estSocketPreconfig addr socket resumed
  let self :=
    if res then self.calls [.decrefTemporary]
    else
      match resumed with
      | .yielded _ => self.calls [.errPrint, .decrefTemporary]
      | .finished | .raised => self.calls [.errPrint]
  .ok self.saveThread

/-- `_on_est_socket_io`; ready to write and errors are only printed. -/
def onEstSocketIo (self : EventLoop) (addr : Addr) (revents : EvEvents) (outcome : ReadOutcome) :
    Except Crash EventLoop :=
  match self.estSockets addr with
  | none => self.crash .dangling
  | some socket =>
      if revents.read then
        match outcome with
        | .closed => .ok (self.ioStop (.est addr))
        | .failed => .ok self
        | .data size resumed => self.onEstSocketRead addr socket size resumed
      else .ok self

variable {self : EventLoop}

private theorem insert_erase_self {α : Type} [DecidableEq α] (items : Finset α) (item : α) :
    insert item (items.erase item) = insert item items := by
  ext other
  simp only [Finset.mem_insert, Finset.mem_erase]
  tauto

private theorem estSocketPreconfig_none {addr : Addr} {socket : EstSocket} {resumed : Resumed}
    (noMask : ∀ value, resumed ≠ .yielded (some value)) :
    ∃ gil, (∀ tstate, self.gil.Held tstate → gil.Held tstate) ∧
      self.estSocketPreconfig addr socket resumed = .ok ({ self with gil := gil }, false) := by
  rcases resumed with _ | _ | value
  · exact ⟨self.gil, fun _ held => held, rfl⟩
  · exact ⟨self.gil, fun _ held => held, rfl⟩
  · cases value with
    | none => exact ⟨_, fun _ held => held.calls _, rfl⟩
    | some value => exact absurd rfl (noMask value)

private theorem estSocketPreconfig_some (addr : Addr) (socket : EstSocket) {value : Int}
    (legal : legalMask (cInt value) = true) :
    ∃ next loop gil, self.estSocketPreconfig addr socket (.yielded (some value)) =
      .ok (next, true) ∧
      (self.Counted → next.Counted) ∧ (∀ tstate, self.gil.Held tstate → gil.Held tstate) ∧
      next = { self with
        estSockets := Function.update self.estSockets addr
          (some { socket with events := cInt value })
        active := insert (.est addr) self.active
        loop := loop
        gil := gil } := by
  let apis : List PyCall := if cInt value < 0 then [.longAsLong, .errOccurred] else [.longAsLong]
  let stopped := ((self.calls apis).ioStop (.est addr)).setEstSocket addr
    { socket with events := cInt value }
  have result : self.estSocketPreconfig addr socket (.yielded (some value)) =
    .ok (stopped.ioStart (.est addr), true) := if_pos legal
  obtain ⟨first, same⟩ := @ioStop_eq (self.calls apis) (.est addr)
  obtain ⟨loop, started⟩ := @ioStart_eq stopped (.est addr)
  refine ⟨_, loop, self.gil.calls apis, result, ?_, fun _ held => held.calls _, ?_⟩
  · intro counted
    have before : ((self.calls apis).ioStop (.est addr)).Counted := Counted.ioStop counted
    exact Counted.ioStart before
  · rw [started]
    simp only [stopped]
    rw [same]
    simp only [setEstSocket, calls, insert_erase_self]

/-- The process ends in `ev_io_start`. -/
private theorem estSocketPreconfig_illegal (addr : Addr) (socket : EstSocket) {value : Int}
    (illegal : legalMask (cInt value) = false) :
    ∃ crash, self.estSocketPreconfig addr socket (.yielded (some value)) = .error crash ∧
      ∀ tstate, self.gil.Held tstate → crash.gil.Held tstate := by
  let apis : List PyCall := if cInt value < 0 then [.longAsLong, .errOccurred] else [.longAsLong]
  obtain ⟨loop, stopped⟩ := @ioStop_eq (self.calls apis) (.est addr)
  have result : self.estSocketPreconfig addr socket (.yielded (some value)) =
      .error ⟨.illegalMask, ((self.calls apis).ioStop (.est addr)).gil⟩ :=
    if_neg (by rw [illegal]; exact Bool.false_ne_true)
  refine ⟨_, result, fun tstate held => ?_⟩
  rw [stopped]
  exact held.calls apis

/-- A connection that came to nothing, as `est_socket_new` leaves it. -/
def leave (self : EventLoop) (fd : Int) (left : Option Addr) : EventLoop :=
  match left with
  | none => self
  | some addr => self.setEstSocket addr ⟨none, none, fd, 0⟩

/-- Giving up a connection takes back the reference that it began with. -/
private theorem estSocketFail_eq (addr protocol : Addr) (fd : Int) (before after : List PyCall) :
    ((((self.setEstSocket addr ⟨none, some protocol, fd, 0⟩).calls before).addProtocolRefs protocol
      1).calls after).estSocketFail addr ⟨none, some protocol, fd, 0⟩ protocol =
        (self.calls (before ++ after ++ [.decref protocol])).leave fd (some addr) := by
  have back : self.protocolRefs protocol + 1 + -1 = self.protocolRefs protocol := by omega
  simp [estSocketFail, leave, setEstSocket, addProtocolRefs, calls, Gil.calls, back]

private theorem estSocketNew_refused {est : EstOutcome} (refused : est.connects = none)
    (protocol : Addr) (fd : Int) :
    ∃ gil, (∀ tstate, self.gil.Held tstate → gil.Held tstate) ∧
      self.estSocketNew protocol fd est =
        .ok (({ self with gil := gil } : EventLoop).leave fd est.leaves, none) := by
  cases est with
  | noMemory => exact ⟨_, fun _ held => held.calls _, rfl⟩
  | allocated addr first =>
      rcases first with _ | _ | value
      · exact ⟨_, fun _ held => held.calls _, congrArg (fun self => Except.ok (self, none))
          (estSocketFail_eq addr protocol fd [.incref protocol] [.iterNext protocol])⟩
      · exact ⟨_, fun _ held => held.calls _, congrArg (fun self => Except.ok (self, none))
          (estSocketFail_eq addr protocol fd [.incref protocol] [.iterNext protocol])⟩
      · cases value with
        | none =>
            let started := ((self.setEstSocket addr ⟨none, some protocol, fd, 0⟩).calls
              [.incref protocol]).addProtocolRefs protocol 1
            have joined : ((started.calls [.iterNext protocol]).calls
                [.longAsLong, .errOccurred]).calls [.decrefTemporary] =
              started.calls [.iterNext protocol, .longAsLong, .errOccurred, .decrefTemporary] := by
              simp
            have failed := @estSocketFail_eq self addr protocol fd [.incref protocol]
              [.iterNext protocol, .longAsLong, .errOccurred, .decrefTemporary]
            change (started.calls _).estSocketFail addr _ protocol = _ at failed
            rw [← joined] at failed
            exact ⟨_, fun _ held => held.calls _,
              congrArg (fun self => Except.ok (self, none)) failed⟩
        | some value => cases refused

/-- `est_socket_new` up to the first step of the protocol. -/
def begun (self : EventLoop) (addr protocol : Addr) (fd : Int) : EventLoop :=
  (((self.setEstSocket addr ⟨none, some protocol, fd, 0⟩).calls
    [.incref protocol]).addProtocolRefs protocol 1).calls [.iterNext protocol]

private theorem estSocketNew_yielded (addr protocol : Addr) (fd : Int) (value : Int) :
    self.estSocketNew protocol fd (.allocated addr (.yielded (some value))) =
      (self.begun addr protocol fd).estSocketPreconfig addr ⟨none, some protocol, fd, 0⟩
        (.yielded (some value)) >>= fun configured =>
          if configured.2 then .ok (configured.1.calls [.decrefTemporary], some addr)
          else .ok ((configured.1.calls [.decrefTemporary]).estSocketFail addr
            ⟨none, some protocol, fd, 0⟩ protocol, none) := rfl

private theorem estSocketNew_connected (protocol : Addr) (fd : Int) (addr : Addr) {value : Int}
    (legal : legalMask (cInt value) = true) :
    ∃ next loop gil,
      self.estSocketNew protocol fd (.allocated addr (.yielded (some value))) =
        .ok (next, some addr) ∧
      (self.Counted → next.Counted) ∧ (∀ tstate, self.gil.Held tstate → gil.Held tstate) ∧
      next = { self with
        estSockets := Function.update self.estSockets addr
          (some ⟨none, some protocol, fd, cInt value⟩)
        protocolRefs := Function.update self.protocolRefs protocol (self.protocolRefs protocol + 1)
        active := insert (.est addr) self.active
        loop := loop
        gil := gil } := by
  obtain ⟨configured, loop, gil, done, counts, keeps, same⟩ :=
    @estSocketPreconfig_some (self.begun addr protocol fd) addr ⟨none, some protocol, fd, 0⟩ _ legal
  refine ⟨configured.calls [.decrefTemporary], loop, gil.calls [.decrefTemporary], ?_, ?_, ?_, ?_⟩
  · rw [estSocketNew_yielded, done]
    rfl
  · intro counted
    have before : (self.begun addr protocol fd).Counted := counted
    exact (counts before).calls _
  · exact fun _ held => (keeps _ ((held.calls _).calls _)).calls _
  · rw [same]
    simp [begun, calls, setEstSocket, addProtocolRefs]

private theorem estSocketNew_illegal {est : EstOutcome} (illegal : est.legal = false)
    (protocol : Addr) (fd : Int) :
    ∃ crash, self.estSocketNew protocol fd est = .error crash ∧
      ∀ tstate, self.gil.Held tstate → crash.gil.Held tstate := by
  rcases est with _ | ⟨addr, _ | _ | _ | value⟩
  · cases illegal
  · cases illegal
  · cases illegal
  · cases illegal
  · obtain ⟨crash, failed, keeps⟩ := @estSocketPreconfig_illegal (self.begun addr protocol fd) addr
      ⟨none, some protocol, fd, 0⟩ _ illegal
    refine ⟨crash, ?_, fun tstate held => keeps tstate ((held.calls _).calls _)⟩
    rw [estSocketNew_yielded, failed]
    rfl

/-- What `_on_listen_socket_accept` makes of a connection: one that is established
is the first of the list; any other is closed. -/
def Accepted (self : EventLoop) (clientSocket : Int) (protocol : ProtocolOutcome)
    (next : EventLoop) : Prop :=
  match protocol.connects with
  | some (object, addr, mask) => ∃ loop gil, (self.Counted → next.Counted) ∧ next = { self with
      estSockets := Function.update self.estSockets addr
        (some ⟨self.establishedSockets, some object, clientSocket, mask⟩)
      establishedSockets := some addr
      protocolRefs := Function.update self.protocolRefs object (self.protocolRefs object + 1)
      active := insert (.est addr) self.active
      loop := loop
      gil := gil }
  | none => ∃ gil, next =
      (({ self with gil := gil } : EventLoop).leave clientSocket protocol.leaves).closeFd
        clientSocket

private theorem exitRemoveProtocol_eq (protocol : Addr) (clientSocket : Int) :
    (self.addProtocolRefs protocol 1).exitRemoveProtocol protocol clientSocket =
      (self.calls [.decref protocol]).exitReleaseGil clientSocket := by
  have back : self.protocolRefs protocol + 1 + -1 = self.protocolRefs protocol := by omega
  simp [exitRemoveProtocol, addProtocolRefs, calls, back]

/-- A connection that came to nothing is closed, and its protocol given back. -/
private theorem exitRemoveProtocol_leave {gil : Gil} (object : Addr) (clientSocket : Int)
    (left : Option Addr) (apis : List PyCall) :
    ((({ self.addProtocolRefs object 1 with gil := gil } : EventLoop).leave clientSocket
      left).calls apis).exitRemoveProtocol object clientSocket =
    (({ self with gil := ((gil.calls apis).calls [.decref object]).saveThread } :
      EventLoop).leave clientSocket left).closeFd clientSocket := by
  have back : self.protocolRefs object + 1 + -1 = self.protocolRefs object := by omega
  rw [exitRemoveProtocol, exitReleaseGil]
  congr 1
  cases left with
  | none => simp [leave, addProtocolRefs, calls, saveThread, back]
  | some addr => simp [leave, addProtocolRefs, setEstSocket, calls, saveThread, back]

private theorem leave_gil (fd : Int) (left : Option Addr) : (self.leave fd left).gil =
    self.gil := by
  cases left with
  | none => rfl
  | some addr => rfl

private theorem acceptProtocol_generator (listenCmd object : Addr) (clientSocket : Int)
    (est : EstOutcome) :
    self.acceptProtocol listenCmd clientSocket (.generator object est) =
      ((self.calls [.callOnAccept listenCmd, .objectNot, .genCheck]).addProtocolRefs object
        1).estSocketNew object clientSocket est >>= fun made =>
          match made.2 with
          | none => .ok ((made.1.calls [.errPrint]).exitRemoveProtocol object clientSocket)
          | some addr => .ok (((made.1.calls [.decref object]).addProtocolRefs object
              (-1)).linkEstSocket addr).saveThread := by
  simp only [acceptProtocol]
  congr 1
  funext made
  obtain ⟨next, _ | addr⟩ := made <;> rfl

theorem acceptProtocol_accepted (listenCmd : Addr) (clientSocket : Int)
    {protocol : ProtocolOutcome} (survived : protocol.survived = true) :
    ∃ next, self.acceptProtocol listenCmd clientSocket protocol = .ok next ∧
      self.Accepted clientSocket protocol next ∧
      ∀ tstate, self.gil.Held tstate → next.gil.Released tstate := by
  unfold Accepted
  cases protocol with
  | null =>
      refine ⟨_, rfl, ⟨_, rfl⟩, ?_⟩
      intro tstate held
      rw [exitReleaseGil, closeFd_gil]
      exact (held.calls _).saveThread
  | falsy object =>
      refine ⟨_, rfl, ?_⟩
      rw [exitRemoveProtocol_eq]
      refine ⟨⟨_, rfl⟩, ?_⟩
      intro tstate held
      rw [exitReleaseGil, closeFd_gil]
      exact ((held.calls _).calls _).saveThread
  | notGenerator object repr =>
      have reported : ((self.calls [.callOnAccept listenCmd, .objectNot, .genCheck]).addProtocolRefs
          object 1).reportNotGenerator repr = .ok ((self.calls [.callOnAccept listenCmd, .objectNot,
            .genCheck, .unicodeFromFormat, .unicodeAsUtf8, .sysWriteStderr,
            .decrefTemporary]).addProtocolRefs object 1) := by
        rcases repr with _ | _ | _
        · cases survived
        · obtain rfl := survived
          simp [reportNotGenerator, addProtocolRefs, calls, Gil.calls]
        · simp [reportNotGenerator, addProtocolRefs, calls, Gil.calls]
      simp only [acceptProtocol, reported]
      refine ⟨_, rfl, ?_⟩
      rw [exitRemoveProtocol_eq]
      refine ⟨⟨_, rfl⟩, ?_⟩
      intro tstate held
      rw [exitReleaseGil, closeFd_gil]
      exact ((held.calls _).calls _).saveThread
  | generator object est =>
      let before :=
        (self.calls [.callOnAccept listenCmd, .objectNot, .genCheck]).addProtocolRefs object 1
      rw [acceptProtocol_generator]
      cases connects : est.connects with
      | none =>
          obtain ⟨gil, keeps, result⟩ :=
            @estSocketNew_refused before est connects object clientSocket
          have left := @exitRemoveProtocol_leave (self.calls [.callOnAccept listenCmd, .objectNot,
            .genCheck]) gil object clientSocket est.leaves [.errPrint]
          simp only [ProtocolOutcome.connects, connects, Option.map_none]
          refine ⟨_, congrArg (· >>= _) result, ⟨_, left⟩, ?_⟩
          intro tstate held
          refine (congrArg (fun next : EventLoop => next.gil.Released tstate) left).mpr ?_
          rw [closeFd_gil, leave_gil]
          exact (((keeps _ (held.calls _)).calls _).calls _).saveThread
      | some connection =>
          obtain ⟨addr, mask⟩ := connection
          obtain ⟨value, rfl, rfl⟩ := EstOutcome.connects_eq_some.mp connects
          obtain ⟨next, loop, gil, result, counts, keeps, same⟩ :=
            @estSocketNew_connected before object clientSocket addr _ survived
          have forth : self.protocolRefs object + 1 + 1 + -1 = self.protocolRefs object + 1 := by
            omega
          simp only [ProtocolOutcome.connects, connects, Option.map_some]
          refine ⟨_, congrArg (· >>= _) result,
            ⟨loop, (gil.calls [.decref object]).saveThread, fun counted => ?_, ?_⟩, ?_⟩
          · exact (counts counted).calls [.decref object]
          · rw [same]
            simp [before, calls, addProtocolRefs, linkEstSocket, saveThread, forth]
          · intro tstate held
            have kept : (next.gil.calls [.decref object]).Held tstate := by
              rw [same]
              exact (keeps tstate (held.calls _)).calls _
            exact kept.saveThread

theorem acceptProtocol_crashes (listenCmd : Addr) (clientSocket : Int)
    {protocol : ProtocolOutcome} (crashes : protocol.survived = false) :
    ∃ crash, self.acceptProtocol listenCmd clientSocket protocol = .error crash ∧
      ∀ tstate, self.gil.Held tstate → crash.gil.Held tstate := by
  rcases protocol with _ | object | ⟨object, _ | printed | _⟩ | ⟨object, est⟩
  · cases crashes
  · cases crashes
  · exact ⟨_, rfl, fun tstate held => (held.calls _).calls _⟩
  · obtain rfl : printed = false := crashes
    exact ⟨_, rfl, fun tstate held => (held.calls _).calls _⟩
  · cases crashes
  · obtain ⟨crash, failed, keeps⟩ := @estSocketNew_illegal ((self.calls [.callOnAccept listenCmd,
      .objectNot, .genCheck]).addProtocolRefs object 1) est crashes object clientSocket
    refine ⟨crash, ?_, fun tstate held => keeps tstate (held.calls _)⟩
    rw [acceptProtocol_generator, failed]
    rfl

theorem acceptProtocol_within (listenCmd : Addr) (clientSocket : Int)
    (protocol : ProtocolOutcome) :
    Within Gil.Held Gil.Released self.gil EventLoop.gil (self.Accepted clientSocket protocol)
      (self.acceptProtocol listenCmd clientSocket protocol) := by
  cases survived : protocol.survived with
  | true =>
      obtain ⟨next, done, accepted, released⟩ :=
        @acceptProtocol_accepted self listenCmd clientSocket protocol survived
      rw [done]
      exact Within.ok released accepted
  | false =>
      obtain ⟨crash, failed, held⟩ :=
        @acceptProtocol_crashes self listenCmd clientSocket protocol survived
      rw [failed]
      exact fun tstate before => (held tstate before).disciplined

theorem onEstSocketRead_fault (addr : Addr) (socket : EstSocket) (size : Nat)
    (resumed : Resumed) : Ensures (fun crash => crash.fault.unlisted = true) (fun _ => True)
      (self.onEstSocketRead addr socket size resumed) := by
  unfold onEstSocketRead
  rcases resumed with _ | _ | _ | value
  · trivial
  · trivial
  · trivial
  · unfold estSocketPreconfig
    dsimp only
    split <;> trivial

private theorem estSocketNew_fault (protocol : Addr) (fd : Int) (est : EstOutcome) :
    Ensures (fun crash => crash.fault.unlisted = true) (fun _ => True)
      (self.estSocketNew protocol fd est) := by
  rcases est with _ | ⟨addr, _ | _ | _ | value⟩
  · trivial
  · trivial
  · trivial
  · trivial
  · rw [estSocketNew_yielded]
    unfold estSocketPreconfig
    dsimp only
    split <;> trivial

theorem acceptProtocol_fault (listenCmd : Addr) (clientSocket : Int) (protocol : ProtocolOutcome) :
    Ensures (fun crash => crash.fault.unlisted = true) (fun _ => True)
      (self.acceptProtocol listenCmd clientSocket protocol) := by
  rcases protocol with _ | object | ⟨object, _ | _ | _⟩ | ⟨object, est⟩
  · trivial
  · trivial
  · rfl
  · rename_i printed
    cases printed <;> trivial
  · trivial
  · rw [acceptProtocol_generator]
    refine (estSocketNew_fault object clientSocket est).bind fun made _ => ?_
    obtain ⟨next, _ | addr⟩ := made <;> trivial

/-- What an event on a listening socket does. -/
inductive ListenEvent (self : EventLoop) (cmd : ListenCmd) :
    AcceptOutcome → EventLoop → Prop where
  | nothing {outcome gil} : ListenEvent self cmd outcome { self with gil := gil }
  | notListening {clientSocket reported protocol gil} :
      cmd.status ≠ .listening →
      ListenEvent self cmd (.accepted clientSocket reported protocol)
        (({ self.openFd clientSocket with gil := gil } : EventLoop).closeFd clientSocket)
  | accepted {clientSocket reported protocol gil next} :
      cmd.status = .listening →
      ({ self.openFd clientSocket with gil := gil } : EventLoop).Accepted clientSocket
        protocol next →
      ListenEvent self cmd (.accepted clientSocket reported protocol) next

theorem onListenSocketAccept_within (listenCmd : Addr) (cmd : ListenCmd) (outcome : AcceptOutcome) :
    Within Gil.Released Gil.Released self.gil EventLoop.gil (self.ListenEvent cmd outcome)
      (self.onListenSocketAccept listenCmd cmd outcome) := by
  unfold onListenSocketAccept
  cases outcome with
  | failed errno reported =>
      apply (error_within self _ _ _ _ _).mono
      intro next same
      obtain ⟨gil, rfl⟩ := same
      exact .nothing
  | accepted clientSocket notListening protocol =>
      dsimp only
      by_cases listening : cmd.status = .listening
      · rw [if_pos listening]
        apply Within.after fun tstate (released : self.gil.Released tstate) =>
          released.restoreThread
        exact (acceptProtocol_within listenCmd clientSocket protocol).mono
          fun next accepted => .accepted listening accepted
      · rw [if_neg listening]
        apply Within.bind (error_within (self.openFd clientSocket) _ _ _ _ _)
        intro next same
        obtain ⟨gil, rfl⟩ := same
        apply Within.ok
        · intro tstate before
          rwa [closeFd_gil]
        · exact .notListening listening

theorem onListenSocketIo_within (array : Nat) (revents : EvEvents) (reported : Reported)
    (outcome : AcceptOutcome) :
    Within Gil.Released Gil.Released self.gil EventLoop.gil
      (fun next => ∃ listenCmd cmd, self.watcherData array = some (listenCmd, cmd) ∧
        self.ListenEvent cmd outcome next)
      (self.onListenSocketIo array revents reported outcome) := by
  unfold onListenSocketIo
  cases found : self.watcherData array with
  | none => exact fun _ released => released.disciplined
  | some data =>
      obtain ⟨listenCmd, cmd⟩ := data
      dsimp only
      split
      · apply (error_within self _ _ _ _ _).mono
        intro next same
        obtain ⟨gil, rfl⟩ := same
        exact ⟨listenCmd, cmd, rfl, .nothing⟩
      · split
        · apply (onListenSocketAccept_within listenCmd cmd outcome).mono
          exact fun next event => ⟨listenCmd, cmd, rfl, event⟩
        · apply Within.ok
          · exact fun _ released => released
          · exact ⟨listenCmd, cmd, rfl, .nothing⟩

/-- What an event on an established connection does. -/
inductive EstEvent (self : EventLoop) (addr : Addr) (socket : EstSocket) :
    ReadOutcome → EventLoop → Prop where
  | nothing {outcome gil} : EstEvent self addr socket outcome { self with gil := gil }
  | closed : EstEvent self addr socket .closed (self.ioStop (.est addr))
  | resumed {size value loop gil} {next : EventLoop} :
      (self.Counted → next.Counted) →
      next = { self with
        estSockets := Function.update self.estSockets addr
          (some { socket with events := cInt value })
        active := insert (.est addr) self.active
        loop := loop
        gil := gil } →
      EstEvent self addr socket (.data size (.yielded (some value))) next

private theorem onEstSocketRead_event (addr : Addr) (socket : EstSocket) (size : Nat)
    (resumed : Resumed) :
    Within Gil.Released Gil.Released self.gil EventLoop.gil
      (self.EstEvent addr socket (.data size resumed))
      (self.onEstSocketRead addr socket size resumed) := by
  let sent := self.restoreThread.calls [.callSend socket.protocol size]
  have held {tstate : TState} (released : self.gil.Released tstate) : sent.gil.Held tstate :=
    released.restoreThread.calls _
  unfold onEstSocketRead
  by_cases goes : ∃ value, resumed = .yielded (some value)
  · obtain ⟨value, rfl⟩ := goes
    cases legal : legalMask (cInt value) with
    | true =>
        obtain ⟨next, loop, gil, configured, counts, keeps, same⟩ :=
          @estSocketPreconfig_some sent addr socket _ legal
        simp only [sent] at configured
        simp only [configured]
        apply Within.ok
        · intro tstate released
          have kept : (next.gil.calls [.decrefTemporary]).Held tstate := by
            rw [same]
            exact (keeps tstate (held released)).calls _
          exact kept.saveThread
        · apply @EstEvent.resumed _ _ _ size value loop (gil.calls [.decrefTemporary]).saveThread
          · exact fun counted => (counts counted).saveThread
          · rw [same]
            rfl
    | false =>
        obtain ⟨crash, failed, keeps⟩ := @estSocketPreconfig_illegal sent addr socket _ legal
        simp only [sent] at failed
        simp only [failed]
        exact fun tstate released => (keeps tstate (held released)).disciplined
  · have noMask : ∀ value, resumed ≠ .yielded (some value) :=
      fun value same => goes ⟨value, same⟩
    obtain ⟨gil, keeps, configured⟩ := @estSocketPreconfig_none sent addr socket resumed noMask
    simp only [sent] at configured
    simp only [configured]
    apply Within.ok
    · intro tstate released
      rcases resumed with _ | _ | value
      all_goals exact ((keeps tstate (held released)).calls _).saveThread
    · rcases resumed with _ | _ | value
      all_goals exact .nothing

theorem onEstSocketIo_within (addr : Addr) (revents : EvEvents) (outcome : ReadOutcome) :
    Within Gil.Released Gil.Released self.gil EventLoop.gil
      (fun next => ∃ socket, self.estSockets addr = some socket ∧
        self.EstEvent addr socket outcome next)
      (self.onEstSocketIo addr revents outcome) := by
  unfold onEstSocketIo
  cases found : self.estSockets addr with
  | none => exact fun _ released => released.disciplined
  | some socket =>
      dsimp only
      split
      · cases outcome with
        | closed =>
            apply Within.ok
            · intro tstate released
              obtain ⟨loop, stopped⟩ := @ioStop_eq self (.est addr)
              rwa [stopped]
            · exact ⟨socket, rfl, .closed⟩
        | failed => exact Within.ok (fun _ released => released) ⟨socket, rfl, .nothing⟩
        | data size resumed =>
            exact (onEstSocketRead_event addr socket size resumed).mono
              fun next event => ⟨socket, rfl, event⟩
      · exact Within.ok (fun _ released => released) ⟨socket, rfl, .nothing⟩

end EventLoop

end Striga.Pyglev
