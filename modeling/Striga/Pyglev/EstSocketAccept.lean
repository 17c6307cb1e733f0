import Striga.Pyglev.Connections

/-! What `_on_listen_socket_accept` leaves of a connection: all of it, or nothing. -/

set_option autoImplicit false

namespace Striga.Pyglev

open Connections (leave_closeFd)

/-- The protocol is refused with a report that gets through, or no memory is to be
had for it, or its first step yields a mask that `ev_io_start` takes. -/
def ProtocolOutcome.Settles : ProtocolOutcome → Prop
  | .null | .falsy _ | .generator _ .noMemory => True
  | .notGenerator _ repr => repr.printed = true
  | .generator _ (.allocated _ first) =>
      ∃ value, first = .yielded (some value) ∧ legalMask (cInt value) = true

def AcceptOutcome.Settles : AcceptOutcome → Prop
  | .failed _ _ => True
  | .accepted _ _ protocol => protocol.Settles

/-- Nothing ends the process, and no memory is left. -/
theorem ProtocolOutcome.settles_iff {protocol : ProtocolOutcome} :
    protocol.Settles ↔ protocol.survived = true ∧ protocol.leaves = none := by
  rcases protocol with _ | object | ⟨object, repr⟩ | ⟨object, _ | ⟨addr, _ | _ | _ | value⟩⟩
  all_goals
    simp [Settles, survived, leaves, EstOutcome.legal, EstOutcome.leaves, Resumed.legal]

theorem ProtocolOutcome.connects_eq_some {protocol : ProtocolOutcome} {object addr : Addr}
    {mask : Int} : protocol.connects = some (object, addr, mask) ↔ ∃ value,
      protocol = .generator object (.allocated addr (.yielded (some value))) ∧
        cInt value = mask := by
  cases protocol with
  | generator subject est =>
      simp only [connects, Option.map_eq_some_iff, Prod.mk.injEq, generator.injEq]
      constructor
      · intro connects
        obtain ⟨connection, connected, same, rfl⟩ := connects
        obtain ⟨value, made, mask⟩ := EstOutcome.connects_eq_some.mp connected
        exact ⟨value, ⟨same, made⟩, mask⟩
      · intro same
        obtain ⟨value, ⟨rfl, rfl⟩, rfl⟩ := same
        exact ⟨_, rfl, rfl, rfl⟩
  | null | falsy object | notGenerator object => simp [connects]

namespace EventLoop

/-- One connection more: the first of the list, watched, with its descriptor open
and a reference to its protocol. -/
structure Establishes (before : EventLoop) (clientSocket : Int) (object addr : Addr) (mask : Int)
    (after : EventLoop) : Prop where
  unused : before.estSockets addr = none
  sockets : after.estSockets = Function.update before.estSockets addr
    (some ⟨before.establishedSockets, some object, clientSocket, mask⟩)
  front : after.establishedSockets = some addr
  watched : after.active = insert (.est addr) before.active
  opened : after.openFds = insert clientSocket before.openFds
  badCloses : after.badCloses = before.badCloses
  retained : after.protocolRefs =
    Function.update before.protocolRefs object (before.protocolRefs object + 1)

/-- Nothing of a connection is left: a descriptor that was not open before was
closed again, and only once. -/
structure LeavesNoTrace (before after : EventLoop) : Prop where
  sockets : after.estSockets = before.estSockets
  list : after.establishedSockets = before.establishedSockets
  active : after.active = before.active
  openFds : after.openFds = before.openFds
  badCloses : after.badCloses = before.badCloses
  protocolRefs : after.protocolRefs = before.protocolRefs

/-- What an accept came to. -/
def Completes (before : EventLoop) (outcome : AcceptOutcome) (after : EventLoop) : Prop :=
  match outcome with
  | .failed _ _ => before.LeavesNoTrace after
  | .accepted clientSocket _ protocol =>
      (∃ object addr first mask, protocol = .generator object (.allocated addr first) ∧
          before.Establishes clientSocket object addr mask after) ∨
        before.LeavesNoTrace after

variable {self : EventLoop}

theorem LeavesNoTrace.refl (gil : Gil) :
    self.LeavesNoTrace { self with gil := gil } :=
  ⟨rfl, rfl, rfl, rfl, rfl, rfl⟩

private theorem leave_completes_iff {clientSocket : Int} {notListening : Reported}
    {protocol : ProtocolOutcome} (fresh : clientSocket ∉ self.openFds) (gil : Gil)
    {left : Option Addr} (unused : ∀ addr, left = some addr → self.estSockets addr = none) :
    self.Completes (.accepted clientSocket notListening protocol)
      (({ self with gil := gil } : EventLoop).leave clientSocket left) ↔ left = none := by
  cases left with
  | none =>
      simp only [iff_true]
      exact Or.inr (.refl gil)
  | some addr =>
      simp only [reduceCtorEq, iff_false]
      intro completes
      rcases completes with ⟨object, other, first, mask, _, established⟩ | untraced
      · have opened : self.openFds = insert clientSocket self.openFds := established.opened
        exact fresh (opened ▸ Finset.mem_insert_self clientSocket self.openFds)
      · have kept := congrFun untraced.sockets addr
        rw [unused addr rfl] at kept
        simp [leave, setEstSocket] at kept

theorem Accepted.completes_iff {next : EventLoop} {clientSocket : Int} {notListening : Reported}
    {protocol : ProtocolOutcome} {gil : Gil} (fresh : clientSocket ∉ self.openFds)
    (unused : ∀ addr, protocol.allocates = some addr → self.estSockets addr = none)
    (accepted : ({ self.openFd clientSocket with gil := gil } : EventLoop).Accepted clientSocket
      protocol next) :
    self.Completes (.accepted clientSocket notListening protocol) next ↔
      protocol.leaves = none := by
  unfold Accepted at accepted
  cases connects : protocol.connects with
  | some connection =>
      obtain ⟨object, addr, mask⟩ := connection
      rw [connects] at accepted
      obtain ⟨loop, gil, _, rfl⟩ := accepted
      obtain ⟨value, rfl, rfl⟩ := ProtocolOutcome.connects_eq_some.mp connects
      simp only [ProtocolOutcome.leaves, EstOutcome.leaves, iff_true]
      exact Or.inl ⟨object, addr, .yielded (some value), cInt value, rfl,
        ⟨unused addr rfl, rfl, rfl, rfl, rfl, rfl, rfl⟩⟩
  | none =>
      rw [connects] at accepted
      obtain ⟨gil, rfl⟩ := accepted
      have closed := leave_closeFd fresh gil protocol.leaves
      change self.Completes _ ((({ self.openFd clientSocket with gil := gil } :
        EventLoop).leave clientSocket protocol.leaves).closeFd clientSocket) ↔ _
      rw [closed]
      apply leave_completes_iff fresh
      intro addr left
      exact unused addr (ProtocolOutcome.allocates_of_leaves left)

private theorem error_returns (subject : Addr) (errorType : ErrorType) (errorCode : Int)
    (text : String) (reported : Reported) :
    ∃ gil, self.error subject errorType errorCode (some text) reported =
      .ok { self with gil := gil } :=
  ⟨_, rfl⟩

theorem onListenSocketAccept_completes_iff (listenCmd : Addr) (cmd : ListenCmd)
    {outcome : AcceptOutcome} (fresh : outcome.Fresh self) :
    (∃ next, self.onListenSocketAccept listenCmd cmd outcome = .ok next ∧
        self.Completes outcome next) ↔
      (cmd.status = .listening → outcome.Settles) := by
  cases outcome with
  | failed errno reported =>
      simp only [AcceptOutcome.Settles, implies_true, iff_true]
      exact ⟨_, rfl, .refl _⟩
  | accepted clientSocket notListening protocol =>
      obtain ⟨freshFd, freshAddr⟩ := fresh
      by_cases listening : cmd.status = .listening
      · simp only [onListenSocketAccept, listening, if_true, true_implies, AcceptOutcome.Settles,
          ProtocolOutcome.settles_iff]
        cases survived : protocol.survived with
        | true =>
            obtain ⟨next, done, accepted, _⟩ := @acceptProtocol_accepted
              (self.openFd clientSocket).restoreThread listenCmd clientSocket protocol survived
            simp only [done, Except.ok.injEq, exists_eq_left', true_and]
            exact accepted.completes_iff freshFd freshAddr
        | false =>
            obtain ⟨crash, failed, _⟩ := @acceptProtocol_crashes
              (self.openFd clientSocket).restoreThread listenCmd clientSocket protocol survived
            simp [failed]
      · simp only [listening, false_implies, iff_true]
        obtain ⟨gil, reported⟩ := @error_returns (self.openFd clientSocket) listenCmd .gener 1
          "not LISTENING" notListening
        refine ⟨{ self with gil := gil }, ?_, Or.inr (.refl gil)⟩
        simp only [onListenSocketAccept, listening, if_false, reported]
        exact congrArg Except.ok (leave_closeFd freshFd gil none)

/-- A connection accepted on a loop that has none, by a generator with the given
first step. -/
def acceptedFirst (first : Resumed) : AcceptOutcome :=
  .accepted 7 ⟨none, ""⟩ (.generator 3 (.allocated 9 first))

theorem completes_generator :
    ∃ next, (fresh ⟨none, some 1, []⟩).onListenSocketAccept 0
      ⟨none, none, "80", .listening, 0, none⟩
        (acceptedFirst (.yielded (some 1))) = .ok next ∧
      (fresh ⟨none, some 1, []⟩).Completes (acceptedFirst (.yielded (some 1))) next := by
  have unused : (acceptedFirst (.yielded (some 1))).Fresh (fresh ⟨none, some 1, []⟩) :=
    ⟨Finset.notMem_empty 7, fun _ _ => rfl⟩
  refine (onListenSocketAccept_completes_iff 0 _ unused).mpr ?_
  exact fun _ => ⟨1, rfl, by decide⟩

/-- A generator whose first step ends it. -/
theorem not_completes_finished :
    ¬ ∃ next, (fresh ⟨none, some 1, []⟩).onListenSocketAccept 0
        ⟨none, none, "80", .listening, 0, none⟩ (acceptedFirst .finished) = .ok next ∧
      (fresh ⟨none, some 1, []⟩).Completes (acceptedFirst .finished) next := by
  intro completes
  obtain ⟨next, done, established | untraced⟩ := completes
  · obtain ⟨object, addr, first, mask, _, established⟩ := established
    have opened := established.opened
    cases done
    revert opened
    decide
  · have kept := congrFun untraced.sockets 9
    cases done
    cases kept

end EventLoop

end Striga.Pyglev
