import Striga.Lib.LinkedList
import Striga.Lib.Transition
import Striga.Pyglev.EstSocket

/-! Accepted connections, over any run of accepts, reads and protocol outcomes. -/

set_option autoImplicit false

namespace Striga.Pyglev

open Lib
open Lib.LinkedList (Chain)

def Resumed.ends : Resumed → Bool
  | .finished | .raised => true
  | .yielded _ => false

/-- The connection whose protocol ends with its first step. -/
def AcceptOutcome.ends : AcceptOutcome → Option Addr
  | .accepted _ _ (.generator _ (.allocated socket first)) =>
      if first.ends then some socket else none
  | _ => none

def ReadOutcome.ends : ReadOutcome → Bool
  | .closed => true
  | .failed => false
  | .data _ resumed => resumed.ends

namespace EventLoop

/-- An event on a listening socket that gets as far as `on_accept`. -/
def accepts (self : EventLoop) (array : Nat) (revents : EvEvents) : Bool :=
  !revents.error && revents.read &&
    match self.watcherData array with
    | some (_, cmd) => cmd.status = .listening
    | none => false

end EventLoop

namespace Connections

inductive Event where
  | listenSocketIo (array : Nat) (revents : EvEvents) (reported : EventLoop.Reported)
      (outcome : AcceptOutcome)
  | estSocketIo (socket : Addr) (revents : EvEvents) (outcome : ReadOutcome)

/-- The connection whose peer is found to have closed, or whose protocol ends. -/
def endsOn (eventLoop : EventLoop) : Event → Option Addr
  | .listenSocketIo array revents _ outcome =>
      if eventLoop.accepts array revents then outcome.ends else none
  | .estSocketIo socket revents outcome =>
      if revents.read && outcome.ends then some socket else none

structure State where
  eventLoop : EventLoop
  ended : List Addr

def State.after (state : State) (event : Event) (next : EventLoop) : State where
  eventLoop := next
  ended := (endsOn state.eventLoop event).toList ++ state.ended

inductive Step : State → Event → State → Prop where
  | listenSocketIo {state next array index revents reported outcome} :
      .listen array index ∈ state.eventLoop.active → outcome.Fresh state.eventLoop →
      state.eventLoop.onListenSocketIo array revents reported outcome = .ok next →
      Step state (.listenSocketIo array revents reported outcome)
        (state.after (.listenSocketIo array revents reported outcome) next)
  | estSocketIo {state next socket revents outcome} :
      .est socket ∈ state.eventLoop.active →
      state.eventLoop.onEstSocketIo socket revents outcome = .ok next →
      Step state (.estSocketIo socket revents outcome)
        (state.after (.estSocketIo socket revents outcome) next)

/-- A loop without connections, whose listen commands may be in any condition. -/
structure Unconnected (others : Finset Int) (eventLoop : EventLoop) : Prop where
  establishedSockets : eventLoop.establishedSockets = none
  estSockets : ∀ addr, eventLoop.estSockets addr = none
  protocolRefs : ∀ protocol, eventLoop.protocolRefs protocol = 0
  openFds : eventLoop.openFds = others

def system (others : Finset Int) : System State Event where
  initial state := ∃ eventLoop, state = ⟨eventLoop, []⟩ ∧ Unconnected others eventLoop
  step := Step

/-- The descriptors that accept returned and that are open are owned one to one by
the connections of the list, each with an active watcher and one reference to its
protocol; of a connection that ended nothing is left. -/
structure Conserved (others : Finset Int) (state : State) (addrs : List Addr) : Prop where
  kept : others ⊆ state.eventLoop.openFds
  chain : Chain state.eventLoop.estLinks state.eventLoop.establishedSockets addrs
  watched : ∀ addr ∈ addrs, .est addr ∈ state.eventLoop.active
  owns : ∀ addr ∈ addrs, ∃ socket, state.eventLoop.estSockets addr = some socket ∧
    socket.fd ∈ state.eventLoop.openFds \ others ∧ socket.protocol.isSome
  owned : ∀ fd ∈ state.eventLoop.openFds \ others,
    ∃! addr, addr ∈ addrs ∧ (state.eventLoop.estSockets addr).map EstSocket.fd = some fd
  references : ∀ protocol, state.eventLoop.protocolRefs protocol = addrs.countP fun addr =>
    (state.eventLoop.estSockets addr).map EstSocket.protocol = some (some protocol)
  released : ∀ addr ∈ state.ended, addr ∉ addrs ∧ state.eventLoop.estSockets addr = none

def ConservesConnections (others : Finset Int) (state : State) : Prop :=
  ∃ addrs, Conserved others state addrs

/-- No connection ends in the step. -/
def EndsNone (state : State) (event : Event) (_ : State) : Prop :=
  endsOn state.eventLoop event = none

variable {others : Finset Int} {state next : State} {addrs : List Addr}

theorem Unconnected.conserved {eventLoop : EventLoop} (unconnected : Unconnected others eventLoop) :
    Conserved others ⟨eventLoop, []⟩ [] where
  kept := unconnected.openFds.symm.subset
  chain := unconnected.establishedSockets
  watched := by simp
  owns := by simp
  owned := by simp [unconnected.openFds]
  references := by simp [unconnected.protocolRefs]
  released := by simp

/-- Of a connection all but the mask that it waits for. -/
def still (socket : EstSocket) : EstSocket := { socket with events := 0 }

/-- What an event leaves alone. -/
theorem Conserved.quiet (conserved : Conserved others state addrs)
    (head : next.eventLoop.establishedSockets = state.eventLoop.establishedSockets)
    (sockets : ∀ addr ∈ addrs, (next.eventLoop.estSockets addr).map still =
      (state.eventLoop.estSockets addr).map still)
    (active : ∀ addr ∈ addrs, .est addr ∈ next.eventLoop.active)
    (openFds : next.eventLoop.openFds = state.eventLoop.openFds)
    (protocolRefs : next.eventLoop.protocolRefs = state.eventLoop.protocolRefs)
    (ended : next.ended = []) : Conserved others next addrs := by
  have field : ∀ {Value : Type} (view : EstSocket → Value),
      (∀ socket, view (still socket) = view socket) →
      ∀ addr ∈ addrs, (next.eventLoop.estSockets addr).map view =
        (state.eventLoop.estSockets addr).map view := by
    intro Value view blind addr member
    have same := congrArg (Option.map view) (sockets addr member)
    simpa [Function.comp_def, blind] using same
  have links := field EstSocket.next fun _ => rfl
  have fds := field EstSocket.fd fun _ => rfl
  have protocols := field EstSocket.protocol fun _ => rfl
  constructor
  · exact openFds ▸ conserved.kept
  · rw [head]
    exact conserved.chain.frame links
  · exact active
  · intro addr member
    obtain ⟨socket, found, isOpen, runs⟩ := conserved.owns addr member
    have fd := fds addr member
    have protocol := protocols addr member
    rw [found] at fd protocol
    obtain ⟨after, foundAfter, sameFd⟩ := Option.map_eq_some_iff.mp fd
    rw [foundAfter] at protocol
    refine ⟨after, foundAfter, ?_, ?_⟩
    · rw [sameFd, openFds]
      exact isOpen
    · rw [Option.some.inj protocol]
      exact runs
  · intro fd member
    rw [openFds] at member
    obtain ⟨addr, owner, unique⟩ := conserved.owned fd member
    refine ⟨addr, ⟨owner.1, (fds addr owner.1).trans owner.2⟩, fun other also => ?_⟩
    exact unique other ⟨also.1, (fds other also.1).symm.trans also.2⟩
  · intro protocol
    rw [protocolRefs, conserved.references, List.countP_congr]
    intro addr member
    rw [protocols addr member]
  · simp [ended]

private theorem closeFd_openFd {eventLoop : EventLoop} {fd : Int} (fresh : fd ∉ eventLoop.openFds) :
    (eventLoop.openFd fd).closeFd fd = eventLoop := by
  simp [EventLoop.closeFd, EventLoop.openFd, fresh]

/-- A connection that is given up leaves memory behind at most. -/
theorem leave_closeFd {eventLoop : EventLoop} {fd : Int} (fresh : fd ∉ eventLoop.openFds)
    (gil : Gil) (left : Option Addr) :
    (({ eventLoop.openFd fd with gil := gil } : EventLoop).leave fd left).closeFd fd =
      ({ eventLoop with gil := gil } : EventLoop).leave fd left := by
  cases left with
  | none => exact @closeFd_openFd { eventLoop with gil := gil } fd fresh
  | some addr =>
      exact @closeFd_openFd
        (({ eventLoop with gil := gil } : EventLoop).leave fd (some addr)) fd fresh

/-- What a new connection adds. -/
theorem Conserved.push {eventLoop : EventLoop} (conserved : Conserved others ⟨eventLoop, []⟩ addrs)
    {object addr : Addr} {fd mask : Int} (freshFd : fd ∉ eventLoop.openFds)
    (freshAddr : eventLoop.estSockets addr = none) (loop : EvLoop) (gil : Gil) :
    Conserved others ⟨{ eventLoop with
      openFds := insert fd eventLoop.openFds
      estSockets := Function.update eventLoop.estSockets addr
        (some ⟨eventLoop.establishedSockets, some object, fd, mask⟩)
      establishedSockets := some addr
      protocolRefs := Function.update eventLoop.protocolRefs object
        (eventLoop.protocolRefs object + 1)
      active := insert (.est addr) eventLoop.active
      loop := loop
      gil := gil }, []⟩ (addr :: addrs) := by
  have absent : addr ∉ addrs := by
    intro member
    obtain ⟨socket, found, _⟩ := conserved.owns addr member
    cases freshAddr.symm.trans found
  have before : ∀ node ∈ addrs, Function.update eventLoop.estSockets addr
      (some ⟨eventLoop.establishedSockets, some object, fd, mask⟩) node =
        eventLoop.estSockets node := by
    intro node member
    exact Function.update_of_ne (ne_of_mem_of_not_mem member absent) _ _
  have notOther : fd ∉ others := fun other => freshFd (conserved.kept other)
  constructor
  · exact conserved.kept.trans (Finset.subset_insert _ _)
  · refine ⟨rfl, _, by simp [EventLoop.estLinks], conserved.chain.frame fun node member => ?_⟩
    exact congrArg (Option.map EstSocket.next) (before node member)
  · intro node member
    rcases List.mem_cons.mp member with rfl | listed
    · exact Finset.mem_insert_self _ _
    · exact Finset.mem_insert_of_mem (conserved.watched node listed)
  · intro node member
    rcases List.mem_cons.mp member with rfl | listed
    · exact ⟨_, Function.update_self .., by simp [notOther], rfl⟩
    · obtain ⟨socket, found, isOpen, runs⟩ := conserved.owns node listed
      refine ⟨socket, (before node listed).trans found, ?_, runs⟩
      simp only [Finset.mem_sdiff, Finset.mem_insert] at isOpen ⊢
      exact ⟨.inr isOpen.1, isOpen.2⟩
  · intro other member
    simp only [Finset.mem_sdiff, Finset.mem_insert] at member
    by_cases same : other = fd
    · subst same
      refine ⟨addr, ⟨List.mem_cons_self, by simp⟩, fun node owner => ?_⟩
      obtain ⟨listed, owns⟩ := owner
      rcases List.mem_cons.mp listed with rfl | listed
      · rfl
      · obtain ⟨socket, found, isOpen, _⟩ := conserved.owns node listed
        simp only [before node listed] at owns
        rw [found] at owns
        cases owns
        exact absurd (Finset.mem_sdiff.mp isOpen).1 freshFd
    · have earlier : other ∈ eventLoop.openFds \ others :=
        Finset.mem_sdiff.mpr ⟨member.1.resolve_left same, member.2⟩
      obtain ⟨node, owner, unique⟩ := conserved.owned other earlier
      refine ⟨node, ⟨List.mem_cons_of_mem _ owner.1, ?_⟩, fun also owns => ?_⟩
      · simp only [before node owner.1]
        exact owner.2
      · obtain ⟨listed, owns⟩ := owns
        rcases List.mem_cons.mp listed with rfl | listed
        · simp at owns
          exact absurd owns.symm same
        · simp only [before also listed] at owns
          exact unique also ⟨listed, owns⟩
  · intro protocol
    have counted := conserved.references protocol
    rw [← List.countP_congr fun node member => by rw [← before node member]] at counted
    simp only [List.countP_cons]
    by_cases same : protocol = object
    · subst same
      simp [-Option.map_eq_some_iff, ← counted]
    · simp [-Option.map_eq_some_iff, ← counted, same, Ne.symm same]
  · simp

private theorem estSockets_closeFd (eventLoop : EventLoop) (fd : Int) :
    (eventLoop.closeFd fd).estSockets = eventLoop.estSockets := by
  unfold EventLoop.closeFd
  split
  · rfl
  · rfl

/-- The memory of a connection is never freed. -/
private theorem live_of_accepted {before after : EventLoop} {fd : Int} {protocol : ProtocolOutcome}
    (accepted : before.Accepted fd protocol after) {addr : Addr}
    (live : before.estSockets addr ≠ none ∨ protocol.allocates = some addr) :
    after.estSockets addr ≠ none := by
  unfold EventLoop.Accepted at accepted
  cases connects : protocol.connects with
  | some connection =>
      obtain ⟨object, socket, mask⟩ := connection
      rw [connects] at accepted
      obtain ⟨loop, gil, _, rfl⟩ := accepted
      by_cases same : addr = socket
      · simp [same]
      · have allocates := ProtocolOutcome.allocates_of_connects connects
        simpa [same, Ne.symm same, allocates] using live
  | none =>
      rw [connects] at accepted
      obtain ⟨gil, rfl⟩ := accepted
      rw [estSockets_closeFd]
      cases leaves : protocol.leaves with
      | none =>
          refine live.resolve_right fun allocates => ?_
          cases leaves.symm.trans (ProtocolOutcome.leaves_of_allocates allocates connects)
      | some socket =>
          by_cases same : addr = socket
          · simp [EventLoop.leave, EventLoop.setEstSocket, same]
          · have allocates := ProtocolOutcome.allocates_of_leaves leaves
            simpa [EventLoop.leave, EventLoop.setEstSocket, same, Ne.symm same, allocates]
              using live

private theorem live_of_listenEvent {before after : EventLoop} {cmd : ListenCmd}
    {outcome : AcceptOutcome} (event : before.ListenEvent cmd outcome after) {addr : Addr}
    (live : before.estSockets addr ≠ none) : after.estSockets addr ≠ none := by
  cases event with
  | nothing => exact live
  | notListening =>
      rw [estSockets_closeFd]
      exact live
  | accepted listening accepted => exact live_of_accepted accepted (.inl live)

private theorem live_of_estEvent {before after : EventLoop} {socket : Addr} {state : EstSocket}
    {outcome : ReadOutcome} (event : before.EstEvent socket state outcome after) {addr : Addr}
    (live : before.estSockets addr ≠ none) : after.estSockets addr ≠ none := by
  cases event with
  | nothing => exact live
  | closed =>
      obtain ⟨loop, stopped⟩ := @EventLoop.ioStop_eq before (.est socket)
      rw [stopped]
      exact live
  | resumed _ same =>
      subst same
      by_cases here : addr = socket
      · simp [here]
      · simpa [here] using live

private theorem accepted_of_accepts {before after : EventLoop} {array : Nat} {revents : EvEvents}
    {reported notListening : EventLoop.Reported} {fd : Int} {protocol : ProtocolOutcome}
    (accepts : before.accepts array revents = true)
    (done : before.onListenSocketIo array revents reported (.accepted fd notListening protocol) =
      .ok after) :
    ({ before.openFd fd with gil := (before.openFd fd).gil.restoreThread } :
      EventLoop).Accepted fd protocol after := by
  unfold EventLoop.accepts at accepts
  unfold EventLoop.onListenSocketIo at done
  cases found : before.watcherData array with
  | none => simp [found] at accepts
  | some data =>
      obtain ⟨listenCmd, cmd⟩ := data
      simp only [found, Bool.and_eq_true, Bool.not_eq_true', decide_eq_true_eq] at accepts
      obtain ⟨⟨noError, reads⟩, listening⟩ := accepts
      simp only [found, noError, reads, Bool.false_eq_true, if_false, if_true,
        EventLoop.onListenSocketAccept, listening] at done
      exact (EventLoop.acceptProtocol_within listenCmd fd protocol).of_ok done

variable {event : Event}

theorem AcceptOutcome.ends_eq_some {outcome : AcceptOutcome} {addr : Addr}
    (ends : outcome.ends = some addr) : ∃ fd notListening object first,
      outcome = .accepted fd notListening (.generator object (.allocated addr first)) := by
  unfold AcceptOutcome.ends at ends
  split at ends
  · split at ends
    · cases ends
      exact ⟨_, _, _, _, rfl⟩
    · cases ends
  · cases ends

/-- The connection that ends in a step still has its memory after it. -/
private theorem ended_live_after (taken : Step state event next) {addr : Addr}
    (ends : endsOn state.eventLoop event = some addr) : next.eventLoop.estSockets addr ≠ none := by
  cases taken with
  | listenSocketIo active fresh done =>
      simp only [endsOn] at ends
      split at ends
      · rename_i accepts
        obtain ⟨fd, notListening, object, first, rfl⟩ := AcceptOutcome.ends_eq_some ends
        exact live_of_accepted (accepted_of_accepts accepts done) (.inr rfl)
      · cases ends
  | estSocketIo active done =>
      obtain ⟨found, live, event⟩ := (EventLoop.onEstSocketIo_within _ _ _).of_ok done
      simp only [endsOn] at ends
      split at ends
      · cases ends
        exact live_of_estEvent event (by simp [live])
      · cases ends

private theorem ended_live (reachable : (system others).Reachable state) :
    ∀ addr ∈ state.ended, state.eventLoop.estSockets addr ≠ none := by
  apply reachable.invariant fun state =>
    ∀ addr ∈ state.ended, state.eventLoop.estSockets addr ≠ none
  · intro state initial
    obtain ⟨eventLoop, rfl, _⟩ := initial
    simp
  · intro state event next live taken addr member
    have kept : ∀ addr, state.eventLoop.estSockets addr ≠ none →
        next.eventLoop.estSockets addr ≠ none := by
      cases taken with
      | listenSocketIo active fresh done =>
          obtain ⟨_, cmd, _, event⟩ := (EventLoop.onListenSocketIo_within _ _ _ _).of_ok done
          exact fun addr => live_of_listenEvent event
      | estSocketIo active done =>
          obtain ⟨_, _, event⟩ := (EventLoop.onEstSocketIo_within _ _ _).of_ok done
          exact fun addr => live_of_estEvent event
    have ended : next.ended = (endsOn state.eventLoop event).toList ++ state.ended := by
      cases taken with
      | listenSocketIo | estSocketIo => rfl
    rw [ended] at member
    rcases List.mem_append.mp member with now | earlier
    · exact ended_live_after taken (Option.mem_toList.mp now)
    · exact kept addr (live addr earlier)

private theorem conserved_of_listenEvent {before after : EventLoop} {cmd : ListenCmd}
    {outcome : AcceptOutcome} (conserved : Conserved others ⟨before, []⟩ addrs)
    (fresh : outcome.Fresh before) (event : before.ListenEvent cmd outcome after) :
    ConservesConnections others ⟨after, []⟩ := by
  cases event with
  | nothing => exact ⟨addrs, conserved.quiet rfl (fun _ _ => rfl) conserved.watched rfl rfl rfl⟩
  | @notListening fd reported protocol gil =>
      have closed := leave_closeFd fresh.1 gil none
      rw [EventLoop.leave, EventLoop.leave] at closed
      rw [closed]
      exact ⟨addrs, conserved.quiet rfl (fun _ _ => rfl) conserved.watched rfl rfl rfl⟩
  | @accepted fd reported protocol gil after listening accepted =>
      obtain ⟨freshFd, freshAddr⟩ := fresh
      unfold EventLoop.Accepted at accepted
      cases connects : protocol.connects with
      | some connection =>
          obtain ⟨object, addr, mask⟩ := connection
          rw [connects] at accepted
          obtain ⟨loop, gil, _, rfl⟩ := accepted
          have free := freshAddr addr (ProtocolOutcome.allocates_of_connects connects)
          exact ⟨addr :: addrs, conserved.push freshFd free loop gil⟩
      | none =>
          rw [connects] at accepted
          obtain ⟨gil, rfl⟩ := accepted
          have closed := leave_closeFd freshFd gil protocol.leaves
          rw [closed]
          refine ⟨addrs, ?_⟩
          cases leaves : protocol.leaves with
          | none => exact conserved.quiet rfl (fun _ _ => rfl) conserved.watched rfl rfl rfl
          | some left =>
              refine conserved.quiet rfl ?_ conserved.watched rfl rfl rfl
              intro addr member
              have differs : addr ≠ left := by
                intro same
                subst same
                obtain ⟨socket, found, _⟩ := conserved.owns addr member
                have free := freshAddr addr (ProtocolOutcome.allocates_of_leaves leaves)
                cases free.symm.trans found
              simp [EventLoop.leave, EventLoop.setEstSocket, differs]

private theorem conserved_of_estEvent {before after : EventLoop} {socket : Addr} {found : EstSocket}
    {outcome : ReadOutcome} (conserved : Conserved others ⟨before, []⟩ addrs)
    (live : before.estSockets socket = some found) (goesOn : outcome ≠ .closed)
    (event : before.EstEvent socket found outcome after) :
    ConservesConnections others ⟨after, []⟩ := by
  refine ⟨addrs, ?_⟩
  cases event with
  | nothing => exact conserved.quiet rfl (fun _ _ => rfl) conserved.watched rfl rfl rfl
  | closed => exact absurd rfl goesOn
  | resumed _ same =>
      subst same
      refine conserved.quiet rfl ?_ ?_ rfl rfl rfl
      · intro addr member
        by_cases here : addr = socket
        · subst here
          simp [live, still]
        · simp [here]
      · intro addr member
        exact Finset.mem_insert_of_mem (conserved.watched addr member)

private theorem conserves_step_iff (reachable : (system others).Reachable state)
    (conserves : ConservesConnections others state)
    (taken : (system others).step state event next) :
    ConservesConnections others next ↔ EndsNone state event next := by
  have live := ended_live reachable
  obtain ⟨addrs, conserved⟩ := conserves
  have none : state.ended = [] := by
    apply List.eq_nil_iff_forall_not_mem.mpr
    intro addr member
    exact live addr member (conserved.released addr member).2
  constructor
  · intro after
    obtain ⟨later, conserved⟩ := after
    by_contra some
    obtain ⟨addr, ends⟩ := Option.ne_none_iff_exists'.mp some
    have member : addr ∈ next.ended := by
      cases taken with
      | listenSocketIo | estSocketIo => simp [State.after, ends]
    exact ended_live_after taken ends (conserved.released addr member).2
  · intro endsNone
    obtain ⟨before, ended⟩ := state
    subst none
    cases taken with
    | listenSocketIo active fresh done =>
        obtain ⟨_, cmd, _, event⟩ := (EventLoop.onListenSocketIo_within _ _ _ _).of_ok done
        have after := conserved_of_listenEvent conserved fresh event
        unfold EndsNone at endsNone
        simpa [State.after, endsNone] using after
    | @estSocketIo after socket revents outcome active done =>
        unfold EndsNone at endsNone
        simp only [State.after, endsNone, Option.toList_none, List.nil_append]
        obtain ⟨found, live, event⟩ := (EventLoop.onEstSocketIo_within _ _ _).of_ok done
        cases reads : revents.read with
        | false =>
            have isLive : before.estSockets socket = some found := live
            simp only [EventLoop.onEstSocketIo, isLive, reads, Bool.false_eq_true, if_false,
              Except.ok.injEq] at done
            subst done
            exact ⟨addrs, conserved⟩
        | true =>
            have goesOn : outcome ≠ .closed := by
              intro closed
              simp [endsOn, reads, closed, ReadOutcome.ends] at endsNone
            exact conserved_of_estEvent conserved live goesOn event

/-- Along a run the connections are conserved exactly when none of them ends. -/
theorem conservesConnections_iff_endsNone (others : Finset Int) (start : State)
    (path : List (Event × State)) (run : (system others).Run start path) :
    AllStates (ConservesConnections others) start path ↔ AllSteps EndsNone start path := by
  apply run.allStates_iff
  · obtain ⟨eventLoop, rfl, unconnected⟩ := run.starts
    exact ⟨[], unconnected.conserved⟩
  · intro state event next reachable conserves taken
    exact conserves_step_iff reachable conserves taken

def serving : EventLoop :=
  { EventLoop.fresh ⟨none, some 1, []⟩ with
    loop := ⟨1⟩
    active := {.listen 0 0}
    listenCmds := Function.update (fun _ => none) 0
      (some ⟨none, none, "8080", .listening, 1, some 0⟩)
    arrays := Function.update (fun _ => none) 0 (some ⟨0, [5]⟩)
    nextArray := 1
    openFds := {5} }

private theorem serving_unconnected : Unconnected {5} serving :=
  ⟨rfl, fun _ => rfl, fun _ => rfl, rfl⟩

def firstAccept : AcceptOutcome :=
  .accepted 6 ⟨none, ""⟩ (.generator 1 (.allocated 2 (.yielded (some 1))))

private theorem firstAccept_fresh : firstAccept.Fresh serving :=
  ⟨by decide, fun _ _ => rfl⟩

def secondAccept : AcceptOutcome :=
  .accepted 7 ⟨none, ""⟩ (.generator 3 (.allocated 4 (.yielded (some 1))))

/-- Two connections are accepted, and the first one is read from. -/
theorem conservesConnections_iff_endsNone_both_open :
    ∃ path, path.map Prod.fst = [
        Event.listenSocketIo 0 ⟨true, false, false⟩ ⟨none, ""⟩ firstAccept,
        .listenSocketIo 0 ⟨true, false, false⟩ ⟨none, ""⟩ secondAccept,
        .estSocketIo 2 ⟨true, false, false⟩ (.data 100 (.yielded (some 1)))] ∧
      AllStates (ConservesConnections {5}) ⟨serving, []⟩ path :=
  ⟨[(_, _), (_, _), (_, _)], rfl, Iff.mpr (conservesConnections_iff_endsNone {5} _ _
    ⟨⟨_, rfl, serving_unconnected⟩,
      @Step.listenSocketIo _ _ 0 0 _ _ _ (by decide) firstAccept_fresh rfl,
      @Step.listenSocketIo _ _ 0 0 _ _ _ (by decide)
        ⟨by decide, fun _ allocated => by cases allocated; rfl⟩ rfl,
      .estSocketIo (by decide) rfl, trivial⟩) ⟨rfl, rfl, rfl, trivial⟩⟩

/-- A connection that its peer closes stays in the list and stays open. -/
theorem closed_connection_stays :
    ¬ ∀ others state, (system others).Reachable state → ConservesConnections others state := by
  intro always
  have start : (system {5}).Reachable ⟨serving, []⟩ := .start ⟨_, rfl, serving_unconnected⟩
  have accepted := start.step (@Step.listenSocketIo _ _ 0 0 ⟨true, false, false⟩ ⟨none, ""⟩
    firstAccept (by decide) firstAccept_fresh rfl)
  have closed := accepted.step
    (@Step.estSocketIo _ _ 2 ⟨true, false, false⟩ .closed (by decide) rfl)
  obtain ⟨addrs, conserved⟩ := always {5} _ closed
  obtain ⟨_, freed⟩ := conserved.released 2 List.mem_cons_self
  cases freed

end Connections

end Striga.Pyglev
