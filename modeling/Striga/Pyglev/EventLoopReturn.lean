import Striga.Lib.Possibility
import Striga.Pyglev.EventLoopCount
import Striga.Pyglev.EventLoopReferences

/-! Whether `ev_run` of a pyglev event loop can still return. A peer may close a
connection whose watcher waits for `EV_READ`, and nobody any other; a listening socket
is closed by a break alone. -/

set_option autoImplicit false

namespace Striga.Pyglev

open Lib
open Lib.LinkedList (Chain)

namespace EventLoop

variable {self next : EventLoop}

/-- A listening socket is watched. -/
def Listens (eventLoop : EventLoop) : Prop :=
  ∃ array index, .listen array index ∈ eventLoop.active

/-- The watched listening sockets stay watched. -/
def KeepsListening (before after : EventLoop) : Prop :=
  ∀ array index, .listen array index ∈ before.active → .listen array index ∈ after.active

theorem SameActivity.keepsListening (same : SameActivity self next) : KeepsListening self next := by
  intro array index watched
  rw [same.active]
  exact watched

theorem Accepted.keepsListening {clientSocket : Int} {protocol : ProtocolOutcome}
    (accepted : self.Accepted clientSocket protocol next) : KeepsListening self next := by
  unfold Accepted at accepted
  split at accepted
  · obtain ⟨loop, gil, _, rfl⟩ := accepted
    exact fun array index watched => Finset.mem_insert_of_mem watched
  · obtain ⟨gil, rfl⟩ := accepted
    intro array index watched
    rw [(sameActivity_closeFd _).active, (sameActivity_leave _ _).active]
    exact watched

theorem ListenEvent.keepsListening {cmd : ListenCmd} {outcome : AcceptOutcome}
    (event : self.ListenEvent cmd outcome next) : KeepsListening self next := by
  cases event with
  | nothing => exact fun _ _ watched => watched
  | notListening =>
      intro array index watched
      rw [(sameActivity_closeFd _).active]
      exact watched
  | accepted _ accepted => exact accepted.keepsListening

theorem EstEvent.keepsListening {addr : Addr} {socket : EstSocket} {outcome : ReadOutcome}
    (event : self.EstEvent addr socket outcome next) : KeepsListening self next := by
  cases event with
  | nothing => exact fun _ _ watched => watched
  | closed =>
      intro array index watched
      obtain ⟨loop, stopped⟩ := @ioStop_eq self (.est addr)
      rw [stopped]
      exact Finset.mem_erase_of_ne_of_mem (by simp) watched
  | resumed _ same =>
      subst same
      exact fun array index watched => Finset.mem_insert_of_mem watched

/-- A watched connection whose watcher does not wait for `EV_READ`. -/
def Mute (eventLoop : EventLoop) (socket : Addr) : Prop :=
  .est socket ∈ eventLoop.active ∧
    ∃ found, eventLoop.estSockets socket = some found ∧ found.reads = false

def Io.heard (eventLoop : EventLoop) : Io → Bool
  | .listen _ _ => true
  | .est socket => (eventLoop.estSockets socket).all EstSocket.reads

private theorem not_mute_of_heard (heard : ∀ io ∈ self.active, Io.heard self io = true)
    (socket : Addr) :
    ¬Mute self socket := by
  intro mute
  obtain ⟨watched, found, live, deaf⟩ := mute
  have reads := heard _ watched
  simp only [Io.heard, live, Option.all_some] at reads
  exact Bool.false_ne_true (deaf.symm.trans reads)

/-- The connections are as they were, and watched if they were. -/
structure KeepsConnections (before after : EventLoop) : Prop where
  watched : ∀ socket, .est socket ∈ before.active → .est socket ∈ after.active
  estSockets : after.estSockets = before.estSockets

theorem KeepsConnections.refl : KeepsConnections self self := ⟨fun _ watched => watched, rfl⟩

theorem KeepsConnections.trans {middle : EventLoop} (first : KeepsConnections self middle)
    (second : KeepsConnections middle next) : KeepsConnections self next :=
  ⟨fun socket watched => second.watched socket (first.watched socket watched),
    second.estSockets.trans first.estSockets⟩

theorem Mute.keeps {socket : Addr} (mute : Mute self socket)
    (keeps : KeepsConnections self next) : Mute next socket := by
  obtain ⟨watched, found, live, deaf⟩ := mute
  exact ⟨keeps.watched socket watched, found, keeps.estSockets ▸ live, deaf⟩

private theorem beginDispatch_keepsConnections {cmd : SubjectCmd Addr}
    (done : self.beginDispatch cmd = .ok next) : KeepsConnections self next := by
  rcases beginDispatch_cases done with ⟨_, rfl⟩ | ⟨_, found, _, rfl⟩ | ⟨_, _, rfl⟩
  all_goals exact ⟨fun _ watched => watched, rfl⟩

private theorem endDispatch_keepsConnections {cmd : SubjectCmd Addr} {outcome : DispatchOutcome}
    (fresh : outcome.resolve.Fresh self.openFds)
    (done : self.endDispatch cmd outcome = .ok next) : KeepsConnections self next := by
  rcases endDispatch_cases fresh done with ⟨_, rfl⟩ | ⟨_, found, _, scheduled⟩ | ⟨_, _, rfl⟩
  · exact ⟨fun _ watched => watched, rfl⟩
  · unfold Scheduled at scheduled
    split at scheduled
    · obtain ⟨loop, gil, _, rfl⟩ := scheduled
      exact ⟨fun _ watched => Finset.mem_union_left _ watched, rfl⟩
    · obtain ⟨gil, rfl⟩ := scheduled
      exact ⟨fun _ watched => watched, rfl⟩
  · exact ⟨fun _ watched => watched, rfl⟩

private theorem est_notMem_closing (cmd : ListenCmd) (socket : Addr) :
    .est socket ∉ cmd.closing := by
  unfold ListenCmd.closing
  cases cmd.closes with
  | none => simp
  | some array => simp [mem_arrayWatchers]

private theorem listenCmdClose_keepsConnections {listenCmd : Addr}
    (done : self.listenCmdClose listenCmd = .ok next) : KeepsConnections self next := by
  obtain ⟨cmd, _, closed⟩ := (listenCmdClose_within listenCmd).of_ok done
  obtain ⟨⟨loop, openFds, badCloses, rfl⟩, _⟩ := closed.changed
  exact ⟨fun socket watched => Finset.mem_sdiff.mpr ⟨watched, est_notMem_closing cmd socket⟩, rfl⟩

private theorem dropListenCmd_keepsConnections {listenCmd : Addr} {dropped : Dropped}
    {nextHead : Option Addr} (done : self.dropListenCmd listenCmd dropped = .ok (next, nextHead)) :
    KeepsConnections self next := by
  unfold dropListenCmd at done
  dsimp only at done
  split at done
  · cases done
  · cases dropped with
    | held =>
        cases done
        exact ⟨fun _ watched => watched, rfl⟩
    | freed read =>
        dsimp only at done
        split at done
        · cases done
          exact ⟨fun _ watched => watched, rfl⟩
        · cases read with
          | kept | null =>
              cases done
              exact ⟨fun _ watched => watched, rfl⟩
          | wild => cases done

private theorem closeListed_keepsConnections (drops : List Dropped) : ∀ {self : EventLoop}
    {head : Option Addr}, self.closeListed head drops = .ok next → KeepsConnections self next := by
  induction drops with
  | nil =>
      intro self head done
      cases head with
      | none =>
          cases done
          exact .refl
      | some => cases done
  | cons dropped drops ih =>
      intro self head done
      cases head with
      | none =>
          cases done
          exact .refl
      | some listenCmd =>
          obtain ⟨middle, after, nextHead, closed, droppedOne, rest⟩ := closeListed_round done
          have relinked : KeepsConnections after { after with listenCommands := nextHead } :=
            ⟨fun _ watched => watched, rfl⟩
          exact (listenCmdClose_keepsConnections closed).trans
            ((dropListenCmd_keepsConnections droppedOne).trans (relinked.trans (ih rest)))

private theorem eventLoopBreak_keepsConnections {drops : List Dropped}
    (done : self.eventLoopBreak drops = .ok next) : KeepsConnections self next := by
  have whole : self.eventLoopBreak drops = self.stopBreakSignals.restoreThread.closeListed
      self.stopBreakSignals.restoreThread.listenCommands drops >>=
        fun closed => .ok closed.saveThread := rfl
  rw [whole] at done
  cases closed : self.stopBreakSignals.restoreThread.closeListed
      self.stopBreakSignals.restoreThread.listenCommands drops with
  | error crash =>
      rw [closed] at done
      cases done
  | ok middle =>
      rw [closed] at done
      cases done
      obtain ⟨watched, estSockets⟩ := closeListed_keepsConnections drops closed
      exact ⟨watched, estSockets⟩

private theorem closeFd_keepsConnections (fd : Int) : KeepsConnections self (self.closeFd fd) := by
  unfold closeFd
  split <;> exact ⟨fun _ watched => watched, rfl⟩

/-- A new connection does not take the place of one that there is. -/
theorem Mute.accepted {clientSocket : Int} {protocol : ProtocolOutcome} {socket : Addr}
    (mute : Mute self socket) (fresh : ∀ addr, protocol.allocates = some addr →
      self.estSockets addr = none)
    (accepted : self.Accepted clientSocket protocol next) : Mute next socket := by
  obtain ⟨watched, found, live, deaf⟩ := mute
  have apart : ∀ addr, protocol.allocates = some addr → socket ≠ addr := by
    intro addr allocates same
    cases live.symm.trans (same ▸ fresh addr allocates)
  unfold Accepted at accepted
  cases connects : protocol.connects with
  | some connection =>
      obtain ⟨object, addr, mask⟩ := connection
      rw [connects] at accepted
      obtain ⟨loop, gil, _, rfl⟩ := accepted
      have differs := apart addr (ProtocolOutcome.allocates_of_connects connects)
      refine ⟨Finset.mem_insert_of_mem watched, found, ?_, deaf⟩
      exact (Function.update_of_ne differs _ _).trans live
  | none =>
      rw [connects] at accepted
      obtain ⟨gil, rfl⟩ := accepted
      refine Mute.keeps ?_ (closeFd_keepsConnections clientSocket)
      cases leaves : protocol.leaves with
      | none => exact ⟨watched, found, live, deaf⟩
      | some addr =>
          have differs := apart addr (ProtocolOutcome.allocates_of_leaves leaves)
          exact ⟨watched, found, (Function.update_of_ne differs _ _).trans live, deaf⟩

theorem Mute.listenEvent {cmd : ListenCmd} {outcome : AcceptOutcome} {socket : Addr}
    (mute : Mute self socket) (fresh : outcome.Fresh self)
    (event : self.ListenEvent cmd outcome next) : Mute next socket := by
  cases event with
  | nothing => exact mute
  | @notListening clientSocket _ _ gil =>
      exact @Mute.keeps { self.openFd clientSocket with gil := gil } _ socket mute
        (closeFd_keepsConnections clientSocket)
  | @accepted clientSocket _ _ gil _ _ accepted =>
      exact @Mute.accepted { self.openFd clientSocket with gil := gil } _ _ _ _ mute
        fresh.2 accepted

/-- It is only asked whether a connection can be written to, of which nothing comes. -/
theorem Mute.estSocketIo {socket subject : Addr} {revents : EvEvents} {outcome : ReadOutcome}
    (mute : Mute self socket)
    (awaits : ∀ found, self.estSockets subject = some found → found.awaits revents = true)
    (done : self.onEstSocketIo subject revents outcome = .ok next) : Mute next socket := by
  obtain ⟨watched, found, live, deaf⟩ := mute
  by_cases same : socket = subject
  · subst same
    have silent : revents.read = false := by
      have awaited := awaits found live
      rw [EstSocket.awaits, deaf] at awaited
      simpa using (Bool.and_eq_true_iff.mp awaited).1
    simp only [onEstSocketIo, live, silent, Bool.false_eq_true, if_false] at done
    cases done
    exact ⟨watched, found, live, deaf⟩
  · obtain ⟨other, _, event⟩ := (onEstSocketIo_within _ _ _).of_ok done
    cases event with
    | nothing => exact ⟨watched, found, live, deaf⟩
    | closed =>
        obtain ⟨loop, stopped⟩ := @ioStop_eq self (.est subject)
        rw [stopped]
        exact ⟨Finset.mem_erase_of_ne_of_mem (by simpa using same) watched, found, live, deaf⟩
    | resumed _ resumed =>
        subst resumed
        refine ⟨Finset.mem_insert_of_mem watched, found, ?_, deaf⟩
        exact (Function.update_of_ne same _ _).trans live

private theorem endDispatch_keepsListening {cmd : SubjectCmd Addr} {outcome : DispatchOutcome}
    (fresh : outcome.resolve.Fresh self.openFds)
    (done : self.endDispatch cmd outcome = .ok next) : KeepsListening self next := by
  rcases endDispatch_cases fresh done with ⟨_, rfl⟩ | ⟨_, found, _, scheduled⟩ | ⟨_, _, rfl⟩
  · exact fun _ _ watched => watched
  · unfold Scheduled at scheduled
    split at scheduled
    · obtain ⟨loop, gil, _, rfl⟩ := scheduled
      exact fun array index watched => Finset.mem_union_left _ watched
    · obtain ⟨gil, rfl⟩ := scheduled
      exact fun _ _ watched => watched
  · exact fun _ _ watched => watched

end EventLoop

namespace EventLoopRuns

open EventLoop (Listens KeepsListening)

variable {Call : Type} [DecidableEq Call] {cmd : Call → SubjectCmd Addr}
  {state next : State Call} {label : Label Call}

/-- Nothing holds the loop thread in `ev_run`. -/
structure Returns (state : State Call) : Prop where
  fault : state.fault = none
  waiting : state.queue.consumer = .waiting
  activecnt : state.eventLoop.loop.activecnt = 0

/-- Nothing but a break stops listening. -/
private theorem step_keepsListening (disarmed : Disarmed state.eventLoop)
    (taken : (system cmd).step state label next) :
    KeepsListening state.eventLoop next.eventLoop := by
  cases taken with
  | construct | release | send | incref | wake | get | crash | mistyped =>
      exact fun _ _ watched => watched
  | enqueue =>
      unfold State.enqueue
      dsimp only
      split <;> exact fun _ _ watched => watched
  | @work work after _ ready done =>
      cases work with
      | dispatch => exact (EventLoop.sameActivity_beginDispatch done).keepsListening
      | finish => exact EventLoop.endDispatch_keepsListening ready.2.2 done
      | breakSignal =>
          rcases ready.2.2.1 with active | active
          · exact absurd (disarmed.1.symm.trans active) Bool.false_ne_true
          · exact absurd (disarmed.2.symm.trans active) Bool.false_ne_true
      | listenSocketIo =>
          obtain ⟨_, _, _, event⟩ := (EventLoop.onListenSocketIo_within _ _ _ _).of_ok done
          exact event.keepsListening
      | estSocketIo =>
          obtain ⟨_, _, event⟩ := (EventLoop.onEstSocketIo_within _ _ _).of_ok done
          exact event.keepsListening
      | traverse =>
          obtain ⟨head, rfl⟩ := EventLoop.tpTraverse_eq done
          exact fun _ _ watched => watched
      | clear =>
          obtain rfl := EventLoop.tpClear_eq done
          exact fun _ _ watched => watched

/-- A connection that its peer cannot close stays as it is. -/
private theorem step_keepsMute {socket : Addr} (taken : (system cmd).step state label next)
    (mute : EventLoop.Mute state.eventLoop socket) : EventLoop.Mute next.eventLoop socket := by
  cases taken with
  | construct | release | send | incref | wake | get | crash | mistyped => exact mute
  | enqueue =>
      unfold State.enqueue
      dsimp only
      split <;> exact mute
  | @work work after _ ready done =>
      cases work with
      | dispatch => exact mute.keeps (EventLoop.beginDispatch_keepsConnections done)
      | finish => exact mute.keeps (EventLoop.endDispatch_keepsConnections ready.2.2 done)
      | breakSignal => exact mute.keeps (EventLoop.eventLoopBreak_keepsConnections done)
      | listenSocketIo =>
          obtain ⟨_, _, _, event⟩ := (EventLoop.onListenSocketIo_within _ _ _ _).of_ok done
          exact mute.listenEvent ready.2.2 event
      | estSocketIo => exact mute.estSocketIo ready.2.2 done
      | traverse =>
          obtain ⟨head, rfl⟩ := EventLoop.tpTraverse_eq done
          exact mute
      | clear =>
          obtain rfl := EventLoop.tpClear_eq done
          exact mute

/-- Such a connection holds the loop for good. -/
private theorem never_returns_of_mute {socket : Addr} (reachable : (system cmd).Reachable state)
    (mute : EventLoop.Mute state.eventLoop socket) : ¬(system cmd).Can Returns state := by
  intro can
  obtain ⟨last, leads, returns⟩ := can
  have kept := leads.invariant (fun state => EventLoop.Mute state.eventLoop socket) mute
    fun state label next before taken => step_keepsMute taken before
  have idle := ((countsWatchers cmd last (reachable.leads leads)).returns_iff.mp
    returns.activecnt).1
  exact Finset.notMem_empty _ (idle ▸ kept.1)

/-- With no break signal armed, a listening socket holds the loop for good. -/
private theorem never_returns (reachable : (system cmd).Reachable state)
    (disarmed : Disarmed state.eventLoop) (listens : Listens state.eventLoop) :
    ¬(system cmd).Can Returns state := by
  intro can
  obtain ⟨last, leads, returns⟩ := can
  obtain ⟨array, index, watched⟩ := listens
  have kept : Disarmed last.eventLoop ∧ .listen array index ∈ last.eventLoop.active := by
    refine leads.invariant (fun state => Disarmed state.eventLoop ∧
      .listen array index ∈ state.eventLoop.active) ⟨disarmed, watched⟩ ?_
    intro state label next before taken
    refine ⟨?_, step_keepsListening before.1 taken array index before.2⟩
    rcases step_cases taken with tracks | ⟨_, after⟩
    · exact before.1.tracks tracks
    · exact after
  have counted := (valid (reachable.leads leads)).counted
  have positive := Finset.card_pos.mpr ⟨_, kept.2⟩
  rw [EventLoop.Counted, returns.activecnt, kept.1.1, kept.1.2] at counted
  simp only [Bool.false_eq_true, if_false] at counted
  omega

/-- The runs in which the list of listen commands is kept. -/
abbrev keeping (cmd : Call → SubjectCmd Addr) : System (State Call) (Label Call) :=
  (system cmd).restrict KeepsList

private theorem sound (reachable : (keeping cmd).Reachable state) : Sound cmd state := by
  induction reachable with
  | start initial => exact .initial initial
  | step earlier taken ih => exact ih.step earlier.of_restrict taken.1 taken.2

/-- A scheduling call in progress can take its reference. -/
private theorem leavesWindow (reachable : (keeping cmd).Reachable state)
    (running : state.fault = none) :
    (keeping cmd).Can (fun next => next.fault = none ∧ next.window = none ∧
      next.queue.consumer = state.queue.consumer ∧
      next.eventLoop.sigintWatcher = state.eventLoop.sigintWatcher ∧
      next.eventLoop.sigtermWatcher = state.eventLoop.sigtermWatcher ∧
      next.eventLoop.active = state.eventLoop.active ∧
      next.eventLoop.estSockets = state.eventLoop.estSockets) state := by
  cases window : state.window with
  | none => exact .now ⟨running, window, rfl, rfl, rfl, rfl, rfl⟩
  | some call =>
      rcases (recorded reachable.of_restrict).window call window with sending | returned
      · refine .step ⟨.send running sending, trivial⟩ ?_
        refine .once ⟨.incref running window ?_, trivial⟩ ⟨running, rfl, rfl, rfl, rfl, rfl, rfl⟩
        exact Function.update_self ..
      · exact .once ⟨.incref running window returned, trivial⟩
          ⟨running, rfl, rfl, rfl, rfl, rfl, rfl⟩

/-- Some peers have closed their connections. -/
structure HungUp (state next : State Call) : Prop where
  fault : next.fault = none
  waiting : next.queue.consumer = .waiting
  window : next.window = state.window
  sigintWatcher : next.eventLoop.sigintWatcher = state.eventLoop.sigintWatcher
  sigtermWatcher : next.eventLoop.sigtermWatcher = state.eventLoop.sigtermWatcher
  active : next.eventLoop.active ⊆ state.eventLoop.active
  estSockets : next.eventLoop.estSockets = state.eventLoop.estSockets

omit [DecidableEq Call] in
theorem HungUp.mute (hungUp : HungUp state next) {socket : Addr}
    (mute : EventLoop.Mute next.eventLoop socket) : EventLoop.Mute state.eventLoop socket := by
  obtain ⟨watched, found, live, deaf⟩ := mute
  exact ⟨hungUp.active watched, found, hungUp.estSockets ▸ live, deaf⟩

omit [DecidableEq Call] in
theorem HungUp.step {between : State Call} (hungUp : HungUp state between) (socket : Addr) :
    HungUp state (between.did (.estSocketIo socket ⟨true, false, false⟩ .closed)
      (between.eventLoop.ioStop (.est socket))) := by
  obtain ⟨loop, stopped⟩ := @EventLoop.ioStop_eq between.eventLoop (.est socket)
  rw [stopped]
  exact {
    hungUp with
    active := (Finset.erase_subset _ _).trans hungUp.active }

/-- All peers can close their connections. -/
private theorem hangsUp (reachable : (keeping cmd).Reachable state) (running : state.fault = none)
    (waiting : state.queue.consumer = .waiting)
    (heard : ∀ socket, ¬EventLoop.Mute state.eventLoop socket) :
    (keeping cmd).Can (fun next => HungUp state next ∧
      ∀ socket, .est socket ∉ next.eventLoop.active) state := by
  refine System.Can.of_measure
    (fun next => (keeping cmd).Reachable next ∧ HungUp state next)
    (fun next => next.eventLoop.active.card) ?_
    ⟨reachable, running, waiting, rfl, rfl, rfl, Finset.Subset.refl _, rfl⟩
  intro between kept unfinished
  obtain ⟨reached, hungUp⟩ := kept
  have connected : ∃ socket, .est socket ∈ between.eventLoop.active := by
    by_contra none
    exact unfinished ⟨hungUp, not_exists.mp none⟩
  obtain ⟨socket, active⟩ := connected
  obtain ⟨addrs, owned⟩ := (sound reached).owned
  obtain ⟨found, live⟩ := Option.ne_none_iff_exists'.mp (owned.listening.connected socket active)
  have done : (Work.estSocketIo socket ⟨true, false, false⟩ .closed).perform between.eventLoop =
      .ok (between.eventLoop.ioStop (.est socket)) := by
    simp [Work.perform, EventLoop.onEstSocketIo, live]
  have ready : between.Ready (.estSocketIo socket ⟨true, false, false⟩ .closed) :=
    ⟨hungUp.waiting, active, fun other same => by
      cases live.symm.trans same
      have reads : found.reads = true := by
        by_contra deaf
        exact heard socket (hungUp.mute ⟨active, found, live, Bool.not_eq_true _ ▸ deaf⟩)
      simp [EstSocket.awaits, reads]⟩
  have taken : (keeping cmd).step between (.work (.estSocketIo socket ⟨true, false, false⟩ .closed))
      (between.did (.estSocketIo socket ⟨true, false, false⟩ .closed)
        (between.eventLoop.ioStop (.est socket))) :=
    ⟨.work hungUp.fault ready done, trivial⟩
  refine .once taken ⟨⟨reached.step taken, hungUp.step socket⟩, ?_⟩
  obtain ⟨loop, stopped⟩ := @EventLoop.ioStop_eq between.eventLoop (.est socket)
  have erased : (between.eventLoop.ioStop (.est socket)).active =
      between.eventLoop.active.erase (.est socket) := by rw [stopped]
  exact (congrArg Finset.card erased).trans_lt (Finset.card_erase_lt_of_mem active)

private theorem keepsLinks_held (refs : Addr → Int) (addrs : List Addr) :
    KeepsLinks refs addrs (List.replicate addrs.length .held) := by
  induction addrs with
  | nil => trivial
  | cons addr addrs ih => exact ⟨trivial, ih⟩

private theorem activecnt_of_idle {eventLoop : EventLoop} (counted : eventLoop.Counted)
    (idle : eventLoop.active = ∅) (disarmed : Disarmed eventLoop) :
    eventLoop.loop.activecnt = 0 := by
  rw [EventLoop.Counted, idle, disarmed.1, disarmed.2] at counted
  simpa using counted

/-- With the connections closed a break lets go of the loop. -/
private theorem returns_of_armed (reachable : (keeping cmd).Reachable state)
    (running : state.fault = none)
    (waiting : state.queue.consumer = .waiting) (noWindow : state.window = none)
    (armed : ¬Disarmed state.eventLoop)
    (unconnected : ∀ socket, .est socket ∉ state.eventLoop.active) :
    (keeping cmd).Can Returns state := by
  obtain ⟨addrs, owned⟩ := (sound reachable).owned
  have listening := owned.listening
  rw [waiting] at listening
  have chain := listening.chain
  have keeps := keepsLinks_held state.eventLoop.refs addrs
  obtain ⟨after, done⟩ := EventLoop.eventLoopBreak_returns chain keeps listening.closable
  have active : state.eventLoop.sigintWatcher.active = true ∨
      state.eventLoop.sigtermWatcher.active = true := by
    by_contra neither
    simp only [not_or, Bool.not_eq_true] at neither
    exact armed neither
  have ready : state.Ready (.breakSignal (List.replicate addrs.length .held)) := by
    refine ⟨waiting, noWindow, active, fun other same => ?_⟩
    cases same.unique chain
    exact (List.length_replicate).symm.le
  have taken : (keeping cmd).step state (.work (.breakSignal (List.replicate addrs.length .held)))
      (state.did (.breakSignal (List.replicate addrs.length .held)) after) := by
    refine ⟨.work running ready done, fun other same => ?_⟩
    cases same.unique chain
    exact keeps
  have reached : ∀ io ∈ state.eventLoop.active, ∃ addr ∈ addrs, ∃ found,
      state.eventLoop.listenCmds addr = some found ∧ io ∈ found.closing := by
    intro io watched
    cases io with
    | est socket => exact absurd watched (unconnected socket)
    | listen array index =>
        obtain ⟨addr, found, live, status, watchers, inside⟩ :=
          listening.watched array index watched
        have closing : found.closing = EventLoop.arrayWatchers array found.watchersCount := by
          simp [ListenCmd.closing, ListenCmd.closes, status, watchers]
        refine ⟨addr, (listening.listed addr).mpr (.inl ⟨found, live, .inr status⟩), found,
          live, ?_⟩
        rw [closing]
        exact EventLoop.mem_arrayWatchers.mpr ⟨index, inside, rfl⟩
  obtain ⟨counts, none, noSigint, noSigterm⟩ :=
    EventLoop.eventLoopBreak_activity chain keeps reached done
  refine .once taken ⟨running, waiting, ?_⟩
  have counted := counts (valid reachable.of_restrict).counted
  exact activecnt_of_idle counted none ⟨noSigint, noSigterm⟩

/-- In a run that keeps the list of listen commands, `ev_run` can return from where
it waits unless a listening socket is watched and no break signal is (with
`die_on_signal` off, or after a break that came before the listen command), or a
connection is watched and not for `EV_READ`. -/
theorem canReturn_iff (cmd : Call → SubjectCmd Addr) (state : State Call)
    (reachable : (keeping cmd).Reachable state) (running : state.fault = none)
    (waiting : state.queue.consumer = .waiting) :
    (system cmd).Can Returns state ↔
      ¬(Disarmed state.eventLoop ∧ Listens state.eventLoop) ∧
        ∀ socket, ¬EventLoop.Mute state.eventLoop socket := by
  constructor
  · intro can
    constructor
    · exact fun stuck => never_returns reachable.of_restrict stuck.1 stuck.2 can
    · exact fun socket mute => never_returns_of_mute reachable.of_restrict mute can
  · intro unhindered
    obtain ⟨free, heard⟩ := unhindered
    apply @System.Can.of_restrict _ _ (system cmd) state Returns KeepsList
    refine ((leavesWindow reachable running).reachable reachable).bind ?_
    intro settled done
    obtain ⟨reached, running, noWindow, consumer, sigint, sigterm, active, sockets⟩ := done
    have stillHeard : ∀ socket, ¬EventLoop.Mute settled.eventLoop socket := by
      intro socket mute
      rw [EventLoop.Mute, active, sockets] at mute
      exact heard socket mute
    refine ((hangsUp reached running (consumer.trans waiting) stillHeard).reachable
      reached).bind ?_
    intro unconnected done
    obtain ⟨reached, hungUp, closed⟩ := done
    by_cases disarmed : Disarmed unconnected.eventLoop
    · refine .now ⟨hungUp.fault, hungUp.waiting, ?_⟩
      have before : Disarmed state.eventLoop := by
        rw [Disarmed, ← sigint, ← sigterm, ← hungUp.sigintWatcher, ← hungUp.sigtermWatcher]
        exact disarmed
      have idle : unconnected.eventLoop.active = ∅ := by
        apply Finset.eq_empty_of_forall_notMem
        intro io watched
        cases io with
        | est socket => exact closed socket watched
        | listen array index =>
            exact free ⟨before, array, index, active ▸ hungUp.active watched⟩
      exact activecnt_of_idle (valid reached.of_restrict).counted idle disarmed
    · exact returns_of_armed reached hungUp.fault hungUp.waiting (hungUp.window.trans noWindow)
        disarmed closed

/-- A connection whose protocol begins with the given mask. -/
def connects (value : Int) : AcceptOutcome :=
  .accepted 6 ⟨none, ""⟩ (.generator 1 (.allocated 2 (.yielded (some value))))

/-- A loop that listens and has accepted a connection for `EV_READ` can return; with one
that waits for nothing it cannot. -/
theorem canReturn_iff_connected :
    (∃ state, (keeping listenOnce).Reachable state ∧ .est 2 ∈ state.eventLoop.active ∧
      (system listenOnce).Can Returns state) ∧
    ∃ state, (keeping listenOnce).Reachable state ∧ .est 2 ∈ state.eventLoop.active ∧
      ¬(system listenOnce).Can Returns state := by
  have start : (keeping listenOnce).Reachable started := .start ⟨_, _, _, _, true, rfl⟩
  have constructed := start.step ⟨@Step.construct _ _ listenOnce _ 0 none "8080" rfl rfl, trivial⟩
  have queued := constructed.step
    ⟨@Step.enqueue _ _ listenOnce _ () rfl rfl rfl (by decide) (.inr ⟨rfl, by decide⟩), trivial⟩
  have sent := queued.step ⟨@Step.send _ _ listenOnce _ () rfl rfl, trivial⟩
  have owned := sent.step ⟨@Step.incref _ _ listenOnce _ () rfl rfl rfl, trivial⟩
  have woken := owned.step ⟨@Step.wake _ _ listenOnce _ rfl rfl rfl rfl, trivial⟩
  have got := woken.step ⟨@Step.get _ _ listenOnce _ rfl rfl, trivial⟩
  have linked := got.step ⟨@Step.work _ _ listenOnce _ (.dispatch ⟨50, 0⟩ 0) _ rfl
    ⟨rfl, by decide⟩ rfl, fun _ found live => by cases live; simp [ListenCmd.Dispatched]⟩
  have listening := linked.step ⟨@Step.work _ _ listenOnce _
    (.finish ⟨50, 0⟩ 0 ⟨false, .found [⟨.found "::" "8080", .listening 5⟩]⟩) _ rfl
    ⟨rfl, by decide, by decide, by decide⟩ rfl, trivial⟩
  have reading := listening.step ⟨@Step.work _ _ listenOnce _
    (.listenSocketIo 0 0 ⟨true, false, false⟩ ⟨none, ""⟩ (connects 1)) _ rfl
    ⟨rfl, by decide, by decide, fun _ _ => rfl⟩ rfl, trivial⟩
  have idle := listening.step ⟨@Step.work _ _ listenOnce _
    (.listenSocketIo 0 0 ⟨true, false, false⟩ ⟨none, ""⟩ (connects 0)) _ rfl
    ⟨rfl, by decide, by decide, fun _ _ => rfl⟩ rfl, trivial⟩
  refine ⟨⟨_, reading, by decide, ?_⟩, _, idle, by decide, fun can => ?_⟩
  · refine (canReturn_iff listenOnce _ reading rfl rfl).mpr ⟨?_, ?_⟩
    · exact fun stuck => Bool.false_ne_true stuck.1.1.symm
    · exact EventLoop.not_mute_of_heard (by decide)
  · have mute := ((canReturn_iff listenOnce _ idle rfl rfl).mp can).2 2
    exact mute ⟨by decide, _, rfl, by decide⟩

end EventLoopRuns

end Striga.Pyglev
