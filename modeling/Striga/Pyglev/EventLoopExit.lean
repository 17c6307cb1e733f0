import Striga.Pyglev.EventLoopRuns

/-! After a break nothing keeps `ev_run` from returning: in which runs. -/

set_option autoImplicit false

namespace Striga.Pyglev

open Lib
open Lib.LinkedList (Chain)

namespace EventLoop

variable {self next : EventLoop}

/-- The part of a loop that decides whether `ev_run` goes on is the same. -/
structure SameActivity (before after : EventLoop) : Prop where
  active : after.active = before.active
  loop : after.loop = before.loop
  sigintWatcher : after.sigintWatcher = before.sigintWatcher
  sigtermWatcher : after.sigtermWatcher = before.sigtermWatcher

theorem SameActivity.counted (same : SameActivity self next) (counted : self.Counted) :
    next.Counted := by
  unfold Counted at counted ⊢
  rw [same.active, same.loop, same.sigintWatcher, same.sigtermWatcher]
  exact counted

theorem sameActivity_closeFd (fd : Int) : SameActivity self (self.closeFd fd) := by
  unfold closeFd
  split
  · exact ⟨rfl, rfl, rfl, rfl⟩
  · exact ⟨rfl, rfl, rfl, rfl⟩

theorem sameActivity_leave (fd : Int) (left : Option Addr) :
    SameActivity self (self.leave fd left) := by
  cases left with
  | none | some => exact ⟨rfl, rfl, rfl, rfl⟩

theorem Accepted.counted {clientSocket : Int} {protocol : ProtocolOutcome}
    (accepted : self.Accepted clientSocket protocol next) (counted : self.Counted) :
    next.Counted := by
  unfold Accepted at accepted
  split at accepted
  · obtain ⟨loop, gil, counts, _⟩ := accepted
    exact counts counted
  · obtain ⟨gil, rfl⟩ := accepted
    exact (sameActivity_closeFd _).counted ((sameActivity_leave _ _).counted counted)

theorem ListenEvent.counted {cmd : ListenCmd} {outcome : AcceptOutcome}
    (event : self.ListenEvent cmd outcome next) (counted : self.Counted) : next.Counted := by
  cases event with
  | nothing => exact counted
  | notListening => exact (sameActivity_closeFd _).counted counted
  | accepted _ accepted => exact accepted.counted counted

theorem EstEvent.counted {addr : Addr} {socket : EstSocket} {outcome : ReadOutcome}
    (event : self.EstEvent addr socket outcome next) (counted : self.Counted) : next.Counted := by
  cases event with
  | nothing => exact counted
  | closed => exact Counted.ioStop counted
  | resumed counts _ => exact counts counted

theorem sameActivity_beginDispatch {cmd : SubjectCmd Addr}
    (done : self.beginDispatch cmd = .ok next) : SameActivity self next := by
  rcases beginDispatch_cases done with ⟨_, rfl⟩ | ⟨_, found, _, rfl⟩ | ⟨_, _, rfl⟩
  · exact ⟨rfl, rfl, rfl, rfl⟩
  · exact ⟨rfl, rfl, rfl, rfl⟩
  · exact ⟨rfl, rfl, rfl, rfl⟩

/-- The end of a dispatch starts watchers only for a listen command that listens on
some address. -/
theorem endDispatch_activity {cmd : SubjectCmd Addr} {outcome : DispatchOutcome}
    (fresh : outcome.resolve.Fresh self.openFds)
    (done : self.endDispatch cmd outcome = .ok next) :
    (self.Counted → next.Counted) ∧ next.sigintWatcher = self.sigintWatcher ∧
      next.sigtermWatcher = self.sigtermWatcher ∧ (next.active = self.active ∨
        cmd.id = 50 ∧ outcome.resolve.succeeds = true ∧ outcome.resolve.addresses ≠ []) := by
  rcases endDispatch_cases fresh done with ⟨_, rfl⟩ | ⟨listens, found, _, scheduled⟩ | ⟨_, _, rfl⟩
  · have same : SameActivity self (self.endCallable cmd.subject outcome.raises) :=
      ⟨rfl, rfl, rfl, rfl⟩
    exact ⟨same.counted, rfl, rfl, .inl rfl⟩
  · unfold Scheduled at scheduled
    split at scheduled
    · rename_i succeeds
      obtain ⟨loop, gil, counts, rfl⟩ := scheduled
      refine ⟨counts, rfl, rfl, ?_⟩
      by_cases none : outcome.resolve.addresses = []
      · exact .inl (by simp [none, arrayWatchers])
      · exact .inr ⟨listens, succeeds, none⟩
    · obtain ⟨gil, rfl⟩ := scheduled
      exact ⟨fun counted => counted, rfl, rfl, .inl rfl⟩
  · have same : SameActivity self self.dispatchUnknown := ⟨rfl, rfl, rfl, rfl⟩
    exact ⟨same.counted, rfl, rfl, .inl rfl⟩

/-- A break that comes to all active watchers leaves none active. -/
theorem eventLoopBreak_activity {addrs : List Addr} {drops : List Dropped}
    (chain : Chain self.listenLinks self.listenCommands addrs)
    (keeps : KeepsLinks self.refs addrs drops)
    (reached : ∀ io ∈ self.active, ∃ addr ∈ addrs, ∃ cmd,
      self.listenCmds addr = some cmd ∧ io ∈ cmd.closing)
    (done : self.eventLoopBreak drops = .ok next) :
    (self.Counted → next.Counted) ∧ next.active = ∅ ∧
      next.sigintWatcher.active = false ∧ next.sigtermWatcher.active = false := by
  obtain ⟨closed, all, rfl⟩ := eventLoopBreak_closedAll chain keeps done
  obtain ⟨loop, sigint, sigterm, stopped, noSigint, noSigterm⟩ := @stopBreakSignals_eq self
  refine ⟨fun counted => all.counted counted.stopBreakSignals, ?_, ?_, ?_⟩
  · apply Finset.eq_empty_of_forall_notMem
    intro io member
    obtain ⟨active, notClosing⟩ := (all.active io).mp member
    obtain ⟨addr, listed, cmd, found, closing⟩ := reached io active
    exact notClosing addr listed cmd found closing
  · obtain ⟨_, _, _, _, _, _, _, _, rfl⟩ := all.changed
    change self.stopBreakSignals.sigintWatcher.active = false
    rw [stopped]
    exact noSigint
  · obtain ⟨_, _, _, _, _, _, _, _, rfl⟩ := all.changed
    change self.stopBreakSignals.sigtermWatcher.active = false
    rw [stopped]
    exact noSigterm

end EventLoop

namespace EventLoopRuns

variable {Call : Type} [DecidableEq Call] {cmd : Call → SubjectCmd Addr}
  {state next : State Call} {label : Label Call}

/-- After a break, and until the next scheduling call, no io watcher is active and
the reference count of the loop is zero. -/
def CanExit (state : State Call) : Prop :=
  state.broken = true → state.eventLoop.active = ∅ ∧ state.eventLoop.loop.activecnt = 0

/-- The break comes to every watcher that is active, and no command that is still
queued then starts another. -/
def LetsGo (state : State Call) : Label Call → State Call → Prop
  | .work (.breakSignal drops), _ => ∃ addrs,
      Chain state.eventLoop.listenLinks state.eventLoop.listenCommands addrs ∧
      KeepsLinks state.eventLoop.refs addrs drops ∧
      ∀ io ∈ state.eventLoop.active, ∃ addr ∈ addrs, ∃ cmd,
        state.eventLoop.listenCmds addr = some cmd ∧ io ∈ cmd.closing
  | .work (.finish command _ outcome), _ => state.broken = true → command.id = 50 →
      outcome.resolve.succeeds = true → outcome.resolve.addresses = []
  | _, _ => True

/-- What carries `CanExit` along a run. -/
structure Settled (state : State Call) : Prop where
  counted : state.eventLoop.Counted
  quiet : state.broken = true → state.eventLoop.active = ∅ ∧
    state.eventLoop.sigintWatcher.active = false ∧ state.eventLoop.sigtermWatcher.active = false

omit [DecidableEq Call] in
theorem Settled.canExit (settled : Settled state) : CanExit state := by
  intro broken
  obtain ⟨idle, noSigint, noSigterm⟩ := settled.quiet broken
  have counted := settled.counted
  simp only [EventLoop.Counted, idle, noSigint, noSigterm] at counted
  exact ⟨idle, by simpa using counted⟩

theorem ctor_counted (gil : Gil) (openFds : Finset Int) (dieOnSignal : Bool) :
    (EventLoop.ctor gil openFds dieOnSignal).Counted := by
  cases dieOnSignal with
  | true | false => rfl

omit [DecidableEq Call] in
theorem Settled.same (settled : Settled state)
    (same : EventLoop.SameActivity state.eventLoop next.eventLoop)
    (broken : next.broken = true → state.broken = true) : Settled next where
  counted := same.counted settled.counted
  quiet := by
    intro after
    rw [same.active, same.sigintWatcher, same.sigtermWatcher]
    exact settled.quiet (broken after)

omit [DecidableEq Call] in
theorem Settled.work (settled : Settled state) {work : Work} {after : EventLoop}
    (ready : state.Ready work) (done : work.perform state.eventLoop = .ok after)
    (letsGo : LetsGo state (.work work) (state.did work after)) :
    Settled (state.did work after) := by
  have idle : ∀ io ∈ state.eventLoop.active, state.broken ≠ true := by
    intro io member broken
    rw [(settled.quiet broken).1] at member
    exact Finset.notMem_empty io member
  cases work with
  | dispatch command qsize =>
      exact settled.same (EventLoop.sameActivity_beginDispatch done)
        (by simp [State.did, Work.breaks])
  | finish command qsize outcome =>
      obtain ⟨counts, sigint, sigterm, active⟩ := EventLoop.endDispatch_activity ready.2.2 done
      refine ⟨counts settled.counted, fun broken => ?_⟩
      have before : state.broken = true := by simpa [State.did, Work.breaks] using broken
      obtain ⟨none, noSigint, noSigterm⟩ := settled.quiet before
      refine ⟨?_, sigint ▸ noSigint, sigterm ▸ noSigterm⟩
      rcases active with same | ⟨listens, succeeds, some⟩
      · exact same.trans none
      · exact absurd (letsGo before listens succeeds) some
  | breakSignal drops =>
      obtain ⟨addrs, chain, keeps, reached⟩ := letsGo
      obtain ⟨counts, none, noSigint, noSigterm⟩ :=
        EventLoop.eventLoopBreak_activity chain keeps reached done
      exact ⟨counts settled.counted, fun _ => ⟨none, noSigint, noSigterm⟩⟩
  | listenSocketIo array index revents reported outcome =>
      obtain ⟨_, active, _⟩ := ready
      obtain ⟨_, _, _, event⟩ := (EventLoop.onListenSocketIo_within _ _ _ _).of_ok done
      refine ⟨event.counted settled.counted, fun broken => ?_⟩
      exact absurd (by simpa [State.did, Work.breaks] using broken) (idle _ active)
  | estSocketIo socket revents outcome =>
      obtain ⟨_, _, event⟩ := (EventLoop.onEstSocketIo_within _ _ _).of_ok done
      refine ⟨event.counted settled.counted, fun broken => ?_⟩
      exact absurd (by simpa [State.did, Work.breaks] using broken) (idle _ ready.2.1)
  | traverse onErrorStops visits =>
      obtain ⟨head, rfl⟩ := EventLoop.tpTraverse_eq done
      exact settled.same ⟨rfl, rfl, rfl, rfl⟩ (by simp [State.did, Work.breaks])
  | clear =>
      have same := EventLoop.tpClear_eq done
      subst same
      exact settled.same ⟨rfl, rfl, rfl, rfl⟩ (by simp [State.did, Work.breaks])

theorem Settled.step (settled : Settled state) (taken : (system cmd).step state label next)
    (letsGo : LetsGo state label next) : Settled next := by
  cases taken with
  | construct | release | send | incref | wake | get | crash =>
      exact settled.same ⟨rfl, rfl, rfl, rfl⟩ fun broken => broken
  | mistyped => exact ⟨settled.counted, fun broken => by cases broken⟩
  | enqueue =>
      unfold State.enqueue
      dsimp only
      split
      · exact ⟨settled.counted, fun broken => by cases broken⟩
      · exact ⟨settled.counted, fun broken => by cases broken⟩
  | work _ ready done => exact settled.work ready done letsGo

/-- In a run whose steps all let go, the loop can exit after each break. -/
theorem canExit_of_letsGo (cmd : Call → SubjectCmd Addr) (start : State Call)
    (path : List (Label Call × State Call)) (run : (system cmd).Run start path)
    (letsGo : AllSteps LetsGo start path) : AllStates CanExit start path := by
  apply run.allStates Settled letsGo
  · intro state initial
    obtain ⟨loop, block, gil, openFds, dieOnSignal, rfl⟩ := initial
    exact ⟨ctor_counted gil openFds dieOnSignal, fun broken => by cases broken⟩
  · exact fun state label next _ settled taken letsGo => settled.step taken letsGo
  · exact fun state settled => settled.canExit

/-- A loop with break signals, before anything is scheduled. -/
def started : State Unit :=
  ⟨.fresh ⟨0⟩ EventLoop.cmdQSize fun _ => ⟨0, 0⟩, EventLoop.ctor ⟨none, some 1, []⟩ ∅ true,
    none, [], [], false, none⟩

def listenOnce : Unit → SubjectCmd Addr := fun _ => ⟨50, 0⟩

/-- A run in which the loop listens on two addresses when the break signal comes. -/
theorem canExit_of_letsGo_listening :
    ∃ start, ∃ path : List (Label Unit × State Unit),
      .work (.breakSignal [.held]) ∈ path.map Prod.fst ∧ AllStates CanExit start path := by
  have start : ((system listenOnce).restrict LetsGo).Reachable started :=
    .start ⟨_, _, _, _, true, rfl⟩
  have constructed := start.step
    ⟨@Step.construct _ _ listenOnce _ 0 none "8080" rfl rfl, trivial⟩
  have queued := constructed.step
    ⟨@Step.enqueue _ _ listenOnce _ () rfl rfl rfl (by decide) (.inr ⟨rfl, by decide⟩), trivial⟩
  have sent := queued.step ⟨@Step.send _ _ listenOnce _ () rfl rfl, trivial⟩
  have owned := sent.step ⟨@Step.incref _ _ listenOnce _ () rfl rfl rfl, trivial⟩
  have woken := owned.step ⟨@Step.wake _ _ listenOnce _ rfl rfl rfl rfl, trivial⟩
  have got := woken.step ⟨@Step.get _ _ listenOnce _ rfl rfl, trivial⟩
  have linked := got.step ⟨@Step.work _ _ listenOnce _ (.dispatch ⟨50, 0⟩ 0) _ rfl
    ⟨rfl, by decide⟩ rfl, trivial⟩
  have listening := linked.step ⟨@Step.work _ _ listenOnce _ (.finish ⟨50, 0⟩ 0
    ⟨false, .found [⟨.found "::" "8080", .listening 5⟩, ⟨.found "0.0.0.0" "8080", .listening 6⟩]⟩)
    _ rfl ⟨rfl, by decide, by decide, by decide⟩ rfl, fun broken => by cases broken⟩
  obtain ⟨start, path, run, letsGo, broken⟩ :=
    @System.Reachable.exists_run _ _ _ _ _ listening [(_, _)]
      ⟨⟨@Step.work _ _ listenOnce _ (.breakSignal [.held]) _ rfl
        ⟨rfl, rfl, .inl rfl, fun addrs chain => by
          have same : addrs = [0] := chain.unique ⟨rfl, none, rfl, rfl⟩
          rw [same]
          exact Nat.le_refl 1⟩ rfl,
        ⟨[0], ⟨rfl, none, rfl, rfl⟩, ⟨trivial, trivial⟩, by decide⟩⟩, trivial⟩
  exact ⟨start, path, List.mem_map_of_mem (broken List.mem_cons_self),
    canExit_of_letsGo listenOnce start path run letsGo⟩

/-- A listen command that is still queued at the break listens after it. -/
theorem queued_command_outlives_break :
    ¬ ∀ (cmd : Unit → SubjectCmd Addr) state, (system cmd).Reachable state → CanExit state := by
  intro always
  have start : (system listenOnce).Reachable started := .start ⟨_, _, _, _, true, rfl⟩
  have constructed := start.step (@Step.construct _ _ listenOnce _ 0 none "8080" rfl rfl)
  have queued := constructed.step
    (@Step.enqueue _ _ listenOnce _ () rfl rfl rfl (by decide) (.inr ⟨rfl, by decide⟩))
  have sent := queued.step (@Step.send _ _ listenOnce _ () rfl rfl)
  have owned := sent.step (@Step.incref _ _ listenOnce _ () rfl rfl rfl)
  have broken := owned.step (@Step.work _ _ listenOnce _ (.breakSignal []) _ rfl
    ⟨rfl, rfl, .inl rfl, fun addrs chain => by
      cases addrs with
      | nil => exact Nat.le_refl 0
      | cons addr addrs => cases chain.1⟩ rfl)
  have woken := broken.step (@Step.wake _ _ listenOnce _ rfl rfl rfl rfl)
  have got := woken.step (@Step.get _ _ listenOnce _ rfl rfl)
  have linked := got.step (@Step.work _ _ listenOnce _ (.dispatch ⟨50, 0⟩ 0) _ rfl
    ⟨rfl, by decide⟩ rfl)
  have listening := linked.step (@Step.work _ _ listenOnce _
    (.finish ⟨50, 0⟩ 0 ⟨false, .found [⟨.found "::" "8080", .listening 5⟩]⟩) _ rfl
    ⟨rfl, by decide, by decide, by decide⟩ rfl)
  obtain ⟨idle, _⟩ := always listenOnce _ listening rfl
  exact absurd idle (by decide)

end EventLoopRuns

end Striga.Pyglev
