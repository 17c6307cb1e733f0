import Striga.Pyglev.EventLoopOwnership

/-! The list of listen commands over the runs of an event loop: as long as it
holds each dispatched command once, the break and the garbage collector come to
each of them once and to an end. -/

set_option autoImplicit false

namespace Striga.Pyglev

open Lib
open Lib.LinkedList (Chain)

theorem EventLoop.ctor_listening (gil : Gil) (openFds : Finset Int) (dieOnSignal : Bool) :
    (ctor gil openFds dieOnSignal).Listening [] none := by
  cases dieOnSignal with
  | true | false => constructor <;> simp [ctor, fresh]

theorem EventLoop.ctor_refs (gil : Gil) (openFds : Finset Int) (dieOnSignal : Bool) :
    (ctor gil openFds dieOnSignal).refs = fun _ => 0 := by
  cases dieOnSignal with
  | true | false => rfl

theorem EventLoop.tpTraverse_stays {self : EventLoop} {onErrorStops : Bool} {visits : List Bool}
    (stays : onErrorStops = true ∨ self.listenCommands = none ∨ visits.head? = some true) :
    self.tpTraverse onErrorStops visits = .ok self := by
  unfold tpTraverse
  split
  · rfl
  · rename_i goesOn
    cases listed : self.listenCommands with
    | none =>
        cases visits with
        | nil | cons => rfl
    | some head =>
        have stops := (stays.resolve_left goesOn).resolve_left (by simp [listed])
        cases visits with
        | nil => cases stops
        | cons first rest =>
            cases stops
            rfl

theorem EventLoop.tpClear_stays {self : EventLoop} (none : self.listenCommands = none) :
    self.tpClear = .ok self := by
  simp [tpClear, none]

namespace EventLoopRuns

variable {Call : Type} {cmd : Call → SubjectCmd Addr}
  {state next : State Call} {label : Label Call} {addrs : List Addr}

/-- The list is finite and holds each command that is dispatched and not closed
once; no traversal has failed to come to its end. -/
structure ListsOnce (state : State Call) : Prop where
  listed : ∃ addrs, Chain state.eventLoop.listenLinks state.eventLoop.listenCommands addrs ∧
    addrs.Nodup ∧ ∀ addr, addr ∈ addrs ↔
      (∃ found, state.eventLoop.listenCmds addr = some found ∧ found.Dispatched) ∨
        linking state.queue.consumer = some addr
  fault : ∀ fault, state.fault = some fault → fault.unlisted = true

/-- A break gives back the reference of each command of the list once and leaves no
command on it, and the collector leaves the list as it is. -/
def VisitsOnce (state : State Call) : Label Call → State Call → Prop
  | .work (.breakSignal _), next => ∀ addrs,
      Chain state.eventLoop.listenLinks state.eventLoop.listenCommands addrs →
        next.eventLoop.listenCommands = none ∧ ∀ object, next.eventLoop.refs object =
          state.eventLoop.refs object - if object ∈ addrs then 1 else 0
  | .work (.traverse _ _), next | .work .clear, next => next.eventLoop = state.eventLoop
  | _, _ => True

/-- No command is dispatched that is on the list, the break reads the `next` that was
there, and the collector finds the list empty or does not get past its head. -/
def KeepsList (state : State Call) : Label Call → State Call → Prop
  | .work (.dispatch command _), _ => command.id = 50 → ∀ found,
      state.eventLoop.listenCmds command.subject = some found → ¬found.Dispatched
  | .work (.breakSignal drops), _ => ∀ addrs,
      Chain state.eventLoop.listenLinks state.eventLoop.listenCommands addrs →
        KeepsLinks state.eventLoop.refs addrs drops
  | .work (.traverse onErrorStops visits), _ => onErrorStops = true ∨
      state.eventLoop.listenCommands = none ∨ visits.head? = some true
  | .work .clear, _ => state.eventLoop.listenCommands = none
  | _, _ => True

theorem Owned.work (owned : Owned cmd state addrs) {work : Work} {after : EventLoop}
    (ready : state.Ready work) (done : work.perform state.eventLoop = .ok after)
    (keeps : KeepsList state (.work work) (state.did work after)) :
    ∃ addrs, Owned cmd (state.did work after) addrs := by
  cases work with
  | dispatch command qsize => exact owned.dispatch ready.1 done keeps
  | finish command qsize outcome =>
      exact ⟨addrs, owned.finish ready.1 ready.2.1 ready.2.2 done⟩
  | breakSignal drops =>
      obtain ⟨waiting, noWindow, _⟩ := ready
      have chain := owned.listening.chain
      exact ⟨[], owned.breakSignal waiting noWindow (keeps addrs chain) done⟩
  | listenSocketIo array index revents reported outcome =>
      obtain ⟨listenCmd, found, _, event⟩ :=
        (EventLoop.onListenSocketIo_within _ _ _ _).of_ok done
      obtain ⟨listening, refs, listenCmds⟩ := owned.listening.listenEvent event
      exact ⟨addrs, owned.beside rfl listening refs listenCmds⟩
  | estSocketIo socket revents outcome =>
      obtain ⟨_, _, event⟩ := (EventLoop.onEstSocketIo_within _ _ _).of_ok done
      obtain ⟨listening, refs, listenCmds⟩ := owned.listening.estEvent event
      exact ⟨addrs, owned.beside rfl listening refs listenCmds⟩
  | traverse onErrorStops visits =>
      have same := (EventLoop.tpTraverse_stays keeps).symm.trans done
      cases same
      exact ⟨addrs, owned.beside rfl owned.listening rfl rfl⟩
  | clear =>
      have same := (EventLoop.tpClear_stays keeps).symm.trans done
      cases same
      exact ⟨addrs, owned.beside rfl owned.listening rfl rfl⟩

/-- What is left to crash has nothing to do with the list. -/
theorem Owned.fault (owned : Owned cmd state addrs) {work : Work} {crash : Crash}
    (ready : state.Ready work) (crashed : work.perform state.eventLoop = .error crash)
    (keeps : KeepsList state (.work work) next) : crash.fault.unlisted = true := by
  have listening := owned.listening
  cases work with
  | dispatch command qsize =>
      obtain ⟨holding, _⟩ := ready
      have member : command ∈ state.entries := by simp [State.entries, holding, owed]
      simp only [Work.perform, EventLoop.beginDispatch] at crashed
      rcases owned.queued command member with callable | ⟨listens, live⟩
      · simp [callable] at crashed
      · obtain ⟨found, live⟩ := Option.ne_none_iff_exists'.mp live
        simp [listens, EventLoop.linkListenCmd, live] at crashed
  | finish command qsize outcome =>
      obtain ⟨dispatching, _⟩ := ready
      simp only [Work.perform, EventLoop.endDispatch] at crashed
      split at crashed
      · cases crashed
      · split at crashed
        · rename_i listens
          obtain ⟨found, live, _⟩ := listening.linked command.subject
            (by simp [dispatching, linking, listens])
          exact (EventLoop.listenCmdXschedule01_fault live).of_error crashed
        · cases crashed
  | breakSignal drops =>
      obtain ⟨waiting, _⟩ := ready
      rw [waiting] at listening
      obtain ⟨after, returns⟩ := EventLoop.eventLoopBreak_returns listening.chain
        (keeps addrs listening.chain) listening.closable
      cases returns.symm.trans crashed
  | listenSocketIo array index revents reported outcome =>
      obtain ⟨_, active, _⟩ := ready
      obtain ⟨listenCmd, found, live, _, watchers, _⟩ := listening.watched array index active
      obtain ⟨fds, allocated, _⟩ := listening.arrays listenCmd found array live watchers
      have data : state.eventLoop.watcherData array = some (listenCmd, found) := by
        simp [EventLoop.watcherData, allocated, live]
      exact (EventLoop.onListenSocketIo_fault data).of_error crashed
  | estSocketIo socket revents outcome =>
      obtain ⟨found, connected⟩ := Option.ne_none_iff_exists'.mp
        (listening.connected socket ready.2.1)
      simp only [Work.perform, EventLoop.onEstSocketIo, connected] at crashed
      split at crashed
      · cases outcome with
        | closed | failed => cases crashed
        | data => exact (EventLoop.onEstSocketRead_fault _ _ _ _).of_error crashed
      · cases crashed
  | traverse onErrorStops visits =>
      cases (EventLoop.tpTraverse_stays keeps).symm.trans crashed
  | clear => cases (EventLoop.tpClear_stays keeps).symm.trans crashed

/-- What carries `ListsOnce` along a run. -/
structure Sound (cmd : Call → SubjectCmd Addr) (state : State Call) : Prop where
  owned : ∃ addrs, Owned cmd state addrs
  fault : ∀ fault, state.fault = some fault → fault.unlisted = true

theorem Sound.listsOnce (sound : Sound cmd state) : ListsOnce state := by
  obtain ⟨addrs, owned⟩ := sound.owned
  have listening := owned.listening
  exact ⟨⟨addrs, listening.chain, listening.chain.nodup, listening.listed⟩, sound.fault⟩

variable [DecidableEq Call]

theorem Owned.step (owned : Owned cmd state addrs) (reachable : (system cmd).Reachable state)
    (taken : (system cmd).step state label next) (keeps : KeepsList state label next) :
    ∃ addrs, Owned cmd next addrs := by
  cases taken with
  | @construct listenCmd host port _ free => exact ⟨addrs, owned.construct free host port _⟩
  | release _ live unreferenced outside => exact ⟨addrs, owned.release live unreferenced outside⟩
  | mistyped => exact ⟨addrs, owned.frame owned.listening (fun _ live => live) rfl rfl (.refl _)⟩
  | enqueue _ noWindow _ _ schedules =>
      exact ⟨addrs, owned.enqueue (queue_active reachable) (queue_wellFormed reachable) noWindow
        schedules⟩
  | send => exact ⟨addrs, owned.frame owned.listening (fun _ live => live) rfl rfl (.refl _)⟩
  | incref _ window _ => exact ⟨addrs, owned.incref window⟩
  | wake _ waiting =>
      have listening := owned.listening
      rw [waiting] at listening
      refine ⟨addrs, owned.frame listening (fun _ live => live) rfl rfl ?_⟩
      rw [wake_entries waiting]
  | get _ getting =>
      exact ⟨addrs, owned.get (queue_wellFormed reachable) (queue_small reachable) getting⟩
  | work _ ready done => exact owned.work ready done keeps
  | crash => exact ⟨addrs, owned.frame owned.listening (fun _ live => live) rfl rfl (.refl _)⟩

theorem entries_initial (initial : (system cmd).initial state) : state.entries = [] := by
  obtain ⟨loop, block, gil, openFds, dieOnSignal, rfl⟩ := initial
  have positive : 0 < EventLoop.cmdQSize := by decide
  have pending : (CmdQ.new EventLoop.cmdQSize block).pending = [] :=
    (Ring.Machine.Represents.empty positive).items.symm
  change (CmdQ.new EventLoop.cmdQSize block).pending ++ [] = []
  rw [pending]
  rfl

theorem Sound.initial (initial : (system cmd).initial state) : Sound cmd state := by
  have entries := entries_initial initial
  obtain ⟨loop, block, gil, openFds, dieOnSignal, rfl⟩ := initial
  refine ⟨⟨[], EventLoop.ctor_listening gil openFds dieOnSignal, ?_, ?_, ?_⟩, nofun⟩
  · rw [entries]
    simp
  · intro object
    rw [State.entriesOf, entries]
    simp [State.inWindow, EventLoop.ctor_refs]
  · simp [EventLoop.ctor_refs]

theorem Sound.step (sound : Sound cmd state) (reachable : (system cmd).Reachable state)
    (taken : (system cmd).step state label next) (keeps : KeepsList state label next) :
    Sound cmd next := by
  obtain ⟨addrs, owned⟩ := sound.owned
  refine ⟨owned.step reachable taken keeps, ?_⟩
  have still {after : State Call} (running : state.fault = none) (same : after.fault = state.fault)
      (fault : Fault) (faulty : after.fault = some fault) : fault.unlisted = true := by
    cases faulty.symm.trans (same.trans running)
  cases taken with
  | construct running | release running | mistyped running | send running | incref running
  | wake running | get running | work running => exact still running rfl
  | enqueue running =>
      unfold State.enqueue
      dsimp only
      split
      · exact still running rfl
      · exact still running rfl
  | crash _ ready crashed =>
      intro fault faulty
      cases faulty
      exact owned.fault ready crashed keeps

theorem Sound.visitsOnce (sound : Sound cmd state) (taken : (system cmd).step state label next)
    (keeps : KeepsList state label next) : VisitsOnce state label next := by
  obtain ⟨addrs, owned⟩ := sound.owned
  cases taken with
  | construct | release | mistyped | enqueue | send | incref | wake | get => trivial
  | @work work after _ ready done =>
      cases work with
      | dispatch | finish | listenSocketIo | estSocketIo => trivial
      | breakSignal drops =>
          intro listed chain
          have listening := owned.listening
          obtain ⟨waiting, _⟩ := ready
          rw [waiting] at listening
          cases chain.unique listening.chain
          obtain ⟨closed, refs, _⟩ := listening.eventLoopBreak (keeps _ chain) done
          exact ⟨closed.chain, refs⟩
      | traverse onErrorStops visits =>
          cases (EventLoop.tpTraverse_stays keeps).symm.trans done
          rfl
      | clear =>
          cases (EventLoop.tpClear_stays keeps).symm.trans done
          rfl
  | @crash work crash _ ready crashed =>
      cases work with
      | dispatch | finish | listenSocketIo | estSocketIo => trivial
      | traverse | clear => rfl
      | breakSignal drops =>
          have listening := owned.listening
          obtain ⟨waiting, _⟩ := ready
          rw [waiting] at listening
          obtain ⟨after, returns⟩ := EventLoop.eventLoopBreak_returns listening.chain
            (keeps addrs listening.chain) listening.closable
          cases returns.symm.trans crashed

theorem listsOnce_of_keepsList (cmd : Call → SubjectCmd Addr) (start : State Call)
    (path : List (Label Call × State Call)) (run : (system cmd).Run start path)
    (keeps : AllSteps KeepsList start path) :
    AllStates ListsOnce start path ∧ AllSteps VisitsOnce start path := by
  constructor
  · apply run.allStates (Sound cmd) keeps
    · exact fun state initial => Sound.initial initial
    · exact fun state label next reachable sound taken keeps => sound.step reachable taken keeps
    · exact fun state sound => sound.listsOnce
  · apply run.allSteps (Sound cmd) keeps
    · exact fun state initial => Sound.initial initial
    · exact fun state label next reachable sound taken keeps => sound.step reachable taken keeps
    · exact fun state label next _ sound taken keeps => sound.visitsOnce taken keeps

/-- One listen command that two calls schedule. -/
def listenTwice : Bool → SubjectCmd Addr := fun _ => ⟨50, 0⟩

/-- A loop with break signals, before anything is scheduled. -/
def unscheduled : State Bool :=
  ⟨.fresh ⟨0⟩ EventLoop.cmdQSize fun _ => ⟨0, 0⟩, EventLoop.ctor ⟨none, some 1, []⟩ ∅ true,
    none, [], [], false, none⟩

def listensOn (fd : Int) : DispatchOutcome :=
  ⟨false, .found [⟨.found "::" "8080", .listening fd⟩]⟩

theorem listsOnce_of_keepsList_first_dispatch :
    ∃ path, path.map Prod.fst = [.construct 0 none "8080", .enqueue true, .send true, .incref true,
        .wake, .get, .work (.dispatch ⟨50, 0⟩ 0)] ∧
      AllStates ListsOnce unscheduled path ∧ AllSteps VisitsOnce unscheduled path := by
  exact ⟨[(_, _), (_, _), (_, _), (_, _), (_, _), (_, _), (_, _)], rfl,
    listsOnce_of_keepsList listenTwice unscheduled _ ⟨⟨_, _, _, _, true, rfl⟩,
      .construct rfl rfl, .enqueue rfl rfl rfl (by decide) (.inr ⟨rfl, by decide⟩),
      .send rfl rfl, .incref rfl rfl rfl, .wake rfl rfl rfl rfl, .get rfl rfl,
      .work rfl ⟨rfl, by decide⟩ rfl, trivial⟩
    ⟨trivial, trivial, trivial, trivial, trivial, trivial,
      fun _ found live => by cases live; simp [ListenCmd.Dispatched], trivial⟩⟩

/-- A listen command that is dispatched twice becomes its own next. -/
theorem dispatched_again_is_its_own_next :
    ¬ ∀ (cmd : Bool → SubjectCmd Addr) state, (system cmd).Reachable state → ListsOnce state := by
  intro always
  have start : (system listenTwice).Reachable unscheduled := .start ⟨_, _, _, _, true, rfl⟩
  have constructed := start.step (@Step.construct _ _ listenTwice _ 0 none "8080" rfl rfl)
  have queued := constructed.step
    (@Step.enqueue _ _ listenTwice _ true rfl rfl rfl (by decide) (.inr ⟨rfl, by decide⟩))
  have sent := queued.step (@Step.send _ _ listenTwice _ true rfl rfl)
  have owned := sent.step (@Step.incref _ _ listenTwice _ true rfl rfl rfl)
  have queuedAgain := owned.step
    (@Step.enqueue _ _ listenTwice _ false rfl rfl rfl (by decide) (.inr ⟨rfl, by decide⟩))
  have sentAgain := queuedAgain.step (@Step.send _ _ listenTwice _ false rfl rfl)
  have ownedAgain := sentAgain.step (@Step.incref _ _ listenTwice _ false rfl rfl rfl)
  have woken := ownedAgain.step (@Step.wake _ _ listenTwice _ rfl rfl rfl rfl)
  have got := woken.step (@Step.get _ _ listenTwice _ rfl rfl)
  have linked := got.step (@Step.work _ _ listenTwice _ (.dispatch ⟨50, 0⟩ 1) _ rfl
    ⟨rfl, by decide⟩ rfl)
  have listening := linked.step
    (@Step.work _ _ listenTwice _ (.finish ⟨50, 0⟩ 1 (listensOn 5)) _ rfl
    ⟨rfl, by decide, by decide, by decide⟩ rfl)
  have gotAgain := listening.step (@Step.get _ _ listenTwice _ rfl rfl)
  have linkedAgain := gotAgain.step (@Step.work _ _ listenTwice _ (.dispatch ⟨50, 0⟩ 0) _ rfl
    ⟨rfl, by decide⟩ rfl)
  obtain ⟨⟨addrs, chain, _⟩, _⟩ := always listenTwice _ linkedAgain
  cases addrs with
  | nil => cases chain
  | cons addr rest =>
      obtain ⟨head, next, link, later⟩ := id chain
      cases head
      cases link
      have lengths := congrArg List.length (chain.unique later)
      simp at lengths

end EventLoopRuns

end Striga.Pyglev
