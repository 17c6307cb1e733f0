import Striga.Pyglev.EventLoopExit

/-! What the reference count of a pyglev event loop comes to in any run: the
active watchers of its sockets, and the two break signals, which are armed
together and disarmed for good. -/

set_option autoImplicit false

namespace Striga.Pyglev

open Lib

namespace EventLoop

variable {self next : EventLoop}

/-- What a callback may do to the count: keep it right, and leave the signals. -/
structure Tracks (before after : EventLoop) : Prop where
  counted : before.Counted → after.Counted
  sigintWatcher : after.sigintWatcher = before.sigintWatcher
  sigtermWatcher : after.sigtermWatcher = before.sigtermWatcher

theorem SameActivity.tracks (same : SameActivity self next) : Tracks self next :=
  ⟨same.counted, same.sigintWatcher, same.sigtermWatcher⟩

theorem Tracks.refl : Tracks self self := ⟨id, rfl, rfl⟩

theorem Tracks.trans {middle : EventLoop} (first : Tracks self middle)
    (second : Tracks middle next) : Tracks self next :=
  ⟨fun counted => second.counted (first.counted counted),
    second.sigintWatcher.trans first.sigintWatcher,
    second.sigtermWatcher.trans first.sigtermWatcher⟩

private theorem tracks_gil (gil : Gil) : Tracks self { self with gil := gil } := ⟨id, rfl, rfl⟩

private theorem tracks_opened (fd : Int) (gil : Gil) :
    Tracks self { self.openFd fd with gil := gil } :=
  ⟨id, rfl, rfl⟩

private theorem tracks_ioStop (io : Io) : Tracks self (self.ioStop io) := by
  refine ⟨Counted.ioStop, ?_, ?_⟩ <;>
  · obtain ⟨loop, stopped⟩ := @ioStop_eq self io
    rw [stopped]

theorem Accepted.tracks {clientSocket : Int} {protocol : ProtocolOutcome}
    (accepted : self.Accepted clientSocket protocol next) : Tracks self next := by
  unfold Accepted at accepted
  split at accepted
  · obtain ⟨loop, gil, counts, same⟩ := accepted
    exact ⟨counts, by rw [same], by rw [same]⟩
  · obtain ⟨gil, rfl⟩ := accepted
    exact (tracks_gil gil).trans
      ((sameActivity_leave clientSocket _).tracks.trans (sameActivity_closeFd _).tracks)

theorem ListenEvent.tracks {cmd : ListenCmd} {outcome : AcceptOutcome}
    (event : self.ListenEvent cmd outcome next) : Tracks self next := by
  cases event with
  | nothing => exact ⟨fun counted => counted, rfl, rfl⟩
  | @notListening clientSocket _ _ gil =>
      exact (tracks_opened clientSocket gil).trans (sameActivity_closeFd _).tracks
  | @accepted clientSocket _ _ gil _ _ accepted =>
      exact (tracks_opened clientSocket gil).trans accepted.tracks

theorem EstEvent.tracks {addr : Addr} {socket : EstSocket} {outcome : ReadOutcome}
    (event : self.EstEvent addr socket outcome next) : Tracks self next := by
  cases event with
  | nothing => exact ⟨fun counted => counted, rfl, rfl⟩
  | closed => exact tracks_ioStop _
  | resumed counts same => exact ⟨counts, by rw [same], by rw [same]⟩

private theorem endDispatch_tracks {cmd : SubjectCmd Addr} {outcome : DispatchOutcome}
    (fresh : outcome.resolve.Fresh self.openFds)
    (done : self.endDispatch cmd outcome = .ok next) : Tracks self next := by
  obtain ⟨counts, sigint, sigterm, _⟩ := endDispatch_activity fresh done
  exact ⟨counts, sigint, sigterm⟩

private theorem listenCmdClose_tracks {listenCmd : Addr}
    (done : self.listenCmdClose listenCmd = .ok next) :
    Tracks self next := by
  obtain ⟨cmd, _, closed⟩ := (listenCmdClose_within listenCmd).of_ok done
  obtain ⟨⟨loop, openFds, badCloses, same⟩, counts⟩ := closed.changed
  exact ⟨counts, by rw [same], by rw [same]⟩

/-- Giving the reference back changes no watcher, whether or not it was the last. -/
private theorem dropListenCmd_tracks {listenCmd : Addr} {dropped : Dropped} {nextHead : Option Addr}
    (done : self.dropListenCmd listenCmd dropped = .ok (next, nextHead)) : Tracks self next := by
  unfold dropListenCmd at done
  dsimp only at done
  split at done
  · cases done
  · rename_i cmd found
    have kept : Tracks self ((self.calls [.decref listenCmd]).addRefs listenCmd (-1)) :=
      ⟨fun counted => counted, rfl, rfl⟩
    have freed : Tracks self
        (((self.calls [.decref listenCmd]).addRefs listenCmd (-1)).freeListenCmd listenCmd cmd) :=
      ⟨fun counted => counted, rfl, rfl⟩
    cases dropped with
    | held =>
        cases done
        exact kept
    | freed read =>
        dsimp only at done
        split at done
        · cases done
          exact kept
        · cases read with
          | kept | null =>
              cases done
              exact freed
          | wild => cases done

private theorem closeListed_tracks (drops : List Dropped) :
    ∀ {self : EventLoop} {head : Option Addr},
    self.closeListed head drops = .ok next → Tracks self next := by
  induction drops with
  | nil =>
      intro self head done
      cases head with
      | none =>
          cases done
          exact .refl
      | some => cases done
  | cons dropped drops ih =>
      intro self head done
      cases head with
      | none =>
          cases done
          exact .refl
      | some listenCmd =>
          obtain ⟨middle, after, nextHead, closed, droppedOne, rest⟩ := closeListed_round done
          have relinked : Tracks after { after with listenCommands := nextHead } :=
            ⟨fun counted => counted, rfl, rfl⟩
          exact ((listenCmdClose_tracks closed).trans (dropListenCmd_tracks droppedOne)).trans
            (relinked.trans (ih rest))

/-- A break keeps the count right and disarms both signals. -/
private theorem eventLoopBreak_disarms {drops : List Dropped}
    (done : self.eventLoopBreak drops = .ok next) :
    (self.Counted → next.Counted) ∧ next.sigintWatcher.active = false ∧
      next.sigtermWatcher.active = false := by
  obtain ⟨loop, sigint, sigterm, stopped, noSigint, noSigterm⟩ := @stopBreakSignals_eq self
  have whole : self.eventLoopBreak drops = self.stopBreakSignals.restoreThread.closeListed
      self.stopBreakSignals.restoreThread.listenCommands drops >>=
        fun closed => .ok closed.saveThread := rfl
  rw [whole] at done
  cases closed : self.stopBreakSignals.restoreThread.closeListed
      self.stopBreakSignals.restoreThread.listenCommands drops with
  | error crash =>
      rw [closed] at done
      cases done
  | ok middle =>
      rw [closed] at done
      cases done
      have tracks := closeListed_tracks drops closed
      refine ⟨fun counted => tracks.counted counted.stopBreakSignals, ?_, ?_⟩
      · change middle.sigintWatcher.active = false
        rw [tracks.sigintWatcher, stopped]
        exact noSigint
      · change middle.sigtermWatcher.active = false
        rw [tracks.sigtermWatcher, stopped]
        exact noSigterm

end EventLoop

namespace EventLoopRuns

variable {Call : Type} [DecidableEq Call] {cmd : Call → SubjectCmd Addr}
  {state next : State Call} {label : Label Call}

/-- Neither break signal is armed. -/
def Disarmed (eventLoop : EventLoop) : Prop :=
  eventLoop.sigintWatcher.active = false ∧ eventLoop.sigtermWatcher.active = false

structure Valid (eventLoop : EventLoop) : Prop where
  counted : eventLoop.Counted
  together : eventLoop.sigintWatcher.active = eventLoop.sigtermWatcher.active

theorem Valid.tracks {before after : EventLoop} (valid : Valid before)
    (tracks : EventLoop.Tracks before after) : Valid after := by
  refine ⟨tracks.counted valid.counted, ?_⟩
  rw [tracks.sigintWatcher, tracks.sigtermWatcher]
  exact valid.together

theorem Disarmed.tracks {before after : EventLoop} (disarmed : Disarmed before)
    (tracks : EventLoop.Tracks before after) : Disarmed after := by
  unfold Disarmed
  rw [tracks.sigintWatcher, tracks.sigtermWatcher]
  exact disarmed

omit [DecidableEq Call] in
/-- Whatever is done but for a break leaves the signals. -/
private theorem perform_tracks {work : Work} {after : EventLoop} (ready : state.Ready work)
    (calm : work.breaks = false) (done : work.perform state.eventLoop = .ok after) :
    EventLoop.Tracks state.eventLoop after := by
  cases work with
  | dispatch command qsize => exact (EventLoop.sameActivity_beginDispatch done).tracks
  | finish command qsize outcome => exact EventLoop.endDispatch_tracks ready.2.2 done
  | breakSignal drops => cases calm
  | listenSocketIo array index revents reported outcome =>
      obtain ⟨_, _, _, event⟩ := (EventLoop.onListenSocketIo_within _ _ _ _).of_ok done
      exact event.tracks
  | estSocketIo socket revents outcome =>
      obtain ⟨_, _, event⟩ := (EventLoop.onEstSocketIo_within _ _ _).of_ok done
      exact event.tracks
  | traverse onErrorStops visits =>
      obtain ⟨head, rfl⟩ := EventLoop.tpTraverse_eq done
      exact ⟨fun counted => counted, rfl, rfl⟩
  | clear =>
      obtain rfl := EventLoop.tpClear_eq done
      exact .refl

/-- A step is a break, or leaves the signals. -/
theorem step_cases (taken : (system cmd).step state label next) :
    EventLoop.Tracks state.eventLoop next.eventLoop ∨
      ((state.eventLoop.Counted → next.eventLoop.Counted) ∧ Disarmed next.eventLoop) := by
  cases taken with
  | construct | release | send | incref | wake | get | crash | mistyped =>
      exact .inl ⟨fun counted => counted, rfl, rfl⟩
  | enqueue =>
      refine .inl ?_
      unfold State.enqueue
      dsimp only
      split <;> exact .refl
  | @work work after _ ready done =>
      cases breaks : work.breaks with
      | false => exact .inl (perform_tracks ready breaks done)
      | true =>
          cases work with
          | breakSignal drops => exact .inr (EventLoop.eventLoopBreak_disarms done)
          | dispatch | finish | listenSocketIo | estSocketIo | traverse | clear => cases breaks

/-- The count is that of the active watchers, so that it is zero, and `ev_run`
returns, exactly when there is none; and after a break the loop hears no signal
any more, whatever is scheduled. -/
structure CountsWatchers (cmd : Call → SubjectCmd Addr) (state : State Call) : Prop where
  counted : state.eventLoop.Counted
  together : state.eventLoop.sigintWatcher.active = state.eventLoop.sigtermWatcher.active
  returns_iff : state.eventLoop.loop.activecnt = 0 ↔
    state.eventLoop.active = ∅ ∧ Disarmed state.eventLoop
  deaf : Disarmed state.eventLoop → ∀ last, (system cmd).Leads state last →
    Disarmed last.eventLoop ∧ ∀ drops, ¬ last.Ready (.breakSignal drops)

theorem valid (reachable : (system cmd).Reachable state) : Valid state.eventLoop := by
  refine reachable.invariant (fun state => Valid state.eventLoop) ?_ ?_
  · intro state initial
    obtain ⟨loop, block, gil, openFds, dieOnSignal, rfl⟩ := initial
    refine ⟨ctor_counted gil openFds dieOnSignal, ?_⟩
    cases dieOnSignal with
    | true | false => rfl
  · intro state label next valid taken
    rcases step_cases taken with tracks | ⟨counts, disarmed⟩
    · exact valid.tracks tracks
    · exact ⟨counts valid.counted, disarmed.1.trans disarmed.2.symm⟩

theorem countsWatchers (cmd : Call → SubjectCmd Addr) (state : State Call)
    (reachable : (system cmd).Reachable state) : CountsWatchers cmd state := by
  obtain ⟨counted, together⟩ := valid reachable
  refine ⟨counted, together, ?_, ?_⟩
  · unfold EventLoop.Counted at counted
    rw [← together] at counted
    rw [← Finset.card_eq_zero, Disarmed, ← together, and_self]
    cases sigint : state.eventLoop.sigintWatcher.active with
    | true =>
        rw [sigint, if_pos rfl] at counted
        simp only [Bool.true_eq_false, and_false, iff_false]
        omega
    | false =>
        rw [sigint, if_neg Bool.false_ne_true] at counted
        simp only [and_true]
        omega
  · intro disarmed last leads
    have kept : Disarmed last.eventLoop := by
      refine leads.invariant (fun state => Disarmed state.eventLoop) disarmed ?_
      intro state label next before taken
      rcases step_cases taken with tracks | ⟨_, after⟩
      · exact before.tracks tracks
      · exact after
    refine ⟨kept, fun drops ready => ?_⟩
    rcases ready.2.2.1 with active | active
    · exact Bool.false_ne_true (kept.1.symm.trans active)
    · exact Bool.false_ne_true (kept.2.symm.trans active)

/-- Both signals, two listening sockets and a connection. -/
theorem countsWatchers_connected :
    ∃ state, state.eventLoop.loop.activecnt = 5 ∧ CountsWatchers listenOnce state := by
  have start : (system listenOnce).Reachable started := .start ⟨_, _, _, _, true, rfl⟩
  have constructed := start.step (@Step.construct _ _ listenOnce _ 0 none "8080" rfl rfl)
  have queued := constructed.step
    (@Step.enqueue _ _ listenOnce _ () rfl rfl rfl (by decide) (.inr ⟨rfl, by decide⟩))
  have sent := queued.step (@Step.send _ _ listenOnce _ () rfl rfl)
  have owned := sent.step (@Step.incref _ _ listenOnce _ () rfl rfl rfl)
  have got := (owned.step (@Step.wake _ _ listenOnce _ rfl rfl rfl rfl)).step
    (@Step.get _ _ listenOnce _ rfl rfl)
  have linked := got.step (@Step.work _ _ listenOnce _ (.dispatch ⟨50, 0⟩ 0) _ rfl
    ⟨rfl, by decide⟩ rfl)
  have listening := linked.step (@Step.work _ _ listenOnce _ (.finish ⟨50, 0⟩ 0
    ⟨false, .found [⟨.found "::" "8080", .listening 5⟩, ⟨.found "0.0.0.0" "8080", .listening 6⟩]⟩)
    _ rfl ⟨rfl, by decide, by decide, by decide⟩ rfl)
  have connected := listening.step (@Step.work _ _ listenOnce _
    (.listenSocketIo 0 0 ⟨true, false, false⟩ ⟨none, ""⟩
      (.accepted 7 ⟨none, ""⟩ (.generator 1 (.allocated 2 (.yielded (some 1)))))) _ rfl
    ⟨rfl, by decide, by decide, fun _ _ => rfl⟩ rfl)
  exact ⟨_, rfl, countsWatchers listenOnce _ connected⟩

end EventLoopRuns

end Striga.Pyglev
