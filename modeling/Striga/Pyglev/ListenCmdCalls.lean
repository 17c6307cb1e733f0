import Striga.Lib.Transition
import Striga.Pyglev.ListenCmd

/-! Any sequence of `_listen_cmd_xschedule_01` and `_listen_cmd_close` calls on one
listen command, as dispatched commands and breaks make them: neither of the two
looks at the status first. -/

set_option autoImplicit false

namespace Striga.Pyglev

open Lib

namespace EventLoop

/-- The listen command that a watcher belongs to. -/
def owner (self : EventLoop) : Io → Option Addr
  | .listen array _ => (self.arrays array).map WatcherArray.data
  | .est _ => none

/-- The active watchers of a listen command. -/
def watching (self : EventLoop) (listenCmd : Addr) : Finset Io :=
  self.active.filter fun io => self.owner io = some listenCmd

/-- `watchers` holds `watchers_count` active watchers on distinct open sockets. -/
def Watches (self : EventLoop) (listenCmd : Addr) (cmd : ListenCmd) (sockets : Finset Int) :
    Prop :=
  ∃ array fds, cmd.watchers = some array ∧ self.arrays array = some ⟨listenCmd, fds⟩ ∧
    fds.length = cmd.watchersCount ∧ fds.Nodup ∧ (∀ fd ∈ fds, fd ∈ sockets) ∧
    arrayWatchers array cmd.watchersCount ⊆ self.active

end EventLoop

namespace ListenCmdCalls

inductive Call where
  | xschedule (outcome : ResolveOutcome)
  | close

/-- A close that reads behind the array of watchers ends in a crash. A report that
has no host to format ends the process, and such a call returns to no state. -/
inductive Step (listenCmd : Addr) :
    Except Crash EventLoop → Call → Except Crash EventLoop → Prop where
  | xschedule {self next : EventLoop} {outcome} :
      outcome.Fresh self.openFds → self.listenCmdXschedule01 listenCmd outcome = .ok next →
      Step listenCmd (.ok self) (.xschedule outcome) (.ok next)
  | close {self : EventLoop} : Step listenCmd (.ok self) .close (self.listenCmdClose listenCmd)

/-- A listen command as its constructor leaves it, and the descriptors that are
open before it opens any. -/
structure Unscheduled (listenCmd : Addr) (others : Finset Int) (eventLoop : EventLoop) : Prop where
  constructed : ∃ host port, eventLoop.listenCmds listenCmd =
    some ⟨none, host, port, .init, 0, none⟩
  arrays : ∀ array watchers, eventLoop.arrays array = some watchers → watchers.data ≠ listenCmd
  openFds : eventLoop.openFds = others
  badCloses : eventLoop.badCloses = []

def system (listenCmd : Addr) (others : Finset Int) : System (Except Crash EventLoop) Call where
  initial state := ∃ self, state = .ok self ∧ Unscheduled listenCmd others self
  step := Step listenCmd

/-- The status of a listen command tells the truth about its sockets, which are
the open descriptors besides the others. -/
structure Truthful (listenCmd : Addr) (others : Finset Int) (eventLoop : EventLoop)
    (cmd : ListenCmd) : Prop where
  watches : cmd.status = .listening → eventLoop.Watches listenCmd cmd (eventLoop.openFds \ others)
  listening : 0 < cmd.watchersCount → eventLoop.Watches listenCmd cmd (eventLoop.openFds \ others) →
    cmd.status = .listening
  idle : cmd.status ≠ .listening → eventLoop.watching listenCmd = ∅ ∧ eventLoop.openFds \ others = ∅
  closedOnce : eventLoop.badCloses = []

def TellsTruth (listenCmd : Addr) (others : Finset Int) : Except Crash EventLoop → Prop
  | .ok self => ∃ cmd, self.listenCmds listenCmd = some cmd ∧ Truthful listenCmd others self cmd
  | .error _ => False

/-- A close from LISTENING goes through all active watchers and all open sockets;
one from CLOSED has no watcher to go through. -/
def ClosesAll (listenCmd : Addr) (others : Finset Int) (self : EventLoop) (cmd : ListenCmd) :
    Prop :=
  match cmd.status, cmd.watchers with
  | .listening, some array =>
      self.watching listenCmd ⊆ EventLoop.arrayWatchers array cmd.watchersCount ∧
      self.openFds \ others ⊆ (self.watcherFds array (List.range cmd.watchersCount)).toFinset
  | .closed, some _ => cmd.watchersCount = 0
  | _, _ => True

/-- A call that loses no socket; one of `_listen_cmd_xschedule_01` that does not
succeed finds no active watcher and no open socket. -/
def LosesNone (listenCmd : Addr) (others : Finset Int) :
    Except Crash EventLoop → Call → Except Crash EventLoop → Prop
  | .ok self, .xschedule outcome, _ => outcome.succeeds = true ∨
      self.watching listenCmd = ∅ ∧ self.openFds \ others = ∅
  | .ok self, .close, _ => ∀ cmd, self.listenCmds listenCmd = some cmd →
      ClosesAll listenCmd others self cmd
  | .error _, _, _ => True

structure Valid (listenCmd : Addr) (others : Finset Int) (eventLoop : EventLoop)
    (cmd : ListenCmd) : Prop where
  found : eventLoop.listenCmds listenCmd = some cmd
  watchers : ∀ array, cmd.watchers = some array →
    ∃ fds, eventLoop.arrays array = some ⟨listenCmd, fds⟩
  apart : ∀ array fds, eventLoop.arrays array = some ⟨listenCmd, fds⟩ → ∀ fd ∈ fds, fd ∉ others
  others : others ⊆ eventLoop.openFds

variable {listenCmd : Addr} {others : Finset Int} {self next : EventLoop} {cmd : ListenCmd}

theorem Unscheduled.valid (unscheduled : Unscheduled listenCmd others self) :
    ∃ cmd, Valid listenCmd others self cmd ∧ Truthful listenCmd others self cmd := by
  obtain ⟨host, port, found⟩ := unscheduled.constructed
  have noSockets : self.openFds \ others = ∅ := by simp [unscheduled.openFds]
  have noWatchers : self.watching listenCmd = ∅ := by
    apply Finset.filter_eq_empty_iff.mpr
    intro io _ owned
    cases io with
    | est socket => cases owned
    | listen array index =>
        obtain ⟨watchers, allocated, same⟩ := Option.map_eq_some_iff.mp owned
        exact unscheduled.arrays array watchers allocated same
  refine ⟨_, ⟨found, ?_, ?_, ?_⟩, ⟨?_, ?_, ?_, unscheduled.badCloses⟩⟩
  · intro array same
    cases same
  · intro array fds allocated
    exact absurd rfl (unscheduled.arrays array _ allocated)
  · exact unscheduled.openFds.symm.subset
  · intro listening
    cases listening
  · intro positive
    exact absurd positive (Nat.lt_irrefl 0)
  · exact fun _ => ⟨noWatchers, noSockets⟩

/-- What is watched is among the active watchers that the command owns. -/
private theorem watching_nonempty {sockets : Finset Int}
    (watches : self.Watches listenCmd cmd sockets) (positive : 0 < cmd.watchersCount) :
    self.watching listenCmd ≠ ∅ := by
  obtain ⟨array, fds, _, allocated, _, _, _, started⟩ := watches
  apply @Finset.ne_empty_of_mem _ (.listen array 0)
  apply Finset.mem_filter.mpr
  refine ⟨started ?_, ?_⟩
  · exact EventLoop.mem_arrayWatchers.mpr ⟨0, positive, rfl⟩
  · simp [EventLoop.owner, allocated]

/-- The descriptors at the indices of an array. -/
theorem watcherFds_range {array : Nat} {data : Addr} {fds : List Int} {count : Nat}
    (allocated : self.arrays array = some ⟨data, fds⟩) (length : fds.length = count) :
    self.watcherFds array (List.range count) = fds := by
  subst length
  have lookup : (List.range fds.length).map (self.watcherFd array) = fds.map some := by
    apply List.ext_getElem
    · simp
    · intro index _ inside
      simp [EventLoop.watcherFd, allocated]
  calc
    self.watcherFds array (List.range fds.length)
      = ((List.range fds.length).map (self.watcherFd array)).filterMap id := by
        rw [List.filterMap_map]
        rfl
    _ = (fds.map some).filterMap id := by rw [lookup]
    _ = fds := by simp

private theorem scheduled_valid {outcome : ResolveOutcome} (valid : Valid listenCmd others self cmd)
    (fresh : outcome.Fresh self.openFds) (scheduled : self.Scheduled listenCmd cmd outcome next) :
    ∃ cmd, Valid listenCmd others next cmd := by
  unfold EventLoop.Scheduled at scheduled
  split at scheduled
  · obtain ⟨loop, gil, _, rfl⟩ := scheduled
    refine ⟨_, Function.update_self .., ?_, ?_, ?_⟩
    · intro array same
      cases same
      exact ⟨_, Function.update_self ..⟩
    · intro array fds allocated fd member
      by_cases same : array = self.nextArray
      · subst same
        simp only [Function.update_self, Option.some.injEq, WatcherArray.mk.injEq, true_and]
          at allocated
        subst allocated
        exact fun other => fresh.2 fd member (valid.others other)
      · have before : self.arrays array = some ⟨listenCmd, fds⟩ :=
          (Function.update_of_ne same _ _).symm.trans allocated
        exact valid.apart array fds before fd member
    · exact valid.others.trans Finset.subset_union_left
  · obtain ⟨gil, rfl⟩ := scheduled
    exact ⟨_, Function.update_self .., valid.watchers, valid.apart, valid.others⟩

private theorem scheduled_truthful_iff {outcome : ResolveOutcome}
    (valid : Valid listenCmd others self cmd) (truthful : Truthful listenCmd others self cmd)
    (fresh : outcome.Fresh self.openFds) (scheduled : self.Scheduled listenCmd cmd outcome next) :
    TellsTruth listenCmd others (.ok next) ↔ outcome.succeeds = true ∨
      self.watching listenCmd = ∅ ∧ self.openFds \ others = ∅ := by
  unfold EventLoop.Scheduled at scheduled
  split at scheduled
  · rename_i succeeds
    obtain ⟨loop, gil, _, rfl⟩ := scheduled
    refine iff_of_true ⟨_, Function.update_self .., ?_, ?_, ?_, truthful.closedOnce⟩ (.inl succeeds)
    · intro _
      refine ⟨_, _, rfl, Function.update_self .., ?_, fresh.1, ?_, Finset.subset_union_right⟩
      · cases outcome with
        | failed rc gaiStrerror reported => cases succeeds
        | found addresses => exact length_openedFds succeeds
      · intro fd member
        apply Finset.mem_sdiff.mpr
        exact ⟨by simp [member], fun other => fresh.2 fd member (valid.others other)⟩
    · exact fun _ _ => rfl
    · exact fun notListening => absurd rfl notListening
  · rename_i fails
    obtain ⟨gil, rfl⟩ := scheduled
    rw [or_iff_right fails]
    constructor
    · intro tells
      obtain ⟨after, found, truth⟩ := tells
      have same := Option.some.inj (found.symm.trans (Function.update_self listenCmd _ _))
      exact truth.idle (by simp [same])
    · intro empty
      refine ⟨_, Function.update_self .., ?_, ?_, fun _ => empty, truthful.closedOnce⟩
      · intro listening
        cases listening
      · exact fun positive watches => absurd empty.1 (watching_nonempty watches positive)

theorem Valid.watcherFds_apart (valid : Valid listenCmd others self cmd) {array : Nat}
    {indices : List Nat} (closes : cmd.closes = some array) :
    ∀ fd ∈ self.watcherFds array indices, fd ∉ others := by
  intro fd member
  obtain ⟨index, _, found⟩ := List.mem_filterMap.mp member
  obtain ⟨fds, allocated⟩ := valid.watchers array (ListenCmd.watchers_of_closes closes)
  simp only [EventLoop.watcherFd, allocated, Option.bind_some] at found
  exact valid.apart array fds allocated fd (List.mem_of_getElem? found)

private theorem closed_valid (valid : Valid listenCmd others self cmd)
    (closed : self.ListenCmdClosed listenCmd cmd next) :
    ∃ cmd, Valid listenCmd others next cmd := by
  obtain ⟨before, rfl, done⟩ := closed
  cases closes : cmd.closes with
  | none =>
      rw [closes] at done
      subst done
      exact ⟨_, Function.update_self .., valid.watchers, valid.apart, valid.others⟩
  | some array =>
      rw [closes] at done
      obtain ⟨⟨loop, badCloses, rfl⟩, _⟩ := done
      refine ⟨_, Function.update_self .., valid.watchers, valid.apart, fun fd other => ?_⟩
      apply Finset.mem_sdiff.mpr
      refine ⟨valid.others other, fun member => ?_⟩
      exact valid.watcherFds_apart closes fd (List.mem_toFinset.mp member) other

private theorem closed_tellsTruth_iff :
    TellsTruth listenCmd others (.ok (self.setListenCmd listenCmd { cmd with status := .closed })) ↔
      self.watching listenCmd = ∅ ∧ self.openFds \ others = ∅ ∧ self.badCloses = [] := by
  constructor
  · intro tells
    obtain ⟨after, found, truth⟩ := tells
    have same := Option.some.inj (found.symm.trans (Function.update_self listenCmd _ _))
    obtain ⟨noWatchers, noSockets⟩ := truth.idle (by simp [same])
    exact ⟨noWatchers, noSockets, truth.closedOnce⟩
  · intro empty
    obtain ⟨noWatchers, noSockets, once⟩ := empty
    refine ⟨_, Function.update_self .., ?_, ?_, fun _ => ⟨noWatchers, noSockets⟩, once⟩
    · intro listening
      cases listening
    · exact fun positive watches => absurd noWatchers (watching_nonempty watches positive)

private theorem closesNothing_tellsTruth (valid : Valid listenCmd others self cmd)
    (truthful : Truthful listenCmd others self cmd) (closes : cmd.closes = none)
    (closed : self.ListenCmdClosed listenCmd cmd next) :
    TellsTruth listenCmd others (.ok next) := by
  obtain ⟨before, rfl, done⟩ := closed
  rw [closes] at done
  subst done
  have notListening : cmd.status ≠ .listening := by
    intro listening
    obtain ⟨array, _, watchers, _⟩ := truthful.watches listening
    simp [ListenCmd.closes, listening, watchers] at closes
  obtain ⟨noWatchers, noSockets⟩ := truthful.idle notListening
  exact closed_tellsTruth_iff.mpr ⟨noWatchers, noSockets, truthful.closedOnce⟩

private theorem sdiff_sdiff_eq_empty_iff {α : Type} [DecidableEq α]
    (items others closed : Finset α) :
    (items \ closed) \ others = ∅ ↔ items \ others ⊆ closed := by
  rw [sdiff_right_comm, Finset.sdiff_eq_empty_iff_subset]

private theorem watching_sdiff (io : Finset Io) {loop : EvLoop} {openFds : Finset Int}
    {badCloses : List Int} : EventLoop.watching { self with
      active := self.active \ io, openFds := openFds, loop := loop, badCloses := badCloses }
      listenCmd = self.watching listenCmd \ io := by
  ext other
  change other ∈ (self.active \ io).filter (fun io => self.owner io = some listenCmd) ↔ _
  simp only [EventLoop.watching, Finset.mem_filter, Finset.mem_sdiff]
  tauto

private theorem closesListening_tellsTruth_iff (truthful : Truthful listenCmd others self cmd)
    (listening : cmd.status = .listening) (closed : self.ListenCmdClosed listenCmd cmd next) :
    TellsTruth listenCmd others (.ok next) ↔ ClosesAll listenCmd others self cmd := by
  obtain ⟨array, fds, watchers, allocated, length, nodup, isOpen, started⟩ :=
    truthful.watches listening
  have closes : cmd.closes = some array := by simp [ListenCmd.closes, listening, watchers]
  have same := watcherFds_range allocated length
  obtain ⟨before, rfl, done⟩ := closed
  rw [closes] at done
  obtain ⟨⟨loop, badCloses, rfl⟩, _, _, allOpen, _⟩ := done
  have once : badCloses = [] := by
    refine (allOpen ?_ ?_).trans truthful.closedOnce
    · rwa [same]
    · intro fd member
      rw [same] at member
      exact (Finset.mem_sdiff.mp (isOpen fd member)).1
  rw [closed_tellsTruth_iff, watching_sdiff, sdiff_sdiff_eq_empty_iff,
    Finset.sdiff_eq_empty_iff_subset]
  simp only [ClosesAll, listening, watchers, once, and_true]
  exact Iff.rfl

private theorem closesAgain_tellsTruth_iff (valid : Valid listenCmd others self cmd)
    (truthful : Truthful listenCmd others self cmd) {array : Nat}
    (again : cmd.status = .closed) (watchers : cmd.watchers = some array)
    (closed : self.ListenCmdClosed listenCmd cmd next) :
    TellsTruth listenCmd others (.ok next) ↔ cmd.watchersCount = 0 := by
  have closes : cmd.closes = some array := by simp [ListenCmd.closes, again, watchers]
  obtain ⟨noWatchers, noSockets⟩ := truthful.idle (by simp [again])
  obtain ⟨before, rfl, done⟩ := closed
  rw [closes] at done
  obtain ⟨⟨loop, badCloses, rfl⟩, _, inside, allOpen, notOpen, _⟩ := done
  rw [closed_tellsTruth_iff, watching_sdiff, sdiff_sdiff_eq_empty_iff, noWatchers, noSockets]
  simp only [Finset.empty_sdiff, Finset.empty_subset, true_and]
  constructor
  · intro once
    by_contra positive
    obtain ⟨fd, found⟩ := Option.isSome_iff_exists.mp
      (inside 0 (List.mem_range.mpr (Nat.pos_of_ne_zero positive)))
    have member : fd ∈ self.watcherFds array (List.range cmd.watchersCount) :=
      List.mem_filterMap.mpr ⟨0, List.mem_range.mpr (Nat.pos_of_ne_zero positive), found⟩
    have notOurs : fd ∉ self.openFds := by
      intro stillOpen
      have socket : fd ∈ self.openFds \ others :=
        Finset.mem_sdiff.mpr ⟨stillOpen, valid.watcherFds_apart closes fd member⟩
      rw [noSockets] at socket
      exact Finset.notMem_empty fd socket
    have bad := notOpen fd member notOurs
    rw [once] at bad
    cases bad
  · intro none
    refine (allOpen ?_ ?_).trans truthful.closedOnce
    · simp [none, EventLoop.watcherFds]
    · simp [none, EventLoop.watcherFds]

private theorem closesListening_returns (truthful : Truthful listenCmd others self cmd)
    (listening : cmd.status = .listening) (array : Nat) (closes : cmd.closes = some array) :
    ∀ index < cmd.watchersCount, (self.watcherFd array index).isSome := by
  obtain ⟨held, fds, watchers, allocated, length, _⟩ := truthful.watches listening
  cases (ListenCmd.watchers_of_closes closes).symm.trans watchers
  intro index inside
  rw [← length] at inside
  simp [EventLoop.watcherFd, allocated, inside]

private theorem close_tellsTruth_iff (valid : Valid listenCmd others self cmd)
    (truthful : Truthful listenCmd others self cmd) :
    TellsTruth listenCmd others (self.listenCmdClose listenCmd) ↔
      ClosesAll listenCmd others self cmd := by
  have closed : ∀ next, self.listenCmdClose listenCmd = .ok next →
      self.ListenCmdClosed listenCmd cmd next := by
    intro next done
    obtain ⟨same, found, closed⟩ := (EventLoop.listenCmdClose_within listenCmd).of_ok done
    cases found.symm.trans valid.found
    exact closed
  cases closes : cmd.closes with
  | none =>
      obtain ⟨next, done⟩ := EventLoop.listenCmdClose_returns valid.found (by simp [closes])
      rw [done]
      refine iff_of_true (closesNothing_tellsTruth valid truthful closes (closed next done)) ?_
      unfold ListenCmd.closes at closes
      unfold ClosesAll
      split
      · simp_all
      · simp_all
      · trivial
  | some array =>
      have watchers := ListenCmd.watchers_of_closes closes
      cases status : cmd.status with
      | init | resolving => simp [ListenCmd.closes, status] at closes
      | listening =>
          obtain ⟨next, done⟩ := EventLoop.listenCmdClose_returns valid.found
            (closesListening_returns truthful status)
          rw [done]
          exact closesListening_tellsTruth_iff truthful status (closed next done)
      | closed =>
          have again : ClosesAll listenCmd others self cmd ↔ cmd.watchersCount = 0 := by
            simp [ClosesAll, status, watchers]
          rw [again]
          cases result : self.listenCmdClose listenCmd with
          | ok next =>
              exact closesAgain_tellsTruth_iff valid truthful status watchers (closed next result)
          | error crash =>
              refine iff_of_false (fun tells => tells) fun none => ?_
              obtain ⟨next, done⟩ := EventLoop.listenCmdClose_returns valid.found
                (by simp [none])
              cases result.symm.trans done

theorem valid {state : Except Crash EventLoop}
    (reachable : (system listenCmd others).Reachable state) :
    ∀ self, state = .ok self → ∃ cmd, Valid listenCmd others self cmd := by
  apply reachable.invariant fun state =>
    ∀ self, state = .ok self → ∃ cmd, Valid listenCmd others self cmd
  · intro state initial self same
    obtain ⟨start, rfl, unscheduled⟩ := initial
    cases same
    obtain ⟨cmd, valid, _⟩ := unscheduled.valid
    exact ⟨cmd, valid⟩
  · intro state call after earlier taken next same
    cases taken with
    | @xschedule self after outcome fresh done =>
        cases same
        obtain ⟨cmd, valid⟩ := earlier self rfl
        obtain ⟨same, found, scheduled⟩ :=
          (EventLoop.listenCmdXschedule01_within listenCmd outcome).of_ok done
        cases found.symm.trans valid.found
        exact scheduled_valid valid fresh (scheduled fresh)
    | @close self =>
        obtain ⟨cmd, valid⟩ := earlier self rfl
        obtain ⟨cmd, found, closed⟩ := (EventLoop.listenCmdClose_within listenCmd).of_ok same
        cases found.symm.trans valid.found
        exact closed_valid valid closed

private theorem tellsTruth_step_iff {state next : Except Crash EventLoop} {call : Call}
    (reachable : (system listenCmd others).Reachable state)
    (tells : TellsTruth listenCmd others state)
    (taken : (system listenCmd others).step state call next) :
    TellsTruth listenCmd others next ↔ LosesNone listenCmd others state call next := by
  cases taken with
  | @xschedule self next outcome fresh done =>
      obtain ⟨cmd, valid⟩ := valid reachable self rfl
      obtain ⟨same, found, truthful⟩ := tells
      cases found.symm.trans valid.found
      obtain ⟨same, found, scheduled⟩ :=
        (EventLoop.listenCmdXschedule01_within listenCmd outcome).of_ok done
      cases found.symm.trans valid.found
      exact scheduled_truthful_iff valid truthful fresh (scheduled fresh)
  | @close self =>
      obtain ⟨cmd, valid⟩ := valid reachable self rfl
      obtain ⟨same, found, truthful⟩ := tells
      cases found.symm.trans valid.found
      simp only [LosesNone, valid.found, Option.some.injEq, forall_eq']
      exact close_tellsTruth_iff valid truthful

/-- Along a run of calls the status tells the truth exactly when every call loses
no socket. -/
theorem tellsTruth_iff_losesNone (listenCmd : Addr) (others : Finset Int)
    (start : Except Crash EventLoop) (path : List (Call × Except Crash EventLoop))
    (run : (system listenCmd others).Run start path) :
    AllStates (TellsTruth listenCmd others) start path ↔
      AllSteps (LosesNone listenCmd others) start path := by
  apply run.allStates_iff
  · obtain ⟨self, rfl, unscheduled⟩ := run.starts
    obtain ⟨cmd, valid, truthful⟩ := unscheduled.valid
    exact ⟨cmd, valid.found, truthful⟩
  · intro state call next reachable tells taken
    exact tellsTruth_step_iff reachable tells taken

def constructed : EventLoop :=
  EventLoop.fresh ⟨none, some 1, []⟩ |>.setListenCmd 0 ⟨none, none, "8080", .init, 0, none⟩

private theorem constructed_unscheduled : Unscheduled 0 ∅ constructed where
  constructed := ⟨_, _, rfl⟩
  arrays := by
    intro array watchers allocated
    cases allocated
  openFds := rfl
  badCloses := rfl

/-- The command listens on two addresses and is closed. -/
theorem tellsTruth_iff_losesNone_both_closed :
    let addresses : List AddrOutcome := [⟨.found "::" "8080", .listening 5⟩,
      ⟨.found "0.0.0.0" "8080", .listening 6⟩]
    ∃ path, path.map Prod.fst = [Call.xschedule (.found addresses), .close] ∧
      AllStates (TellsTruth 0 ∅) (.ok constructed) path := by
  intro addresses
  have fresh : (ResolveOutcome.found addresses).Fresh constructed.openFds :=
    ⟨by decide, by simp [constructed, EventLoop.fresh, EventLoop.setListenCmd]⟩
  exact ⟨[(_, _), (_, _)], rfl, Iff.mpr (tellsTruth_iff_losesNone 0 ∅ _ _
    ⟨⟨_, rfl, constructed_unscheduled⟩, .xschedule fresh rfl, .close, trivial⟩)
    ⟨.inl rfl, fun cmd found => by cases found; exact ⟨by decide, by decide⟩,
      trivial⟩⟩

/-- A second scheduling that fails leaves the sockets of the first one open. -/
theorem failing_again_keeps_sockets :
    ¬ ∀ listenCmd others state, (system listenCmd others).Reachable state →
      TellsTruth listenCmd others state := by
  intro always
  have start : (system 0 ∅).Reachable (.ok constructed) :=
    .start ⟨_, rfl, constructed_unscheduled⟩
  have listening := start.step (@Step.xschedule 0 constructed _
    (.found [⟨.found "::" "8080", .listening 5⟩])
    ⟨by decide, by simp [constructed, EventLoop.fresh, EventLoop.setListenCmd]⟩ rfl)
  have resolving := listening.step (@Step.xschedule 0 _ _
    (.found [⟨.found "::" "8080", .refused 24 ⟨none, "Too many open files"⟩⟩])
    ⟨by decide, by intro fd member; cases member⟩ rfl)
  obtain ⟨cmd, found, truthful⟩ := always 0 ∅ _ resolving
  cases found
  obtain ⟨_, noSockets⟩ := truthful.idle (by decide)
  exact absurd noSockets (by decide)

end ListenCmdCalls

end Striga.Pyglev
