import Striga.Pyglev.EventLoopRuns

/-! The list of listen commands with the commands, arrays and watchers behind it,
as long as nothing dispatches a command that is on the list: what each operation
of the loop keeps up. -/

set_option autoImplicit false

namespace Striga.Pyglev

open Lib
open Lib.LinkedList (Chain)

/-- Dispatched, and not closed since. -/
def ListenCmd.Dispatched (cmd : ListenCmd) : Prop :=
  cmd.status = .resolving ∨ cmd.status = .listening

namespace EventLoop

/-- The list holds the dispatched commands and the one that is being linked; each
command has its own array, and each active watcher its place in the array of a
listening command. -/
structure Listening (eventLoop : EventLoop) (addrs : List Addr) (linking : Option Addr) :
    Prop where
  chain : Chain eventLoop.listenLinks eventLoop.listenCommands addrs
  listed : ∀ addr, addr ∈ addrs ↔
    (∃ cmd, eventLoop.listenCmds addr = some cmd ∧ cmd.Dispatched) ∨ linking = some addr
  linked : ∀ addr, linking = some addr →
    ∃ cmd, eventLoop.listenCmds addr = some cmd ∧ ¬cmd.Dispatched
  unused : ∀ array, eventLoop.nextArray ≤ array → eventLoop.arrays array = none
  arrays : ∀ addr cmd array, eventLoop.listenCmds addr = some cmd → cmd.watchers = some array →
    ∃ fds, eventLoop.arrays array = some ⟨addr, fds⟩ ∧
      (cmd.status = .listening → fds.length = cmd.watchersCount)
  watched : ∀ array index, .listen array index ∈ eventLoop.active →
    ∃ addr cmd, eventLoop.listenCmds addr = some cmd ∧ cmd.status = .listening ∧
      cmd.watchers = some array ∧ index < cmd.watchersCount
  connected : ∀ socket, .est socket ∈ eventLoop.active → eventLoop.estSockets socket ≠ none

variable {self next : EventLoop} {addrs : List Addr} {linking : Option Addr} {addr : Addr}
  {cmd : ListenCmd}

theorem Listening.live (listening : self.Listening addrs linking) (member : addr ∈ addrs) :
    ∃ cmd, self.listenCmds addr = some cmd := by
  rcases (listening.listed addr).mp member with ⟨cmd, found, _⟩ | same
  · exact ⟨cmd, found⟩
  · obtain ⟨cmd, found, _⟩ := listening.linked addr same
    exact ⟨cmd, found⟩

theorem Listening.apart (listening : self.Listening addrs linking) {other : Addr}
    {otherCmd : ListenCmd} {array : Nat} (found : self.listenCmds addr = some cmd)
    (otherFound : self.listenCmds other = some otherCmd) (watchers : cmd.watchers = some array)
    (otherWatchers : otherCmd.watchers = some array) : addr = other := by
  obtain ⟨fds, allocated, _⟩ := listening.arrays addr cmd array found watchers
  obtain ⟨otherFds, otherAllocated, _⟩ :=
    listening.arrays other otherCmd array otherFound otherWatchers
  cases allocated.symm.trans otherAllocated
  rfl

/-- What does not concern the listen commands. -/
theorem Listening.frame (listening : self.Listening addrs linking)
    (listenCommands : next.listenCommands = self.listenCommands)
    (listenCmds : next.listenCmds = self.listenCmds) (arrays : next.arrays = self.arrays)
    (nextArray : next.nextArray = self.nextArray)
    (watched : ∀ array index, .listen array index ∈ next.active → .listen array index ∈ self.active)
    (connected : ∀ socket, .est socket ∈ next.active → next.estSockets socket ≠ none) :
    next.Listening addrs linking where
  chain := by
    have links : next.listenLinks = self.listenLinks :=
      funext fun addr => congrArg (Option.map ListenCmd.next) (congrFun listenCmds addr)
    rw [listenCommands, links]
    exact listening.chain
  listed := by
    rw [listenCmds]
    exact listening.listed
  linked := by
    rw [listenCmds]
    exact listening.linked
  unused := by
    rw [arrays, nextArray]
    exact listening.unused
  arrays := by
    rw [arrays, listenCmds]
    exact listening.arrays
  watched := by
    intro array index active
    rw [listenCmds]
    exact listening.watched array index (watched array index active)
  connected := connected

/-- Another value for one command that is not dispatched. -/
theorem Listening.update {value : Option ListenCmd} {after : List Addr} {linkingAfter : Option Addr}
    (listening : self.Listening addrs linking) (addr : Addr)
    (idle : ∀ cmd, self.listenCmds addr = some cmd → ¬cmd.Dispatched)
    (listenCmds : next.listenCmds = Function.update self.listenCmds addr value)
    (chain : Chain next.listenLinks next.listenCommands after)
    (listed : addr ∈ after ↔
      (∃ cmd, value = some cmd ∧ cmd.Dispatched) ∨ linkingAfter = some addr)
    (others : ∀ other, other ≠ addr →
      (other ∈ after ↔ other ∈ addrs) ∧ (linkingAfter = some other ↔ linking = some other))
    (linked : linkingAfter = some addr → ∃ cmd, value = some cmd ∧ ¬cmd.Dispatched)
    (unused : ∀ array, next.nextArray ≤ array → next.arrays array = none)
    (kept : ∀ array watchers, self.arrays array = some watchers → watchers.data ≠ addr →
      next.arrays array = some watchers)
    (own : ∀ cmd array, value = some cmd → cmd.watchers = some array →
      ∃ fds, next.arrays array = some ⟨addr, fds⟩ ∧
        (cmd.status = .listening → fds.length = cmd.watchersCount))
    (watched : ∀ array index, .listen array index ∈ next.active →
      .listen array index ∈ self.active ∨ ∃ cmd, value = some cmd ∧ cmd.status = .listening ∧
        cmd.watchers = some array ∧ index < cmd.watchersCount)
    (connected : ∀ socket, .est socket ∈ next.active → next.estSockets socket ≠ none) :
    next.Listening after linkingAfter := by
  have here : next.listenCmds addr = value := by rw [listenCmds, Function.update_self]
  have elsewhere : ∀ other, other ≠ addr → next.listenCmds other = self.listenCmds other := by
    intro other differs
    rw [listenCmds, Function.update_of_ne differs]
  constructor
  · exact chain
  · intro other
    by_cases same : other = addr
    · subst same
      rw [here]
      exact listed
    · rw [(others other same).1, listening.listed, elsewhere other same, (others other same).2]
  · intro other isLinked
    by_cases same : other = addr
    · subst same
      rw [here]
      exact linked isLinked
    · rw [elsewhere other same]
      exact listening.linked other ((others other same).2.mp isLinked)
  · exact unused
  · intro other found array foundOther watchers
    by_cases same : other = addr
    · subst same
      exact own found array (here.symm.trans foundOther) watchers
    · rw [elsewhere other same] at foundOther
      obtain ⟨fds, allocated, length⟩ := listening.arrays other found array foundOther watchers
      exact ⟨fds, kept array _ allocated same, length⟩
  · intro array index active
    rcases watched array index active with earlier | ⟨found, same, status, watchers, inside⟩
    · obtain ⟨other, found, foundOther, status, watchers, inside⟩ :=
        listening.watched array index earlier
      have differs : other ≠ addr := by
        intro same
        subst same
        exact idle found foundOther (.inr status)
      exact ⟨other, found, (elsewhere other differs).trans foundOther, status, watchers, inside⟩
    · exact ⟨addr, found, here.trans same, status, watchers, inside⟩
  · exact connected

theorem Listening.constructed (listening : self.Listening addrs linking)
    (free : self.listenCmds addr = none) (host : Option String) (port : String) :
    (self.setListenCmd addr ⟨none, host, port, .init, 0, none⟩).Listening addrs linking := by
  have unlisted : addr ∉ addrs := by
    intro member
    obtain ⟨cmd, found⟩ := listening.live member
    cases free.symm.trans found
  have unlinked : linking ≠ some addr := by
    intro same
    exact unlisted ((listening.listed addr).mpr (.inr same))
  refine listening.update addr ?_ rfl ?_ ?_ (fun _ _ => ⟨Iff.rfl, Iff.rfl⟩) ?_ listening.unused
    (fun _ _ allocated _ => allocated) ?_ (fun _ _ active => .inl active) listening.connected
  · intro cmd found
    cases free.symm.trans found
  · refine listening.chain.frame fun node member => ?_
    have differs := ne_of_mem_of_not_mem member unlisted
    exact congrArg (Option.map ListenCmd.next) (Function.update_of_ne differs _ _)
  · simp [unlisted, unlinked, ListenCmd.Dispatched]
  · exact fun same => absurd same unlinked
  · intro cmd array same watchers
    cases same
    cases watchers

theorem Listening.freed (listening : self.Listening addrs linking)
    (found : self.listenCmds addr = some cmd) (unlisted : addr ∉ addrs) :
    (self.freeListenCmd addr cmd).Listening addrs linking := by
  have outside := (not_congr (listening.listed addr)).mp unlisted
  rw [not_or] at outside
  obtain ⟨undispatched, unlinked⟩ := outside
  refine listening.update addr ?_ rfl ?_ ?_ (fun _ _ => ⟨Iff.rfl, Iff.rfl⟩) ?_ ?_ ?_ ?_
    (fun _ _ active => .inl active) listening.connected
  · exact fun cmd same dispatched => undispatched ⟨cmd, same, dispatched⟩
  · refine listening.chain.frame fun node member => ?_
    have differs := ne_of_mem_of_not_mem member unlisted
    exact congrArg (Option.map ListenCmd.next) (Function.update_of_ne differs _ _)
  · simp [unlisted, unlinked]
  · exact fun same => absurd same unlinked
  · intro array beyond
    have none := listening.unused array beyond
    cases watchers : cmd.watchers with
    | none => simpa [freeListenCmd, watchers] using none
    | some own =>
        by_cases same : array = own
        · simp [freeListenCmd, watchers, same]
        · simpa [freeListenCmd, watchers, same] using none
  · intro array kept allocated differs
    cases watchers : cmd.watchers with
    | none => simpa [freeListenCmd, watchers] using allocated
    | some own =>
        have apart : array ≠ own := by
          intro same
          subst same
          obtain ⟨fds, ownAllocated, _⟩ := listening.arrays addr cmd array found watchers
          cases ownAllocated.symm.trans allocated
          exact differs rfl
        simpa [freeListenCmd, watchers, apart] using allocated
  · intro cmd array none
    cases none

theorem Listening.unlisted (listening : self.Listening addrs none)
    (found : self.listenCmds addr = some cmd) (idle : ¬cmd.Dispatched) : addr ∉ addrs := by
  intro member
  rcases (listening.listed addr).mp member with ⟨same, foundSame, dispatched⟩ | linking
  · cases found.symm.trans foundSame
    exact idle dispatched
  · cases linking

/-- Linking a command that is not on the list yet. -/
theorem Listening.link (listening : self.Listening addrs none)
    (found : self.listenCmds addr = some cmd) (idle : ¬cmd.Dispatched) :
    Listening { self.setListenCmd addr { cmd with next := self.listenCommands } with
      listenCommands := some addr } (addr :: addrs) (some addr) := by
  have unlisted := listening.unlisted found idle
  refine listening.update addr ?_ rfl ?_ ?_ ?_ ?_ listening.unused
    (fun _ _ allocated _ => allocated) ?_ (fun _ _ active => .inl active) listening.connected
  · intro same foundSame
    cases found.symm.trans foundSame
    exact idle
  · refine ⟨rfl, self.listenCommands, ?_, listening.chain.frame fun node member => ?_⟩
    · exact congrArg (Option.map ListenCmd.next) (Function.update_self addr _ self.listenCmds)
    · have differs := ne_of_mem_of_not_mem member unlisted
      exact congrArg (Option.map ListenCmd.next) (Function.update_of_ne differs _ _)
  · simp
  · intro other differs
    simp [differs, Ne.symm differs]
  · exact fun _ => ⟨_, rfl, idle⟩
  · intro same array eq watchers
    cases eq
    exact listening.arrays addr cmd array found watchers

theorem Scheduled.kept {outcome : ResolveOutcome}
    (scheduled : self.Scheduled addr cmd outcome next) : next.refs = self.refs ∧
      ∃ value, next.listenCmds = Function.update self.listenCmds addr (some value) := by
  unfold Scheduled at scheduled
  split at scheduled
  · obtain ⟨loop, gil, _, rfl⟩ := scheduled
    exact ⟨rfl, _, rfl⟩
  · obtain ⟨gil, rfl⟩ := scheduled
    exact ⟨rfl, _, rfl⟩

/-- The first step of a command that has just been linked. -/
theorem Listening.scheduled {outcome : ResolveOutcome}
    (listening : self.Listening addrs (some addr)) (found : self.listenCmds addr = some cmd)
    (scheduled : self.Scheduled addr cmd outcome next) : next.Listening addrs none := by
  have member : addr ∈ addrs := (listening.listed addr).mpr (.inr rfl)
  have idle : ∀ cmd, self.listenCmds addr = some cmd → ¬cmd.Dispatched := by
    intro cmd same
    obtain ⟨linked, foundLinked, idle⟩ := listening.linked addr rfl
    cases same.symm.trans foundLinked
    exact idle
  have others : ∀ other, other ≠ addr →
      (other ∈ addrs ↔ other ∈ addrs) ∧ (none = some other ↔ some addr = some other) := by
    intro other differs
    simp [Ne.symm differs]
  have chain : ∀ value : ListenCmd, value.next = cmd.next →
      Chain (fun node => (Function.update self.listenCmds addr (some value) node).map
        ListenCmd.next)
        self.listenCommands addrs := by
    intro value same
    refine listening.chain.frame fun node _ => ?_
    by_cases here : node = addr
    · subst here
      simp [listenLinks, found, same]
    · exact congrArg (Option.map ListenCmd.next) (Function.update_of_ne here _ _)
  unfold Scheduled at scheduled
  split at scheduled
  · rename_i succeeds
    obtain ⟨loop, gil, _, rfl⟩ := scheduled
    refine listening.update addr idle rfl (chain _ rfl) ?_ others (fun same => by cases same)
      ?_ ?_ ?_ ?_ ?_
    · exact iff_of_true member (.inl ⟨_, rfl, .inr rfl⟩)
    · intro array beyond
      have later : self.nextArray ≠ array := by
        intro same
        subst same
        exact Nat.not_succ_le_self _ beyond
      exact (Function.update_of_ne (Ne.symm later) _ _).trans
        (listening.unused array (Nat.le_of_succ_le beyond))
    · intro array watchers allocated _
      have earlier : array ≠ self.nextArray := by
        intro same
        subst same
        cases (listening.unused _ le_rfl).symm.trans allocated
      exact (Function.update_of_ne earlier _ _).trans allocated
    · intro value array same watchers
      cases same
      cases watchers
      refine ⟨_, Function.update_self .., fun _ => ?_⟩
      cases outcome with
      | failed rc gaiStrerror reported => cases succeeds
      | found addresses => exact length_openedFds succeeds
    · intro array index active
      rcases Finset.mem_union.mp active with earlier | started
      · exact .inl earlier
      · obtain ⟨place, inside, same⟩ := mem_arrayWatchers.mp started
        cases same
        exact .inr ⟨_, rfl, rfl, rfl, inside⟩
    · intro socket active
      rcases Finset.mem_union.mp active with earlier | started
      · exact listening.connected socket earlier
      · obtain ⟨place, _, same⟩ := mem_arrayWatchers.mp started
        cases same
  · obtain ⟨gil, rfl⟩ := scheduled
    refine listening.update addr idle rfl (chain _ rfl) ?_ others (fun same => by cases same)
      listening.unused (fun _ _ allocated _ => allocated) ?_ (fun _ _ active => .inl active)
      listening.connected
    · exact iff_of_true member (.inl ⟨_, rfl, .inl rfl⟩)
    · intro value array same watchers
      cases same
      obtain ⟨fds, allocated, _⟩ := listening.arrays addr cmd array found watchers
      exact ⟨fds, allocated, fun listening => by cases listening⟩

/-- The commands of the list are closed in the way the break needs it. -/
theorem Listening.closable (listening : self.Listening addrs none) : self.Closable addrs where
  inside := by
    intro addr member cmd found array closes index inside
    have watchers := ListenCmd.watchers_of_closes closes
    obtain ⟨fds, allocated, length⟩ := listening.arrays addr cmd array found watchers
    have status : cmd.status = .listening := by
      rcases (listening.listed addr).mp member with ⟨same, foundSame, dispatched⟩ | linking
      · cases found.symm.trans foundSame
        rcases dispatched with resolving | listening
        · simp [ListenCmd.closes, resolving] at closes
        · exact listening
      · cases linking
    have within : index < fds.length := (length status).symm ▸ inside
    simp [watcherFd, allocated, within]
  apart := fun _ _ _ _ _ _ _ found otherFound watchers otherWatchers =>
    listening.apart found otherFound watchers otherWatchers

/-- After the rounds of a break nothing is listed and nothing listens. -/
theorem Listening.closedAll (listening : self.Listening addrs none)
    (closed : self.ClosedAll addrs next) : next.Listening [] none := by
  have undispatched : ∀ addr cmd, next.listenCmds addr = some cmd → ¬cmd.Dispatched := by
    intro addr cmd found
    by_cases member : addr ∈ addrs
    · obtain ⟨before, _, rfl⟩ := closed.closed addr member cmd found
      simp [ListenCmd.Dispatched]
    · rw [closed.others addr member] at found
      intro dispatched
      exact member ((listening.listed addr).mpr (.inl ⟨cmd, found, dispatched⟩))
  have before : ∀ addr cmd, next.listenCmds addr = some cmd →
      ∃ earlier, self.listenCmds addr = some earlier ∧ cmd.watchers = earlier.watchers := by
    intro addr cmd found
    by_cases member : addr ∈ addrs
    · obtain ⟨earlier, foundEarlier, rfl⟩ := closed.closed addr member cmd found
      exact ⟨earlier, foundEarlier, rfl⟩
    · exact ⟨cmd, (closed.others addr member).symm.trans found, rfl⟩
  have kept : ∀ addr cmd array, next.listenCmds addr = some cmd → cmd.watchers = some array →
      next.arrays array = self.arrays array := by
    intro addr cmd array found watchers
    obtain ⟨earlier, foundEarlier, sameWatchers⟩ := before addr cmd found
    refine closed.arrays array fun other member gone otherCmd foundOther otherWatchers => ?_
    have same := listening.apart foundEarlier foundOther (sameWatchers ▸ watchers) otherWatchers
    subst same
    cases gone.symm.trans found
  obtain ⟨loop, gil, listenCmds, arrays, active, refs, openFds, badCloses, rfl⟩ := closed.changed
  constructor
  · exact rfl
  · intro addr
    simp only [List.not_mem_nil, false_iff, not_or, reduceCtorEq, not_false_eq_true, and_true]
    exact fun dispatched => undispatched addr _ dispatched.choose_spec.1 dispatched.choose_spec.2
  · intro addr same
    cases same
  · intro array beyond
    refine (closed.arrays array fun addr member gone cmd found watchers => ?_).trans
      (listening.unused array beyond)
    obtain ⟨fds, allocated, _⟩ := listening.arrays addr cmd array found watchers
    cases (listening.unused array beyond).symm.trans allocated
  · intro addr cmd array found watchers
    obtain ⟨earlier, foundEarlier, sameWatchers⟩ := before addr cmd found
    obtain ⟨fds, allocated, _⟩ :=
      listening.arrays addr earlier array foundEarlier (sameWatchers ▸ watchers)
    refine ⟨fds, (kept addr cmd array found watchers).trans allocated, fun status => ?_⟩
    exact absurd (.inr status) (undispatched addr cmd found)
  · intro array index active
    obtain ⟨earlier, notClosing⟩ := (closed.active _).mp active
    obtain ⟨addr, cmd, found, status, watchers, inside⟩ := listening.watched array index earlier
    have member : addr ∈ addrs := (listening.listed addr).mpr (.inl ⟨cmd, found, .inr status⟩)
    refine absurd ?_ (notClosing addr member cmd found)
    simp only [ListenCmd.closing, ListenCmd.closes, status, watchers]
    exact mem_arrayWatchers.mpr ⟨index, inside, rfl⟩
  · intro socket active
    exact listening.connected socket ((closed.active _).mp active).1

theorem Listening.closeFd (listening : self.Listening addrs linking) (fd : Int) :
    (self.closeFd fd).Listening addrs linking := by
  obtain ⟨badCloses, same, _⟩ := @closeFd_eq self fd
  rw [same]
  exact listening.frame rfl rfl rfl rfl (fun _ _ active => active) listening.connected

private theorem closeFd_kept (fd : Int) :
    (self.closeFd fd).refs = self.refs ∧ (self.closeFd fd).listenCmds = self.listenCmds := by
  obtain ⟨badCloses, same, _⟩ := @closeFd_eq self fd
  rw [same]
  exact ⟨rfl, rfl⟩

theorem Listening.leave (listening : self.Listening addrs linking) (fd : Int)
    (left : Option Addr) : (self.leave fd left).Listening addrs linking := by
  cases left with
  | none => exact listening
  | some addr =>
      refine listening.frame rfl rfl rfl rfl (fun _ _ active => active) fun socket active => ?_
      by_cases same : socket = addr
      · simp [EventLoop.leave, setEstSocket, same]
      · simpa [EventLoop.leave, setEstSocket, same] using listening.connected socket active

private theorem leave_kept (fd : Int) (left : Option Addr) :
    (self.leave fd left).refs = self.refs ∧ (self.leave fd left).listenCmds = self.listenCmds := by
  cases left with
  | none | some => exact ⟨rfl, rfl⟩

/-- A connection more or less leaves the listen commands alone. -/
theorem Listening.accepted (listening : self.Listening addrs linking) {clientSocket : Int}
    {protocol : ProtocolOutcome} (accepted : self.Accepted clientSocket protocol next) :
    next.Listening addrs linking ∧ next.refs = self.refs ∧ next.listenCmds = self.listenCmds := by
  unfold Accepted at accepted
  split at accepted
  · rename_i object addr mask connects
    obtain ⟨loop, gil, _, rfl⟩ := accepted
    refine ⟨listening.frame rfl rfl rfl rfl ?_ ?_, rfl, rfl⟩
    · intro array index active
      simpa using active
    · intro socket active
      by_cases same : socket = addr
      · simp [same]
      · have earlier : .est socket ∈ self.active := by simpa [same] using active
        simpa [same] using listening.connected socket earlier
  · obtain ⟨gil, rfl⟩ := accepted
    have before : EventLoop.Listening { self with gil := gil } addrs linking :=
      listening.frame rfl rfl rfl rfl (fun _ _ active => active) listening.connected
    exact ⟨(before.leave _ _).closeFd _, (closeFd_kept _).1.trans (leave_kept _ _).1,
      (closeFd_kept _).2.trans (leave_kept _ _).2⟩

theorem Listening.listenEvent (listening : self.Listening addrs linking) {outcome : AcceptOutcome}
    (event : self.ListenEvent cmd outcome next) :
    next.Listening addrs linking ∧ next.refs = self.refs ∧ next.listenCmds = self.listenCmds := by
  cases event with
  | nothing =>
      exact ⟨listening.frame rfl rfl rfl rfl (fun _ _ active => active) listening.connected,
        rfl, rfl⟩
  | @notListening fd reported protocol gil =>
      have before : EventLoop.Listening { self.openFd fd with gil := gil } addrs linking :=
        listening.frame rfl rfl rfl rfl (fun _ _ active => active) listening.connected
      exact ⟨before.closeFd fd, closeFd_kept fd⟩
  | @accepted fd reported protocol gil _ _ accepted =>
      have before : EventLoop.Listening { self.openFd fd with gil := gil } addrs linking :=
        listening.frame rfl rfl rfl rfl (fun _ _ active => active) listening.connected
      exact before.accepted accepted

theorem Listening.estEvent (listening : self.Listening addrs linking) {socket : EstSocket}
    {outcome : ReadOutcome} (event : self.EstEvent addr socket outcome next) :
    next.Listening addrs linking ∧ next.refs = self.refs ∧ next.listenCmds = self.listenCmds := by
  cases event with
  | nothing =>
      exact ⟨listening.frame rfl rfl rfl rfl (fun _ _ active => active) listening.connected,
        rfl, rfl⟩
  | closed =>
      obtain ⟨loop, stopped⟩ := @ioStop_eq self (.est addr)
      rw [stopped]
      refine ⟨listening.frame rfl rfl rfl rfl ?_ ?_, rfl, rfl⟩
      · exact fun _ _ active => Finset.mem_of_mem_erase active
      · exact fun socket active => listening.connected socket (Finset.mem_of_mem_erase active)
  | resumed _ same =>
      subst same
      refine ⟨listening.frame rfl rfl rfl rfl ?_ ?_, rfl, rfl⟩
      · intro array index active
        simpa using active
      · intro other active
        by_cases same : other = addr
        · simp [same]
        · have earlier : .est other ∈ self.active := by simpa [same] using active
          simpa [same] using listening.connected other earlier

/-- The whole break: it frees only what it held the last reference to. -/
theorem Listening.eventLoopBreak (listening : self.Listening addrs none) {drops : List Dropped}
    (keeps : KeepsLinks self.refs addrs drops) (done : self.eventLoopBreak drops = .ok next) :
    next.Listening [] none ∧
      (∀ object, next.refs object = self.refs object - if object ∈ addrs then 1 else 0) ∧
      (∀ addr ∉ addrs, next.listenCmds addr = self.listenCmds addr) ∧
      ∀ addr ∈ addrs, next.listenCmds addr = none → self.refs addr ≤ 1 := by
  obtain ⟨closed, all, rfl⟩ := eventLoopBreak_closedAll listening.chain keeps done
  have before : self.stopBreakSignals.restoreThread.Listening addrs none :=
    listening.frame rfl rfl rfl rfl (fun _ _ active => active) listening.connected
  have after := before.closedAll all
  exact ⟨after.frame rfl rfl rfl rfl (fun _ _ active => active) after.connected, all.refs,
    all.others, all.freed⟩

/-- A report crashes for want of its text. -/
private theorem error_fault (subject : Addr) (errorType : ErrorType) (errorCode : Int)
    (text : Option String) (reported : Reported) :
    Ensures (fun crash => crash.fault.unlisted = true) (fun _ => True)
      (self.error subject errorType errorCode text reported) := by
  cases text with
  | none => exact rfl
  | some text => exact trivial

private theorem openSockets_fault (addresses : List AddrOutcome) : ∀ {self : EventLoop},
    Ensures (fun crash => crash.fault.unlisted = true) (fun _ => True)
      (openSockets addr self addresses) := by
  induction addresses with
  | nil => exact trivial
  | cons address rest ih =>
      intro self
      obtain ⟨name, socket⟩ := address
      have named : Ensures (fun crash : Crash => crash.fault.unlisted = true) (fun _ => True)
          (self.nameAddress addr name) := by
        cases name with
        | found => exact trivial
        | failed => exact (error_fault _ _ _ _ _).bind fun _ _ => trivial
      refine named.bind fun _ _ => ?_
      cases socket with
      | refused => exact (error_fault _ _ _ _ _).bind fun _ _ => trivial
      | failed => exact (error_fault _ _ _ _ _).bind fun _ _ => trivial
      | listening => exact ih.bind fun _ _ => trivial

theorem listenCmdXschedule01_fault {outcome : ResolveOutcome}
    (found : self.listenCmds addr = some cmd) :
    Ensures (fun crash => crash.fault.unlisted = true) (fun _ => True)
      (self.listenCmdXschedule01 addr outcome) := by
  simp only [listenCmdXschedule01, found]
  cases outcome with
  | failed => exact error_fault _ _ _ _ _
  | found addresses =>
      refine (openSockets_fault addresses).bind fun opened _ => ?_
      split
      · exact trivial
      · exact trivial

theorem onListenSocketIo_fault {array : Nat} {data : Addr × ListenCmd}
    (found : self.watcherData array = some data) {revents : EvEvents} {reported : Reported}
    {outcome : AcceptOutcome} : Ensures (fun crash => crash.fault.unlisted = true) (fun _ => True)
      (self.onListenSocketIo array revents reported outcome) := by
  simp only [onListenSocketIo, found]
  split
  · exact error_fault _ _ _ _ _
  · split
    · unfold onListenSocketAccept
      cases outcome with
      | failed => exact error_fault _ _ _ _ _
      | accepted fd notListening protocol =>
          dsimp only
          split
          · exact acceptProtocol_fault _ _ _
          · exact (error_fault _ _ _ _ _).bind fun _ _ => trivial
    · exact trivial

end EventLoop

end Striga.Pyglev
