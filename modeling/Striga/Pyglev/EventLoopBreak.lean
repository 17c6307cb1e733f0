import Striga.Pyglev.Callbacks

/-! What `_event_loop_break` does to a loop whose list of listen commands is
finite: it closes each command of the list once and gives its reference back. -/

set_option autoImplicit false

namespace Striga.Pyglev

open Lib
open Lib.LinkedList (Chain)

/-- The watchers that a close stops. -/
def ListenCmd.closing (cmd : ListenCmd) : Finset Io :=
  match cmd.closes with
  | none => ∅
  | some array => EventLoop.arrayWatchers array cmd.watchersCount

/-- The `next` that is read after the reference is given back is the one that was
there; the object may be gone only with its last reference. -/
def Dropped.Keeps (refs : Int) (last : Prop) : Dropped → Prop
  | .held | .freed .kept => True
  | .freed .null => 1 < refs ∨ last
  | .freed .wild => 1 < refs

/-- The same for each command of a list. -/
def KeepsLinks (refs : Addr → Int) : List Addr → List Dropped → Prop
  | [], _ => True
  | _ :: _, [] => False
  | addr :: addrs, dropped :: drops =>
      dropped.Keeps (refs addr) (addrs = []) ∧ KeepsLinks refs addrs drops

namespace EventLoop

/-- What becomes of a listen command that the break closes: it is closed, or with
its last reference freed. -/
inductive Disposed (self : EventLoop) (listenCmd : Addr) (cmd : ListenCmd) (next : EventLoop) :
    Prop where
  | closed :
      next.listenCmds listenCmd = some { cmd with status := .closed } →
      next.arrays = self.arrays → Disposed self listenCmd cmd next
  | freed :
      next.listenCmds listenCmd = none → self.refs listenCmd ≤ 1 →
      (∀ array, cmd.watchers ≠ some array → next.arrays array = self.arrays array) →
      Disposed self listenCmd cmd next

/-- One round of the loop of `_event_loop_break`. -/
structure ClosedOne (start : EventLoop) (listenCmd : Addr) (cmd : ListenCmd)
    (next : EventLoop) : Prop where
  changed : ∃ loop gil listenCmds arrays openFds badCloses, next = { start with
    active := start.active \ cmd.closing
    refs := Function.update start.refs listenCmd (start.refs listenCmd - 1)
    loop := loop
    gil := gil
    listenCmds := listenCmds
    arrays := arrays
    openFds := openFds
    badCloses := badCloses }
  counted : start.Counted → next.Counted
  others : ∀ other, other ≠ listenCmd → next.listenCmds other = start.listenCmds other
  disposed : start.Disposed listenCmd cmd next

variable {self next : EventLoop} {listenCmd : Addr} {cmd : ListenCmd}

/-- A close, as far as it concerns the break. -/
theorem ListenCmdClosed.changed (closed : self.ListenCmdClosed listenCmd cmd next) :
    (∃ loop openFds badCloses, next = { self with
      active := self.active \ cmd.closing
      listenCmds := Function.update self.listenCmds listenCmd (some { cmd with status := .closed })
      loop := loop
      openFds := openFds
      badCloses := badCloses }) ∧ (self.Counted → next.Counted) := by
  obtain ⟨before, rfl, done⟩ := closed
  unfold ListenCmd.closing
  cases closes : cmd.closes with
  | none =>
      rw [closes] at done
      subst done
      exact ⟨⟨before.loop, before.openFds, before.badCloses, by simp [setListenCmd]⟩,
        fun counted => counted⟩
  | some array =>
      rw [closes] at done
      obtain ⟨⟨loop, badCloses, rfl⟩, counted, _⟩ := done
      exact ⟨⟨_, _, _, rfl⟩, counted⟩

/-- The closed command is still there, with its references. -/
theorem ListenCmdClosed.found (closed : self.ListenCmdClosed listenCmd cmd next) :
    next.listenCmds listenCmd = some { cmd with status := .closed } ∧ next.refs = self.refs := by
  obtain ⟨_, _, _, rfl⟩ := closed.changed.1
  exact ⟨Function.update_self .., rfl⟩

theorem refs_drop : ((self.calls [.decref listenCmd]).addRefs listenCmd (-1)).refs listenCmd =
    self.refs listenCmd - 1 := by
  rw [refs_addRefs, if_pos rfl]
  exact (Int.sub_eq_add_neg).symm

private theorem dropListenCmd_kept {dropped : Dropped} {nextHead : Option Addr}
    (found : self.listenCmds listenCmd = some cmd)
    (keeps : dropped.Keeps (self.refs listenCmd) (cmd.next = none))
    (done : self.dropListenCmd listenCmd dropped = .ok (next, nextHead)) :
    nextHead = cmd.next ∧
      let after := (self.calls [.decref listenCmd]).addRefs listenCmd (-1)
      (next = after ∨ self.refs listenCmd ≤ 1 ∧ next = after.freeListenCmd listenCmd cmd) := by
  have live : ((self.calls [.decref listenCmd]).addRefs listenCmd (-1)).listenCmds listenCmd =
    some cmd := found
  have left := @refs_drop self listenCmd
  simp only [dropListenCmd, live, left] at done
  cases dropped with
  | held =>
      cases done
      exact ⟨rfl, .inl rfl⟩
  | freed read =>
      by_cases more : 0 < self.refs listenCmd - 1
      · simp only [if_pos more] at done
        cases done
        exact ⟨rfl, .inl rfl⟩
      · have last : self.refs listenCmd ≤ 1 := by omega
        simp only [if_neg more] at done
        cases read with
        | kept =>
            cases done
            exact ⟨rfl, .inr ⟨last, rfl⟩⟩
        | null =>
            cases done
            have atEnd : cmd.next = none := keeps.resolve_left (by omega)
            exact ⟨atEnd.symm, .inr ⟨last, rfl⟩⟩
        | wild => cases done

/-- With the link kept, a round closes one command and goes on with its `next`. -/
theorem closedOne_of_round {middle : EventLoop} {dropped : Dropped} {nextHead : Option Addr}
    (keeps : dropped.Keeps (self.refs listenCmd) (cmd.next = none))
    (closed : self.ListenCmdClosed listenCmd cmd middle)
    (done : middle.dropListenCmd listenCmd dropped = .ok (next, nextHead)) :
    nextHead = cmd.next ∧ self.ClosedOne listenCmd cmd next := by
  obtain ⟨foundClosed, refs⟩ := closed.found
  obtain ⟨nextHead, after⟩ := dropListenCmd_kept foundClosed (refs ▸ keeps) done
  rw [refs] at after
  obtain ⟨⟨loop, openFds, badCloses, rfl⟩, counted⟩ := closed.changed
  refine ⟨nextHead, ?_⟩
  rcases after with rfl | ⟨last, rfl⟩
  · refine ⟨⟨_, _, _, _, _, _, rfl⟩, counted, fun other differs => ?_, .closed ?_ rfl⟩
    · exact Function.update_of_ne differs _ _
    · exact Function.update_self ..
  · refine ⟨⟨_, _, _, _, _, _, rfl⟩, counted, fun other differs => ?_, .freed ?_ last ?_⟩
    · simp [freeListenCmd, addRefs, calls, differs]
    · simp [freeListenCmd]
    · intro array differs
      cases watchers : cmd.watchers with
      | none => simp [freeListenCmd, addRefs, calls]
      | some own =>
          rw [watchers] at differs
          have apart : array ≠ own := fun same => differs (same ▸ rfl)
          simp [freeListenCmd, addRefs, calls, apart]

/-- All rounds of the loop, over the commands of the list. -/
structure ClosedAll (start : EventLoop) (addrs : List Addr) (next : EventLoop) : Prop where
  changed : ∃ loop gil listenCmds arrays active refs openFds badCloses, next = { start with
    listenCommands := none
    loop := loop
    gil := gil
    listenCmds := listenCmds
    arrays := arrays
    active := active
    refs := refs
    openFds := openFds
    badCloses := badCloses }
  counted : start.Counted → next.Counted
  others : ∀ other ∉ addrs, next.listenCmds other = start.listenCmds other
  refs : ∀ object, next.refs object = start.refs object - if object ∈ addrs then 1 else 0
  active : ∀ io, io ∈ next.active ↔ io ∈ start.active ∧
    ∀ addr ∈ addrs, ∀ cmd, start.listenCmds addr = some cmd → io ∉ cmd.closing
  closed : ∀ addr ∈ addrs, ∀ after, next.listenCmds addr = some after →
    ∃ before, start.listenCmds addr = some before ∧ after = { before with status := .closed }
  freed : ∀ addr ∈ addrs, next.listenCmds addr = none → start.refs addr ≤ 1
  arrays : ∀ array, (∀ addr ∈ addrs, next.listenCmds addr = none → ∀ cmd,
    start.listenCmds addr = some cmd → cmd.watchers ≠ some array) →
    next.arrays array = start.arrays array

theorem keepsLinks_congr {refs other : Addr → Int} (addrs : List Addr) : ∀ {drops : List Dropped},
    (∀ addr ∈ addrs, other addr = refs addr) → KeepsLinks refs addrs drops →
    KeepsLinks other addrs drops := by
  induction addrs with
  | nil => exact fun _ _ => trivial
  | cons addr addrs ih =>
      intro drops same keeps
      cases drops with
      | nil => exact keeps
      | cons dropped drops =>
          refine ⟨?_, ih (fun node member => same node (List.mem_cons_of_mem _ member)) keeps.2⟩
          rw [same addr List.mem_cons_self]
          exact keeps.1

theorem closeListed_round {head : Addr} {dropped : Dropped} {drops : List Dropped}
    (done : self.closeListed (some head) (dropped :: drops) = .ok next) :
    ∃ middle after nextHead, self.listenCmdClose head = .ok middle ∧
      middle.dropListenCmd head dropped = .ok (after, nextHead) ∧
      closeListed { after with listenCommands := nextHead } nextHead drops = .ok next := by
  unfold closeListed at done
  cases closed : self.listenCmdClose head with
  | error crash =>
      rw [closed] at done
      cases done
  | ok middle =>
      rw [closed] at done
      cases droppedOne : middle.dropListenCmd head dropped with
      | error crash =>
          simp only [bind, Except.bind, droppedOne] at done
          cases done
      | ok after =>
          simp only [bind, Except.bind, droppedOne] at done
          exact ⟨middle, after.1, after.2, rfl, droppedOne, done⟩

private theorem closedAll_nil (head : self.listenCommands = none) : self.ClosedAll [] self where
  changed := ⟨_, _, _, _, _, _, _, _, by rw [← head]⟩
  counted := fun counted => counted
  others := fun _ _ => rfl
  refs := by simp
  active := by simp
  closed := by simp
  freed := by simp
  arrays := fun _ _ => rfl

/-- The first round and the others together. -/
theorem ClosedOne.closedAll {middle : EventLoop} {addrs : List Addr} {nextHead : Option Addr}
    (found : self.listenCmds listenCmd = some cmd) (one : self.ClosedOne listenCmd cmd middle)
    (absent : listenCmd ∉ addrs)
    (rest : ClosedAll { middle with listenCommands := nextHead } addrs next) :
    self.ClosedAll (listenCmd :: addrs) next := by
  obtain ⟨⟨loop, gil, listenCmds, arrays, openFds, badCloses, rfl⟩, counted, others,
    disposed⟩ := one
  have untouched : next.listenCmds listenCmd = listenCmds listenCmd := rest.others listenCmd absent
  have later : ∀ addr ∈ addrs, listenCmds addr = self.listenCmds addr :=
    fun addr member => others addr (ne_of_mem_of_not_mem member absent)
  constructor
  · obtain ⟨loop, gil, listenCmds, arrays, active, refs, openFds, badCloses, rfl⟩ := rest.changed
    exact ⟨_, _, _, _, _, _, _, _, rfl⟩
  · exact fun before => rest.counted (counted before)
  · intro other outside
    rw [List.mem_cons, not_or] at outside
    exact (rest.others other outside.2).trans (others other outside.1)
  · intro object
    rw [rest.refs object]
    by_cases same : object = listenCmd
    · subst same
      simp [absent]
    · simp [same]
  · intro io
    rw [rest.active io]
    simp only [Finset.mem_sdiff, List.mem_cons]
    constructor
    · intro kept
      obtain ⟨⟨active, notFirst⟩, notLater⟩ := kept
      refine ⟨active, fun addr member after foundAfter => ?_⟩
      rcases member with rfl | member
      · cases found.symm.trans foundAfter
        exact notFirst
      · exact notLater addr member after ((later addr member).trans foundAfter)
    · intro kept
      obtain ⟨active, notClosing⟩ := kept
      refine ⟨⟨active, notClosing listenCmd (.inl rfl) cmd found⟩, ?_⟩
      intro addr member after foundAfter
      exact notClosing addr (.inr member) after ((later addr member).symm.trans foundAfter)
  · intro addr member after foundAfter
    rcases List.mem_cons.mp member with rfl | member
    · rw [untouched] at foundAfter
      cases disposed with
      | closed closed _ => exact ⟨cmd, found, Option.some.inj (foundAfter.symm.trans closed)⟩
      | freed gone _ _ => cases foundAfter.symm.trans gone
    · obtain ⟨before, foundBefore, same⟩ := rest.closed addr member after foundAfter
      exact ⟨before, (later addr member).symm.trans foundBefore, same⟩
  · intro addr member gone
    rcases List.mem_cons.mp member with rfl | member
    · rw [untouched] at gone
      cases disposed with
      | closed closed _ => cases gone.symm.trans closed
      | freed _ last _ => exact last
    · have last := rest.freed addr member gone
      have differs := ne_of_mem_of_not_mem member absent
      simpa [differs] using last
  · intro array kept
    have first : arrays array = self.arrays array := by
      cases disposed with
      | closed _ same => exact congrFun same array
      | freed gone _ same =>
          exact same array (kept listenCmd List.mem_cons_self (untouched.trans gone) cmd found)
    refine (rest.arrays array ?_).trans first
    intro addr member gone after foundAfter
    exact kept addr (List.mem_cons_of_mem _ member) gone after
      ((later addr member).symm.trans foundAfter)

/-- A round leaves the other commands of the list, their links and references alone. -/
theorem ClosedOne.rest {middle : EventLoop} {addrs : List Addr}
    (one : self.ClosedOne listenCmd cmd middle) (nextHead : Option Addr)
    (absent : listenCmd ∉ addrs)
    (later : Chain self.listenLinks cmd.next addrs) :
    Chain (listenLinks { middle with listenCommands := nextHead }) cmd.next addrs ∧
      ∀ node ∈ addrs, middle.refs node = self.refs node := by
  constructor
  · refine later.frame fun node member => ?_
    have differs := ne_of_mem_of_not_mem member absent
    exact congrArg (Option.map ListenCmd.next) (one.others node differs)
  · intro node member
    have differs := ne_of_mem_of_not_mem member absent
    obtain ⟨⟨_, _, _, _, _, _, rfl⟩, _⟩ := one
    exact Function.update_of_ne differs _ _

theorem closeListed_closedAll (addrs : List Addr) : ∀ {self : EventLoop} {drops : List Dropped},
    Chain self.listenLinks self.listenCommands addrs → KeepsLinks self.refs addrs drops →
    ∀ next, self.closeListed self.listenCommands drops = .ok next → self.ClosedAll addrs next := by
  induction addrs with
  | nil =>
      intro self drops chain _ next done
      have head : self.listenCommands = none := chain
      rw [head] at done
      cases drops with
      | nil | cons =>
          cases done
          exact closedAll_nil head
  | cons addr addrs ih =>
      intro self drops chain keeps next done
      have absent := (List.nodup_cons.mp chain.nodup).1
      obtain ⟨head, link, linked, later⟩ := chain
      obtain ⟨cmd, found, rfl⟩ := Option.map_eq_some_iff.mp linked
      cases drops with
      | nil => cases keeps
      | cons dropped drops =>
          rw [head] at done
          obtain ⟨middle, after, nextHead, closed, droppedOne, rest⟩ := closeListed_round done
          obtain ⟨same, foundSame, closed⟩ := (listenCmdClose_within addr).of_ok closed
          cases found.symm.trans foundSame
          have last : (addrs = []) = (cmd.next = none) :=
            propext (LinkedList.Chain.null_iff later).symm
          obtain ⟨rfl, one⟩ := closedOne_of_round (last ▸ keeps.1) closed droppedOne
          obtain ⟨chainRest, refsRest⟩ := one.rest cmd.next absent later
          exact one.closedAll found absent
            (ih chainRest (keepsLinks_congr addrs refsRest keeps.2) next rest)

private theorem dropListenCmd_returns {dropped : Dropped} {last : Prop}
    (found : self.listenCmds listenCmd = some cmd)
    (keeps : dropped.Keeps (self.refs listenCmd) last) :
    ∃ after, self.dropListenCmd listenCmd dropped = .ok after := by
  have live : ((self.calls [.decref listenCmd]).addRefs listenCmd (-1)).listenCmds listenCmd =
    some cmd := found
  have left := @refs_drop self listenCmd
  simp only [dropListenCmd, live, left]
  cases dropped with
  | held => exact ⟨_, rfl⟩
  | freed read =>
      by_cases more : 0 < self.refs listenCmd - 1
      · exact ⟨_, if_pos more⟩
      · simp only [if_neg more]
        cases read with
        | kept | null => exact ⟨_, rfl⟩
        | wild =>
            have many : 1 < self.refs listenCmd := keeps
            omega

/-- Each command of the list has its own array, with as many watchers as a close
goes through. -/
structure Closable (start : EventLoop) (addrs : List Addr) : Prop where
  inside : ∀ addr ∈ addrs, ∀ cmd, start.listenCmds addr = some cmd →
    ∀ array, cmd.closes = some array → ∀ index < cmd.watchersCount,
      (start.watcherFd array index).isSome
  apart : ∀ addr ∈ addrs, ∀ other ∈ addrs, ∀ cmd otherCmd array,
    start.listenCmds addr = some cmd → start.listenCmds other = some otherCmd →
    cmd.watchers = some array → otherCmd.watchers = some array → addr = other

theorem ClosedOne.closable {middle : EventLoop} {addrs : List Addr} {nextHead : Option Addr}
    (found : self.listenCmds listenCmd = some cmd) (one : self.ClosedOne listenCmd cmd middle)
    (absent : listenCmd ∉ addrs) (closable : self.Closable (listenCmd :: addrs)) :
    Closable { middle with listenCommands := nextHead } addrs := by
  have later : ∀ addr ∈ addrs, middle.listenCmds addr = self.listenCmds addr :=
    fun addr member => one.others addr (ne_of_mem_of_not_mem member absent)
  constructor
  · intro addr member after foundAfter array closes index inside
    have foundBefore := (later addr member).symm.trans foundAfter
    have readable := closable.inside addr (List.mem_cons_of_mem _ member) after foundBefore array
      closes index inside
    have same : middle.arrays array = self.arrays array := by
      cases one.disposed with
      | closed _ same => exact congrFun same array
      | freed _ _ same =>
          refine same array fun watchers => absent ?_
          have equal := closable.apart listenCmd List.mem_cons_self addr
            (List.mem_cons_of_mem _ member) cmd after array found foundBefore watchers
            (ListenCmd.watchers_of_closes closes)
          exact equal ▸ member
    simpa [watcherFd, same] using readable
  · intro addr member other otherMember after otherAfter array foundAfter foundOther
    exact closable.apart addr (List.mem_cons_of_mem _ member) other
      (List.mem_cons_of_mem _ otherMember) after otherAfter array
      ((later addr member).symm.trans foundAfter) ((later other otherMember).symm.trans foundOther)

private theorem closeListed_returns (addrs : List Addr) :
    ∀ {self : EventLoop} {drops : List Dropped},
    Chain self.listenLinks self.listenCommands addrs → KeepsLinks self.refs addrs drops →
    self.Closable addrs → ∃ next, self.closeListed self.listenCommands drops = .ok next := by
  induction addrs with
  | nil =>
      intro self drops chain _ _
      have head : self.listenCommands = none := chain
      rw [head]
      cases drops with
      | nil | cons => exact ⟨_, rfl⟩
  | cons addr addrs ih =>
      intro self drops chain keeps closable
      have absent := (List.nodup_cons.mp chain.nodup).1
      obtain ⟨head, link, linked, later⟩ := chain
      obtain ⟨cmd, found, rfl⟩ := Option.map_eq_some_iff.mp linked
      cases drops with
      | nil => cases keeps
      | cons dropped drops =>
          obtain ⟨middle, closed⟩ :=
            listenCmdClose_returns found (closable.inside addr List.mem_cons_self cmd found)
          obtain ⟨same, foundSame, closedSpec⟩ := (listenCmdClose_within addr).of_ok closed
          cases found.symm.trans foundSame
          have last : (addrs = []) = (cmd.next = none) :=
            propext (LinkedList.Chain.null_iff later).symm
          have keepsOne : dropped.Keeps (self.refs addr) (cmd.next = none) := last ▸ keeps.1
          obtain ⟨foundClosed, refs⟩ := closedSpec.found
          obtain ⟨⟨after, nextHead⟩, droppedOne⟩ :=
            dropListenCmd_returns foundClosed (refs ▸ keepsOne)
          obtain ⟨rfl, one⟩ := closedOne_of_round keepsOne closedSpec droppedOne
          obtain ⟨chainRest, refsRest⟩ := one.rest cmd.next absent later
          obtain ⟨next, rest⟩ := @ih { after with listenCommands := cmd.next } drops chainRest
            (keepsLinks_congr addrs refsRest keeps.2) (one.closable found absent closable)
          refine ⟨next, ?_⟩
          rw [head, closeListed]
          simp only [closed, droppedOne, bind, Except.bind]
          exact rest

theorem stopBreakSignals_eq : ∃ loop sigint sigterm, self.stopBreakSignals =
    { self with loop := loop, sigintWatcher := sigint, sigtermWatcher := sigterm } ∧
      sigint.active = false ∧ sigterm.active = false := by
  refine ⟨_, _, _, rfl, ?_, ?_⟩
  · cases active : self.sigintWatcher.active with
    | true => simp [EvSignal.stop, active]
    | false => simp [active]
  · cases active : self.sigtermWatcher.active with
    | true => simp [EvSignal.stop, active]
    | false => simp [active]

theorem Counted.stopBreakSignals (counted : self.Counted) : self.stopBreakSignals.Counted := by
  unfold Counted at counted ⊢
  unfold EventLoop.stopBreakSignals
  cases sigint : self.sigintWatcher.active with
  | true | false =>
      cases sigterm : self.sigtermWatcher.active with
      | true | false =>
          simp [EvSignal.stop, EvLoop.unref, sigint, sigterm] at counted ⊢
          omega

theorem eventLoopBreak_closedAll {addrs : List Addr} {drops : List Dropped}
    (chain : Chain self.listenLinks self.listenCommands addrs)
    (keeps : KeepsLinks self.refs addrs drops) (done : self.eventLoopBreak drops = .ok next) :
    ∃ closed, self.stopBreakSignals.restoreThread.ClosedAll addrs closed ∧
      next = closed.saveThread := by
  have whole : self.eventLoopBreak drops = self.stopBreakSignals.restoreThread.closeListed
      self.stopBreakSignals.restoreThread.listenCommands drops >>=
        fun closed => .ok closed.saveThread := rfl
  rw [whole] at done
  cases closed : self.stopBreakSignals.restoreThread.closeListed
      self.stopBreakSignals.restoreThread.listenCommands drops with
  | error crash =>
      rw [closed] at done
      cases done
  | ok middle =>
      rw [closed] at done
      cases done
      exact ⟨middle, @closeListed_closedAll addrs self.stopBreakSignals.restoreThread drops chain
        keeps middle closed, rfl⟩

theorem eventLoopBreak_returns {addrs : List Addr} {drops : List Dropped}
    (chain : Chain self.listenLinks self.listenCommands addrs)
    (keeps : KeepsLinks self.refs addrs drops) (closable : self.Closable addrs) :
    ∃ next, self.eventLoopBreak drops = .ok next := by
  obtain ⟨closed, done⟩ := @closeListed_returns addrs self.stopBreakSignals.restoreThread drops
    chain keeps ⟨closable.inside, closable.apart⟩
  have whole : self.eventLoopBreak drops = self.stopBreakSignals.restoreThread.closeListed
      self.stopBreakSignals.restoreThread.listenCommands drops >>=
        fun closed => .ok closed.saveThread := rfl
  rw [whole, done]
  exact ⟨_, rfl⟩

end EventLoop

end Striga.Pyglev
