import Striga.Pyglev.EventLoopBreak

/-! The break on a heap from which an object is gone with its last reference,
whoever else holds references to the listen commands. -/

set_option autoImplicit false

namespace Striga.Pyglev

open Lib
open Lib.LinkedList (Chain)

/-- What the loop of the break meets where others hold so many references to
each of the given commands. -/
def droppedAmong (external : Addr → Nat) (addrs : List Addr) : List Dropped :=
  addrs.map fun addr => if external addr = 0 then .freed .wild else .held

/-- No link is read from an object that is gone. -/
def Dropped.Strict : Dropped → Prop
  | .held | .freed .wild => True
  | _ => False

private theorem droppedAmong_strict (external : Addr → Nat) (addrs : List Addr) :
    ∀ dropped ∈ droppedAmong external addrs, dropped.Strict := by
  intro dropped member
  obtain ⟨addr, _, rfl⟩ := List.mem_map.mp member
  split <;> trivial

private theorem keepsLinks_droppedAmong {refs : Addr → Int} {external : Addr → Nat}
    {addrs : List Addr} (owned : ∀ addr ∈ addrs, 1 ≤ refs addr) :
    KeepsLinks refs addrs (droppedAmong external addrs) ↔
      ∀ addr ∈ addrs, 1 < refs addr + external addr := by
  induction addrs with
  | nil => simp [KeepsLinks]
  | cons addr addrs ih =>
      obtain ⟨held, others⟩ := List.forall_mem_cons.mp owned
      have first : (if external addr = 0 then Dropped.freed .wild else .held).Keeps (refs addr)
          (addrs = []) ↔ 1 < refs addr + external addr := by
        split
        · rename_i alone
          simp [Dropped.Keeps, alone]
        · simp only [Dropped.Keeps, true_iff]
          omega
      rw [List.forall_mem_cons, ← first, ← ih others]
      exact Iff.rfl

namespace EventLoop

/-- The commands that the loop of `_event_loop_break` closes. -/
def closeListedCmds (self : EventLoop) : Option Addr → List Dropped → List Addr
  | none, _ => []
  | some _, [] => []
  | some listenCmd, dropped :: rest =>
      match self.listenCmdClose listenCmd with
      | .error _ => [listenCmd]
      | .ok self =>
          match self.dropListenCmd listenCmd dropped with
          | .error _ => [listenCmd]
          | .ok (self, next) =>
              listenCmd :: closeListedCmds { self with listenCommands := next } next rest

/-- The commands that `_event_loop_break` closes. -/
def breakCmds (self : EventLoop) (drops : List Dropped) : List Addr :=
  self.stopBreakSignals.restoreThread.closeListedCmds self.listenCommands drops

variable {self next : EventLoop} {listenCmd : Addr} {cmd : ListenCmd}

/-- A drop after which the link is read has not freed the command. -/
private theorem dropListenCmd_strict {dropped : Dropped} {nextHead : Option Addr}
    (strict : dropped.Strict) (found : self.listenCmds listenCmd = some cmd)
    (done : self.dropListenCmd listenCmd dropped = .ok (next, nextHead)) :
    next.listenCmds listenCmd = some cmd ∧
      dropped.Keeps (self.refs listenCmd) (cmd.next = none) := by
  have live : ((self.calls [.decref listenCmd]).addRefs listenCmd (-1)).listenCmds listenCmd =
    some cmd := found
  have left := @refs_drop self listenCmd
  simp only [dropListenCmd, live, left] at done
  cases dropped with
  | held =>
      cases done
      exact ⟨live, trivial⟩
  | freed read =>
      cases read with
      | kept | null => cases strict
      | wild =>
          by_cases more : 0 < self.refs listenCmd - 1
          · simp only [if_pos more] at done
            cases done
            exact ⟨live, by change 1 < self.refs listenCmd; omega⟩
          · simp only [if_neg more] at done
            cases done

/-- What a break that comes to its end has done on such a heap. -/
structure ClosedListed (start : EventLoop) (addrs : List Addr) (drops : List Dropped)
    (next : EventLoop) : Prop where
  keeps : KeepsLinks start.refs addrs drops
  cmds : start.closeListedCmds start.listenCommands drops = addrs
  closed : ∀ addr ∈ addrs, ∃ cmd, start.listenCmds addr = some cmd ∧
    next.listenCmds addr = some { cmd with status := .closed }

private theorem closeListed_strict (addrs : List Addr) :
    ∀ {self : EventLoop} {drops : List Dropped},
    Chain self.listenLinks self.listenCommands addrs → (∀ dropped ∈ drops, dropped.Strict) →
    ∀ next, self.closeListed self.listenCommands drops = .ok next →
      self.ClosedListed addrs drops next := by
  induction addrs with
  | nil =>
      intro self drops chain _ next _
      have head : self.listenCommands = none := chain
      exact ⟨trivial, by rw [head, closeListedCmds], by simp⟩
  | cons addr addrs ih =>
      intro self drops chain strict next done
      have absent := (List.nodup_cons.mp chain.nodup).1
      obtain ⟨head, link, linked, later⟩ := chain
      obtain ⟨cmd, found, rfl⟩ := Option.map_eq_some_iff.mp linked
      cases drops with
      | nil =>
          rw [head] at done
          cases done
      | cons dropped drops =>
          rw [head] at done
          obtain ⟨strictOne, strictRest⟩ := List.forall_mem_cons.mp strict
          obtain ⟨middle, after, nextHead, closed, droppedOne, rest⟩ := closeListed_round done
          obtain ⟨same, foundSame, closedSpec⟩ := (listenCmdClose_within addr).of_ok closed
          cases found.symm.trans foundSame
          obtain ⟨foundClosed, refs⟩ := closedSpec.found
          obtain ⟨stays, kept⟩ := dropListenCmd_strict strictOne foundClosed droppedOne
          have keepsOne : dropped.Keeps (self.refs addr) (cmd.next = none) := refs ▸ kept
          obtain ⟨rfl, one⟩ := closedOne_of_round keepsOne closedSpec droppedOne
          obtain ⟨chainRest, refsRest⟩ := one.rest cmd.next absent later
          have run := ih chainRest strictRest next rest
          have keepsRest := keepsLinks_congr addrs
            (fun node member => (refsRest node member).symm) run.keeps
          have last : (addrs = []) = (cmd.next = none) :=
            propext (LinkedList.Chain.null_iff later).symm
          constructor
          · exact ⟨last ▸ keepsOne, keepsRest⟩
          · rw [head, closeListedCmds, closed]
            simp only [droppedOne]
            exact congrArg (addr :: ·) run.cmds
          · intro node member
            rcases List.mem_cons.mp member with rfl | member
            · have untouched := (closeListed_closedAll addrs chainRest run.keeps next rest).others
                node absent
              exact ⟨cmd, found, untouched.trans stays⟩
            · obtain ⟨before, foundBefore, foundAfter⟩ := run.closed node member
              have differs := ne_of_mem_of_not_mem member absent
              exact ⟨before, (one.others node differs).symm.trans foundBefore, foundAfter⟩

/-- The break as the list's owner needs it: each command is closed and given up
once, and the list is empty. -/
structure BreaksSafely (start : EventLoop) (addrs : List Addr) (drops : List Dropped)
    (next : EventLoop) : Prop where
  cmds : start.breakCmds drops = addrs
  once : addrs.Nodup
  closed : ∀ addr ∈ addrs, ∃ cmd, start.listenCmds addr = some cmd ∧
    next.listenCmds addr = some { cmd with status := .closed }
  stopped : ∀ addr ∈ addrs, ∀ cmd, start.listenCmds addr = some cmd →
    ∀ io ∈ cmd.closing, io ∉ next.active
  refs : ∀ object, next.refs object = start.refs object - if object ∈ addrs then 1 else 0
  empty : next.listenCommands = none

private theorem eventLoopBreak_ok {drops : List Dropped}
    (done : self.eventLoopBreak drops = .ok next) :
    ∃ closed, self.stopBreakSignals.restoreThread.closeListed self.listenCommands drops =
      .ok closed ∧ next = closed.saveThread := by
  have whole : self.eventLoopBreak drops = self.stopBreakSignals.restoreThread.closeListed
      self.listenCommands drops >>= fun closed => .ok closed.saveThread := rfl
  rw [whole] at done
  cases closed : self.stopBreakSignals.restoreThread.closeListed self.listenCommands drops with
  | error crash =>
      rw [closed] at done
      cases done
  | ok middle =>
      rw [closed] at done
      cases done
      exact ⟨middle, rfl, rfl⟩

private theorem breaksSafely_of_ok {addrs : List Addr} {drops : List Dropped}
    (chain : Chain self.listenLinks self.listenCommands addrs)
    (strict : ∀ dropped ∈ drops, dropped.Strict) (done : self.eventLoopBreak drops = .ok next) :
    KeepsLinks self.refs addrs drops ∧ self.BreaksSafely addrs drops next := by
  obtain ⟨closed, listed, rfl⟩ := eventLoopBreak_ok done
  have run := @closeListed_strict addrs self.stopBreakSignals.restoreThread drops chain strict
    closed listed
  have all := @closeListed_closedAll addrs self.stopBreakSignals.restoreThread drops chain
    run.keeps closed listed
  refine ⟨run.keeps, run.cmds, chain.nodup, run.closed, ?_, all.refs, ?_⟩
  · intro addr member cmd found io closing active
    exact ((all.active io).mp active).2 addr member cmd found closing
  · obtain ⟨_, _, _, _, _, _, _, _, rfl⟩ := all.changed
    rfl

theorem eventLoopBreak_safely_iff (eventLoop : EventLoop) (addrs : List Addr)
    (external : Addr → Nat)
    (chain : Chain eventLoop.listenLinks eventLoop.listenCommands addrs)
    (owned : ∀ addr ∈ addrs, 1 ≤ eventLoop.refs addr) (closable : eventLoop.Closable addrs) :
    (∃ next, eventLoop.eventLoopBreak (droppedAmong external addrs) = .ok next ∧
        eventLoop.BreaksSafely addrs (droppedAmong external addrs) next) ↔
      ∀ addr ∈ addrs, 1 < eventLoop.refs addr + external addr := by
  have strict := droppedAmong_strict external addrs
  rw [← keepsLinks_droppedAmong owned]
  constructor
  · intro safe
    obtain ⟨next, done, _⟩ := safe
    exact (breaksSafely_of_ok chain strict done).1
  · intro keeps
    obtain ⟨next, done⟩ := eventLoopBreak_returns chain keeps closable
    exact ⟨next, done, (breaksSafely_of_ok chain strict done).2⟩

/-- A loop that runs with one listen command, on which it does not listen yet. -/
def listingOne : EventLoop :=
  let eventLoop := (fresh ⟨some 1, none, []⟩).setListenCmd 5 ⟨none, none, "80", .resolving, 0, none⟩
  { eventLoop with
    listenCommands := some 5
    refs := Function.update eventLoop.refs 5 1 }

/-- The same loop with a second command before the first, listening on one address. -/
def listingTwo : EventLoop :=
  let eventLoop := listingOne.setListenCmd 6 ⟨some 5, none, "8080", .listening, 1, some 0⟩
  { eventLoop with
    loop := ⟨1⟩
    active := {.listen 0 0}
    arrays := Function.update eventLoop.arrays 0 (some ⟨6, [7]⟩)
    listenCommands := some 6
    refs := Function.update eventLoop.refs 6 1
    openFds := {7} }

private theorem listingTwo_closable : listingTwo.Closable [6, 5] := by
  constructor
  · intro addr member cmd found array closes index within
    simp only [List.mem_cons, List.not_mem_nil, or_false] at member
    rcases member with rfl | rfl
    · cases found
      cases closes
      have first : index = 0 := Nat.lt_one_iff.mp within
      rw [first]
      rfl
    · cases found
      cases closes
  · intro addr member other otherMember cmd otherCmd array found otherFound watchers otherWatchers
    simp only [List.mem_cons, List.not_mem_nil, or_false] at member otherMember
    rcases member with rfl | rfl
    · rcases otherMember with rfl | rfl
      · rfl
      · cases otherFound
        cases otherWatchers
    · cases found
      cases watchers

theorem breaksSafely_caller_keeps_both :
    ∃ next, listingTwo.eventLoopBreak (droppedAmong (fun _ => 1) [6, 5]) = .ok next ∧
      listingTwo.BreaksSafely [6, 5] (droppedAmong (fun _ => 1) [6, 5]) next :=
  (eventLoopBreak_safely_iff listingTwo [6, 5] (fun _ => 1)
    ⟨rfl, some 5, rfl, rfl, none, rfl, rfl⟩ (by decide) listingTwo_closable).mpr (by decide)

/-- The program has discarded the result of `application.listen`. -/
theorem not_breaksSafely_discarded :
    ¬ ∃ next, listingOne.eventLoopBreak (droppedAmong (fun _ => 0) [5]) = .ok next ∧
      listingOne.BreaksSafely [5] (droppedAmong (fun _ => 0) [5]) next := by
  intro safe
  obtain ⟨next, done, _⟩ := safe
  cases done

end EventLoop

end Striga.Pyglev
