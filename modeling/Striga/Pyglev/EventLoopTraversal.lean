import Striga.Pyglev.EventLoopBreakReferences

/-! `event_loop_tp_traverse` with the objects it visits. -/

set_option autoImplicit false

namespace Striga.Pyglev

open Lib
open Lib.LinkedList (Chain)

/-- The visits of one traversal, and the value it returns. -/
structure Traversal where
  eventLoop : EventLoop
  visited : List Addr
  result : Int

/-- The traversal after the visit of one more object before it. -/
def Traversal.after (visited : Addr) (traversal : Traversal) : Traversal :=
  { traversal with visited := visited :: traversal.visited }

namespace EventLoop

/-- The loop of `event_loop_tp_traverse`, with what the visits return. -/
def visitListed (self : EventLoop) : Option Addr → List Int → Except Crash Traversal
  | none, _ => .ok ⟨self, [], 0⟩
  | some _, [] => self.crash .unfinished
  | some listenCmd, vret :: rest =>
      if vret ≠ 0 then
        .ok ⟨self, [listenCmd], vret⟩
      else
        match self.listenCmds listenCmd with
        | none => self.crash .dangling
        | some cmd =>
            (visitListed { self with listenCommands := cmd.next } cmd.next rest).map
              (Traversal.after listenCmd)

/-- `event_loop_tp_traverse`. -/
def visitAll (self : EventLoop) (onError : Option Addr) (visits : List Int) :
    Except Crash Traversal :=
  match onError, visits with
  | none, _ => self.visitListed self.listenCommands visits
  | some _, [] => self.crash .unfinished
  | some onError, vret :: rest =>
      if vret ≠ 0 then
        .ok ⟨self, [onError], vret⟩
      else
        (self.visitListed self.listenCommands rest).map (Traversal.after onError)

/-- What the traversal does to the loop is what it does without a record. -/
private theorem visitListed_traverseListed (visits : List Int) :
    ∀ {self : EventLoop} {head : Option Addr},
    (self.visitListed head visits).map Traversal.eventLoop =
      self.traverseListed head (visits.map fun vret => decide (vret ≠ 0)) := by
  induction visits with
  | nil =>
      intro self head
      cases head with
      | none | some => rfl
  | cons vret rest ih =>
      intro self head
      cases head with
      | none => rfl
      | some listenCmd =>
          rw [visitListed, List.map_cons, traverseListed]
          by_cases stops : vret ≠ 0
          · rw [if_pos stops, if_pos (decide_eq_true stops)]
            rfl
          · rw [if_neg stops, if_neg (by simpa using stops)]
            cases self.listenCmds listenCmd with
            | none => rfl
            | some cmd =>
                simp only
                rw [← ih]
                cases visitListed { self with listenCommands := cmd.next } cmd.next rest with
                | error | ok => rfl

theorem visitAll_tpTraverse {self : EventLoop} (onError : Addr) (vret : Int) (visits : List Int) :
    (self.visitAll none visits).map Traversal.eventLoop =
        self.tpTraverse false (visits.map fun vret => decide (vret ≠ 0)) ∧
      (self.visitAll (some onError) (vret :: visits)).map Traversal.eventLoop =
        self.tpTraverse (decide (vret ≠ 0)) (visits.map fun vret => decide (vret ≠ 0)) := by
  have listed := @visitListed_traverseListed visits self self.listenCommands
  refine ⟨listed, ?_⟩
  rw [visitAll, tpTraverse]
  by_cases stops : vret ≠ 0
  · rw [if_pos stops, if_pos (decide_eq_true stops)]
    rfl
  · rw [if_neg stops, if_neg (by simpa using stops), ← listed]
    cases self.visitListed self.listenCommands visits with
    | error | ok => rfl

/-- A traversal that is not stopped at the first command leaves another head. -/
structure VisitsListed (start : EventLoop) (addrs : List Addr) (visits : List Int)
    (traversal : Traversal) : Prop where
  changed : ∃ head, traversal.eventLoop = { start with listenCommands := head } ∧
    ∀ addr, head = some addr → addr ∈ addrs
  visited : (∀ vret ∈ visits, vret = 0) → traversal.visited = addrs
  unchanged : traversal.eventLoop = start ↔ addrs = [] ∨ ∃ vret ∈ visits.head?, vret ≠ 0

private theorem visitListed_visits (addrs : List Addr) : ∀ {self : EventLoop} {visits : List Int},
    Chain self.listenLinks self.listenCommands addrs → addrs.length ≤ visits.length →
    ∃ traversal, self.visitListed self.listenCommands visits = .ok traversal ∧
      self.VisitsListed addrs visits traversal := by
  induction addrs with
  | nil =>
      intro self visits chain _
      have head : self.listenCommands = none := chain
      refine ⟨⟨self, [], 0⟩, by rw [head, visitListed], ⟨none, by rw [← head], by simp⟩, ?_, ?_⟩
      · exact fun _ => rfl
      · exact iff_of_true rfl (.inl rfl)
  | cons addr addrs ih =>
      intro self visits chain enough
      have absent := (List.nodup_cons.mp chain.nodup).1
      obtain ⟨head, link, linked, later⟩ := chain
      obtain ⟨cmd, found, rfl⟩ := Option.map_eq_some_iff.mp linked
      cases visits with
      | nil => simp at enough
      | cons vret rest =>
          rw [head, visitListed]
          by_cases stops : vret ≠ 0
          · rw [if_pos stops]
            refine ⟨_, rfl, ⟨some addr, by rw [← head], by simp⟩, ?_, ?_⟩
            · exact fun zeros => absurd (zeros vret List.mem_cons_self) stops
            · exact iff_of_true rfl (.inr ⟨vret, rfl, stops⟩)
          · obtain ⟨traversal, done, visits⟩ := @ih { self with listenCommands := cmd.next } rest
              later (Nat.le_of_succ_le_succ enough)
            obtain ⟨last, same, within⟩ := visits.changed
            rw [if_neg stops, found]
            simp only [done]
            refine ⟨traversal.after addr, rfl, ⟨last, same, ?_⟩, ?_, ?_⟩
            · exact fun node end_ => List.mem_cons_of_mem _ (within node end_)
            · intro zeros
              have rest := visits.visited (List.forall_mem_cons.mp zeros).2
              exact congrArg (addr :: ·) rest
            · refine iff_of_false (fun unchanged => ?_) (by simpa using stops)
              have heads := congrArg EventLoop.listenCommands (same.symm.trans unchanged)
              exact absent (within addr (heads.trans head))

/-- The traversal is an observation: it sees every reference once and leaves the
loop as it was, for the next traversal and for the break. -/
structure Observes (start : EventLoop) (onError : Option Addr) (addrs : List Addr)
    (visits : List Int) (traversal : Traversal) : Prop where
  visited : (∀ vret ∈ visits, vret = 0) → traversal.visited = onError.toList ++ addrs
  once : addrs.Nodup
  unchanged : traversal.eventLoop = start
  repeated : ∀ again, traversal.eventLoop.visitAll onError again = start.visitAll onError again
  breaks : ∀ drops, traversal.eventLoop.breakCmds drops = start.breakCmds drops

theorem Observes.of_unchanged {start : EventLoop} {onError : Option Addr} {addrs : List Addr}
    {visits : List Int} {traversal : Traversal} (once : addrs.Nodup)
    (visited : (∀ vret ∈ visits, vret = 0) → traversal.visited = onError.toList ++ addrs)
    (unchanged : traversal.eventLoop = start) :
    start.Observes onError addrs visits traversal where
  visited := visited
  once := once
  unchanged := unchanged
  repeated := by simp [unchanged]
  breaks := by simp [unchanged]

/-- Whether a traversal observes is whether it leaves the loop as it was. -/
private theorem observes_iff_unchanged {start : EventLoop} {onError : Option Addr}
    {addrs : List Addr} {visits : List Int} {traversal : Traversal} (once : addrs.Nodup)
    (done : start.visitAll onError visits = .ok traversal)
    (visited : (∀ vret ∈ visits, vret = 0) → traversal.visited = onError.toList ++ addrs) :
    (∃ traversal, start.visitAll onError visits = .ok traversal ∧
        start.Observes onError addrs visits traversal) ↔ traversal.eventLoop = start := by
  constructor
  · intro observes
    obtain ⟨same, doneSame, observes⟩ := observes
    cases doneSame.symm.trans done
    exact observes.unchanged
  · intro unchanged
    exact ⟨traversal, done, .of_unchanged once visited unchanged⟩

theorem visitAll_observes_iff (eventLoop : EventLoop) (onError : Option Addr) (addrs : List Addr)
    (visits : List Int) (chain : Chain eventLoop.listenLinks eventLoop.listenCommands addrs)
    (enough : onError.toList.length + addrs.length ≤ visits.length) :
    (∃ traversal, eventLoop.visitAll onError visits = .ok traversal ∧
        eventLoop.Observes onError addrs visits traversal) ↔
      addrs = [] ∨ ∃ vret ∈ visits.take (onError.toList.length + 1), vret ≠ 0 := by
  cases onError with
  | none =>
      obtain ⟨traversal, done, listed⟩ := visitListed_visits addrs chain (by simpa using enough)
      have first : (∃ vret ∈ visits.head?, vret ≠ 0) ↔ ∃ vret ∈ visits.take 1, vret ≠ 0 := by
        cases visits with
        | nil | cons => simp
      rw [Option.toList_none, List.length_nil, Nat.zero_add, ← first, ← listed.unchanged]
      exact observes_iff_unchanged chain.nodup done listed.visited
  | some object =>
      cases visits with
      | nil => simp at enough
      | cons vret rest =>
          by_cases stops : vret ≠ 0
          · apply iff_of_true
            · refine ⟨⟨eventLoop, [object], vret⟩, if_pos stops, .of_unchanged chain.nodup ?_ rfl⟩
              exact fun zeros => absurd (zeros vret List.mem_cons_self) stops
            · exact .inr ⟨vret, by simp, stops⟩
          · have zero : vret = 0 := by simpa using stops
            obtain ⟨traversal, done, listed⟩ := @visitListed_visits addrs _ rest chain
              (by simpa [Nat.add_comm 1] using enough)
            have whole : eventLoop.visitAll (some object) (vret :: rest) =
                .ok (traversal.after object) := by
              rw [visitAll, if_neg stops, done]
              rfl
            have first : (∃ vret ∈ rest.head?, vret ≠ 0) ↔
                ∃ other ∈ (vret :: rest).take ((some object).toList.length + 1), other ≠ 0 := by
              cases rest with
              | nil | cons => simp [zero]
            rw [← first, ← listed.unchanged]
            apply observes_iff_unchanged chain.nodup whole
            intro zeros
            exact congrArg (object :: ·) (listed.visited (List.forall_mem_cons.mp zeros).2)

/-- The visitor stops at the first of two commands. -/
theorem visitAll_observes_stopped :
    ∃ traversal, listingTwo.visitAll (some 8) [0, 1, 0] = .ok traversal ∧
      listingTwo.Observes (some 8) [6, 5] [0, 1, 0] traversal :=
  (visitAll_observes_iff listingTwo (some 8) [6, 5] [0, 1, 0]
    ⟨rfl, some 5, rfl, rfl, none, rfl, rfl⟩
    (by decide)).mpr (.inr ⟨1, by decide, by decide⟩)

/-- One traversal without a stop loses the list: the next one does not see the
command, and the break does not close it. -/
theorem not_observes_first_traversal :
    ¬ ∃ traversal, listingOne.visitAll none [0] = .ok traversal ∧
      listingOne.Observes none [5] [0] traversal := by
  intro observes
  obtain ⟨traversal, done, observes⟩ := observes
  cases done
  have again := observes.breaks [.held]
  exact absurd again (by decide)

end EventLoop

end Striga.Pyglev
