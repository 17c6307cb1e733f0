import Striga.Lib.Transition
import Mathlib.Data.List.Basic

/-! The bounded first-in-first-out queue, and the system that offers items to
one and polls it while recording what was accepted and what was removed. -/

set_option autoImplicit false

namespace Striga.Lib

/-- A first-in-first-out queue that never holds more than its capacity. -/
structure BoundedFifo (α : Type) where
  capacity : Nat
  items : List α
  bounded : items.length ≤ capacity

namespace BoundedFifo

variable {α : Type}

def empty (capacity : Nat) : BoundedFifo α where
  capacity
  items := []
  bounded := Nat.zero_le capacity

def offer (queue : BoundedFifo α) (item : α) : Bool × BoundedFifo α :=
  if room : queue.items.length < queue.capacity then
    (true, { queue with
      items := queue.items ++ [item]
      bounded := by
        rw [List.length_append, List.length_singleton]
        exact room })
  else (false, queue)

def poll (queue : BoundedFifo α) : Option α × BoundedFifo α :=
  match shape : queue.items with
  | [] => (none, queue)
  | item :: rest =>
      (some item, { queue with
        items := rest
        bounded := by
          have bounded := queue.bounded
          rw [shape, List.length_cons] at bounded
          omega })

theorem offer_accepted_iff {queue : BoundedFifo α} {item : α} :
    (queue.offer item).1 = true ↔ queue.items.length < queue.capacity := by
  unfold offer
  split <;> simp_all

theorem offer_refused_iff {queue : BoundedFifo α} {item : α} :
    (queue.offer item).1 = false ↔ queue.items.length = queue.capacity := by
  have bounded := queue.bounded
  unfold offer
  split <;> simp <;> omega

theorem offer_refused {queue : BoundedFifo α} {item : α}
    (refused : (queue.offer item).1 = false) : (queue.offer item).2 = queue := by
  unfold offer at refused ⊢
  split at refused
  · cases refused
  · rw [dif_neg ‹_›]

theorem offer_items {queue : BoundedFifo α} {item : α} :
    (queue.offer item).2.items =
      queue.items ++ (if (queue.offer item).1 then [item] else []) := by
  unfold offer
  split <;> simp

@[simp] theorem offer_capacity {queue : BoundedFifo α} {item : α} :
    (queue.offer item).2.capacity = queue.capacity := by
  unfold offer
  split <;> rfl

theorem poll_items {queue : BoundedFifo α} :
    queue.items = queue.poll.1.toList ++ queue.poll.2.items := by
  unfold poll
  split <;> simp_all

theorem poll_empty {queue : BoundedFifo α} (empty : queue.items = []) :
    queue.poll = (none, queue) := by
  unfold poll
  split <;> simp_all

theorem poll_cons {queue : BoundedFifo α} {item : α} {rest : List α}
    (shape : queue.items = item :: rest) :
    queue.poll.1 = some item ∧ queue.poll.2.items = rest := by
  unfold poll
  split <;> simp_all

@[simp] theorem poll_capacity {queue : BoundedFifo α} :
    queue.poll.2.capacity = queue.capacity := by
  unfold poll
  split <;> rfl

end BoundedFifo

structure History (α : Type) where
  queue : BoundedFifo α
  accepted : List α
  removed : List α

namespace History

variable {α : Type}

inductive Move (α : Type) where
  | offer (item : α)
  | poll

def move (history : History α) : Move α → History α
  | .offer item =>
      { history with
        queue := (history.queue.offer item).2
        accepted := history.accepted ++ (if (history.queue.offer item).1 then [item] else []) }
  | .poll =>
      { history with
        queue := history.queue.poll.2
        removed := history.removed ++ history.queue.poll.1.toList }

/-- Any number of parties offering to and polling one queue, in any order. -/
def system (α : Type) (capacity : Nat) : System (History α) (Move α) where
  initial history := history = ⟨BoundedFifo.empty capacity, [], []⟩
  step history move next := next = history.move move

variable {capacity : Nat} {history : History α}

/-- Nothing is lost, duplicated or reordered: what was accepted is what was
removed followed by what is still queued. -/
theorem accepted_eq (reachable : (system α capacity).Reachable history) :
    history.accepted = history.removed ++ history.queue.items := by
  refine reachable.invariant
    (fun history => history.accepted = history.removed ++ history.queue.items) ?_ ?_
  · intro start starts
    subst starts
    rfl
  · intro history move next same taken
    subst taken
    cases move with
    | offer item =>
        simp only [History.move, BoundedFifo.offer_items, same, List.append_assoc]
    | poll =>
        simp only [History.move, List.append_assoc, ← BoundedFifo.poll_items, same]

theorem capacity_eq (reachable : (system α capacity).Reachable history) :
    history.queue.capacity = capacity := by
  refine reachable.invariant (fun history => history.queue.capacity = capacity) ?_ ?_
  · intro start starts
    subst starts
    rfl
  · intro history move next same taken
    subst taken
    cases move <;> simpa [History.move] using same

end History

end Striga.Lib
