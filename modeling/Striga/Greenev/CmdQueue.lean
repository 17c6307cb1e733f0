import Striga.Libev
import Striga.Lib.Ring

/-! `watcher_cmd_q` of `greenev/cmdq_ev.c`: a bounded command queue that wakes
its consumer through a libev async watcher. -/

set_option autoImplicit false

namespace Striga.Greenev

open Lib

/-- `struct cmd`; the argument is a pointer that the queue never follows. -/
structure Cmd (Arg : Type) where
  id : Int
  arg : Arg
  deriving DecidableEq, Repr

/-- `struct watcher_cmd_q`. The callback, its argument and the loop are fixed
by the owner and passed where they are used; the mutex is the atomicity of the
critical sections below. -/
structure WatcherCmdQ (Arg : Type) where
  qSize : UInt32
  qHead : UInt32
  qTail : UInt32
  qWatcher : EvAsync
  q : Nat → Cmd Arg

namespace WatcherCmdQ

variable {Arg : Type}

/-- `watcher_cmd_q_new`; the cells of the allocated block are uninitialised. -/
def new (size : UInt32) (block : Nat → Cmd Arg) : WatcherCmdQ Arg where
  qSize := size
  qHead := 0
  qTail := 0
  qWatcher := EvAsync.init
  q := block

def start (loop : EvLoop) (queue : WatcherCmdQ Arg) : EvLoop × WatcherCmdQ Arg :=
  let (loop, watcher) := queue.qWatcher.start loop
  (loop.unref, { queue with qWatcher := watcher })

def stop (loop : EvLoop) (queue : WatcherCmdQ Arg) : EvLoop × WatcherCmdQ Arg :=
  let (loop, watcher) := queue.qWatcher.stop loop
  (loop, { queue with qWatcher := watcher })

/-- The critical section of `watcher_cmd_q_put`. -/
def enqueue (queue : WatcherCmdQ Arg) (cmd : Cmd Arg) : Bool × WatcherCmdQ Arg :=
  let qPos := queue.qHead
  let qHead := queue.qHead + 1
  let qHead := if qHead = queue.qSize then 0 else qHead
  if qHead = queue.qTail then
    (false, { queue with qHead := qPos })
  else
    (true, { queue with qHead := qHead, q := Function.update queue.q qPos.toNat cmd })

/-- The `ev_async_send` of `watcher_cmd_q_put`, after the mutex is released. -/
def send (queue : WatcherCmdQ Arg) : WatcherCmdQ Arg :=
  { queue with qWatcher := queue.qWatcher.send }

def put (queue : WatcherCmdQ Arg) (cmd : Cmd Arg) : Bool × WatcherCmdQ Arg :=
  let (accepted, queue) := queue.enqueue cmd
  if accepted then (true, queue.send) else (false, queue)

/-- The critical section of one iteration of `_on_watcher_cmd_q_async`; without
a command the loop ends. -/
def take (queue : WatcherCmdQ Arg) : Option (Cmd Arg) × WatcherCmdQ Arg :=
  if queue.qHead = queue.qTail then
    (none, queue)
  else
    let cmd := queue.q queue.qTail.toNat
    let qTail := queue.qTail + 1
    let qTail := if qTail = queue.qSize then 0 else qTail
    (some cmd, { queue with qTail := qTail })

/-- Both indices are below the size. -/
def WellFormed (queue : WatcherCmdQ Arg) : Prop :=
  Ring.Machine.Bounded queue.qSize queue.qHead queue.qTail

def pending (queue : WatcherCmdQ Arg) : List (Cmd Arg) :=
  Ring.Machine.contents queue.qSize queue.qHead queue.qTail queue.q

theorem new_wellFormed {size : UInt32} (positive : 0 < size) (block : Nat → Cmd Arg) :
    (new size block).WellFormed :=
  ⟨positive, positive⟩

@[simp] theorem new_pending (size : UInt32) (block : Nat → Cmd Arg) :
    (new size block).pending = [] := rfl

@[simp] theorem enqueue_qWatcher (queue : WatcherCmdQ Arg) (cmd : Cmd Arg) :
    (queue.enqueue cmd).2.qWatcher = queue.qWatcher := by
  unfold enqueue
  dsimp only
  split <;> split <;> rfl

@[simp] theorem enqueue_qSize (queue : WatcherCmdQ Arg) (cmd : Cmd Arg) :
    (queue.enqueue cmd).2.qSize = queue.qSize := by
  unfold enqueue
  dsimp only
  split <;> split <;> rfl

@[simp] theorem take_qWatcher (queue : WatcherCmdQ Arg) :
    queue.take.2.qWatcher = queue.qWatcher := by
  unfold take
  dsimp only
  split <;> rfl

/-- What the critical section of a put does: it refuses and changes nothing
when all cells but one are in use, and appends otherwise. -/
theorem WellFormed.enqueue_cases {queue : WatcherCmdQ Arg} (valid : queue.WellFormed)
    (cmd : Cmd Arg) :
    (queue.pending.length = queue.qSize.toNat - 1 ∧ queue.enqueue cmd = (false, queue)) ∨
      (queue.pending.length < queue.qSize.toNat - 1 ∧
        ∃ after, queue.enqueue cmd = (true, after) ∧ after.WellFormed ∧
          after.pending = queue.pending ++ [cmd] ∧ after.qSize = queue.qSize ∧
          after.qTail = queue.qTail ∧ after.qWatcher = queue.qWatcher) := by
  have used : queue.pending.length < queue.qSize.toNat := valid.length_lt
  by_cases full : Ring.Machine.next queue.qSize queue.qHead = queue.qTail
  · exact .inl ⟨valid.full_iff.mp full, if_pos full⟩
  · have differs : queue.pending.length ≠ queue.qSize.toNat - 1 :=
      (not_congr valid.full_iff).mp full
    obtain ⟨kept, appended⟩ := valid.push full cmd
    exact .inr ⟨by omega, _, if_neg full, kept, appended, rfl, rfl, rfl⟩

theorem WellFormed.enqueue_pending {queue : WatcherCmdQ Arg} (valid : queue.WellFormed)
    (cmd : Cmd Arg) :
    (queue.enqueue cmd).2.WellFormed ∧
      ((queue.enqueue cmd).2.pending = queue.pending ∨
        (queue.enqueue cmd).2.pending = queue.pending ++ [cmd]) := by
  rcases valid.enqueue_cases cmd with ⟨_, refused⟩ | ⟨_, after, accepted, kept, appended, _⟩
  · rw [refused]
    exact ⟨valid, .inl rfl⟩
  · rw [accepted]
    exact ⟨kept, .inr appended⟩

theorem WellFormed.put_refused_iff {queue : WatcherCmdQ Arg} (valid : queue.WellFormed)
    {cmd : Cmd Arg} :
    (queue.put cmd).1 = false ↔ queue.pending.length = queue.qSize.toNat - 1 := by
  rcases valid.enqueue_cases cmd with ⟨full, refused⟩ | ⟨room, after, accepted, _⟩
  · simp [put, refused, full]
  · simp only [put, accepted, if_true, Bool.true_eq_false, false_iff]
    omega

theorem WellFormed.put_refused {queue : WatcherCmdQ Arg} (valid : queue.WellFormed)
    {cmd : Cmd Arg} (refused : (queue.put cmd).1 = false) : (queue.put cmd).2 = queue := by
  rcases valid.enqueue_cases cmd with ⟨_, unchanged⟩ | ⟨_, after, accepted, _⟩
  · simp [put, unchanged]
  · simp [put, accepted] at refused

/-- How many more commands are accepted before one is refused. -/
def room (queue : WatcherCmdQ Arg) : Nat := queue.qSize.toNat - 1 - queue.pending.length

theorem WellFormed.put_pending {queue : WatcherCmdQ Arg} (valid : queue.WellFormed)
    (cmd : Cmd Arg) :
    (queue.put cmd).2.WellFormed ∧
      (queue.put cmd).2.pending = queue.pending ++ [cmd].take queue.room ∧
      (queue.put cmd).2.room = queue.room - 1 := by
  rcases valid.enqueue_cases cmd with ⟨full, refused⟩ |
    ⟨free, after, accepted, kept, appended, size, _⟩
  · have none : queue.room = 0 := by
      unfold room
      omega
    have same : (queue.put cmd).2 = queue := by simp [put, refused]
    rw [same, none]
    exact ⟨valid, by simp, rfl⟩
  · have same : (queue.put cmd).2 = after.send := by simp [put, accepted]
    have left : queue.room = (queue.room - 1) + 1 := by
      unfold room
      omega
    rw [same]
    refine ⟨kept, ?_, ?_⟩
    · rw [left, List.take_succ_cons, List.take_nil]
      exact appended
    · change after.qSize.toNat - 1 - after.pending.length = _
      rw [appended, size, List.length_append, List.length_singleton, room]
      omega

/-- Of commands put one after the other, as many are accepted as there is room for. -/
theorem WellFormed.puts_pending (cmds : List (Cmd Arg)) :
    ∀ {queue : WatcherCmdQ Arg}, queue.WellFormed →
      (cmds.foldl (fun queue cmd => (queue.put cmd).2) queue).pending =
        queue.pending ++ cmds.take queue.room := by
  induction cmds with
  | nil =>
      intro queue _
      simp
  | cons cmd cmds ih =>
      intro queue valid
      obtain ⟨kept, appended, left⟩ := valid.put_pending cmd
      rw [List.foldl_cons, ih kept, appended, left, List.append_assoc]
      cases queue.room with
      | zero => simp
      | succ room => simp

/-- What the critical section of a drain iteration does: it finds nothing and
changes nothing exactly when nothing is pending, and removes the oldest command
otherwise. -/
theorem WellFormed.take_cases {queue : WatcherCmdQ Arg} (valid : queue.WellFormed) :
    (queue.pending = [] ∧ queue.take = (none, queue)) ∨
      ∃ cmd after, queue.take = (some cmd, after) ∧ after.WellFormed ∧
        queue.pending = cmd :: after.pending ∧ after.qSize = queue.qSize ∧
        after.qWatcher = queue.qWatcher := by
  by_cases idle : queue.qHead = queue.qTail
  · exact .inl ⟨valid.empty_iff.mp idle, if_pos idle⟩
  · obtain ⟨kept, shape⟩ := valid.pop idle
    exact .inr ⟨_, _, if_neg idle, kept, shape, rfl, rfl⟩

/-- The queue stands for an abstract one of one command less than its size. -/
def Represents (queue : WatcherCmdQ Arg) (fifo : BoundedFifo (Cmd Arg)) : Prop :=
  Ring.Machine.Represents queue.qSize queue.qHead queue.qTail queue.q fifo

theorem Represents.wellFormed {queue : WatcherCmdQ Arg} {fifo : BoundedFifo (Cmd Arg)}
    (stands : queue.Represents fifo) : queue.WellFormed := stands.bounded

theorem Represents.items_eq {queue : WatcherCmdQ Arg} {fifo : BoundedFifo (Cmd Arg)}
    (stands : queue.Represents fifo) : fifo.items = queue.pending := stands.items

theorem Represents.enqueue {queue : WatcherCmdQ Arg} {fifo : BoundedFifo (Cmd Arg)}
    (stands : queue.Represents fifo) (cmd : Cmd Arg) :
    (queue.enqueue cmd).1 = (fifo.offer cmd).1 ∧
      (queue.enqueue cmd).2.Represents (fifo.offer cmd).2 := by
  by_cases full : Ring.Machine.next queue.qSize queue.qHead = queue.qTail
  · have refused : queue.enqueue cmd = (false, queue) := if_pos full
    obtain ⟨result, same⟩ := stands.offer_full cmd full
    rw [refused, same]
    exact ⟨result.symm, stands⟩
  · have accepted : queue.enqueue cmd = (true, { queue with
        qHead := Ring.Machine.next queue.qSize queue.qHead
        q := Function.update queue.q queue.qHead.toNat cmd }) := if_neg full
    obtain ⟨result, appended⟩ := stands.offer cmd full
    rw [accepted]
    exact ⟨result.symm, appended⟩

theorem Represents.take {queue : WatcherCmdQ Arg} {fifo : BoundedFifo (Cmd Arg)}
    (stands : queue.Represents fifo) :
    queue.take.1 = fifo.poll.1 ∧ queue.take.2.Represents fifo.poll.2 := by
  by_cases idle : queue.qHead = queue.qTail
  · have nothing : queue.take = (none, queue) := if_pos idle
    rw [nothing, stands.poll_empty idle]
    exact ⟨rfl, stands⟩
  · have removed : queue.take = (some (queue.q queue.qTail.toNat), { queue with
        qTail := Ring.Machine.next queue.qSize queue.qTail }) := if_neg idle
    obtain ⟨result, rest⟩ := stands.poll idle
    rw [removed]
    exact ⟨result.symm, rest⟩

theorem Represents.rewatch {queue : WatcherCmdQ Arg} {fifo : BoundedFifo (Cmd Arg)}
    (stands : queue.Represents fifo) (watcher : EvAsync) :
    ({ queue with qWatcher := watcher } : WatcherCmdQ Arg).Represents fifo := stands

end WatcherCmdQ

end Striga.Greenev
