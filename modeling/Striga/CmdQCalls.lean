import Striga.CmdQ
import Mathlib.Algebra.Group.Nat.Defs

/-! Sequences of calls on one `cmd_q`, with the record of what `cmd_q_put`
accepted and what `cmd_q_get` handed out. -/

set_option autoImplicit false

namespace Striga.CmdQ

open Lib

variable {Subject : Type}

theorem WellFormed.toInt_count {size head tail : UInt32}
    (bounded : Ring.Machine.Bounded size head tail) (small : size.toNat ≤ 2 ^ 31)
    (cells : Nat → SubjectCmd Subject) :
    (Ring.Machine.count size head tail).toInt32.toInt =
      (Ring.Machine.contents size head tail cells).length := by
  have counted : _ = (Ring.Machine.contents size head tail cells).length := bounded.toNat_count
  have used : (Ring.Machine.contents size head tail cells).length < _ := bounded.length_lt
  rw [← counted] at used ⊢
  have nonnegative : 2 * (Ring.Machine.count size head tail).toBitVec.toNat < 2 ^ 32 := by
    rw [UInt32.toNat_toBitVec]
    omega
  exact BitVec.toInt_eq_toNat_of_lt nonnegative

/-- What `cmd_q_get` does: it reports -1 and changes nothing when nothing is
pending, and otherwise hands out the oldest command and reports how many are
still pending. -/
theorem WellFormed.get_cases {this : CmdQ Subject} (valid : this.WellFormed)
    (small : this.size.toNat ≤ 2 ^ 31) :
    (this.pending = [] ∧ this.get = (-1, none, this)) ∨
      ∃ remaining outCmd after, this.get = (remaining, some outCmd, after) ∧
        this.pending = outCmd :: after.pending ∧ remaining.toInt = after.pending.length := by
  by_cases idle : this.head = this.tail
  · exact .inl ⟨valid.empty_iff.mp idle, if_pos idle⟩
  · obtain ⟨kept, shape⟩ := valid.pop idle
    exact .inr ⟨_, _, _, if_neg idle, shape, WellFormed.toInt_count kept small _⟩

theorem WellFormed.enqueue_cases {this : CmdQ Subject} (valid : this.WellFormed)
    (newCmd : SubjectCmd Subject) :
    (this.pending.length = this.size.toNat - 1 ∧ this.enqueue newCmd = (false, this)) ∨
      (this.pending.length ≠ this.size.toNat - 1 ∧
        ∃ after, this.enqueue newCmd = (true, after)) := by
  by_cases full : Ring.Machine.next this.size this.head = this.tail
  · exact .inl ⟨valid.full_iff.mp full, if_pos full⟩
  · exact .inr ⟨(not_congr valid.full_iff).mp full, _, if_neg full⟩

theorem WellFormed.pending_enqueue {this after : CmdQ Subject} (valid : this.WellFormed)
    {newCmd : SubjectCmd Subject} (accepted : this.enqueue newCmd = (true, after)) :
    after.pending = this.pending ++ [newCmd] := by
  by_cases full : Ring.Machine.next this.size this.head = this.tail
  · cases (show this.enqueue newCmd = (false, this) from if_pos full).symm.trans accepted
  · cases (show this.enqueue newCmd = (true, _) from if_neg full).symm.trans accepted
    exact (Ring.Machine.Bounded.push valid full newCmd).2

@[simp] theorem watcher_enqueue (this : CmdQ Subject) (newCmd : SubjectCmd Subject) :
    (this.enqueue newCmd).2.watcher = this.watcher := by
  by_cases full : Ring.Machine.next this.size this.head = this.tail
  · rw [show this.enqueue newCmd = (false, this) from if_pos full]
  · rw [show this.enqueue newCmd = (true, _) from if_neg full]

/-- The critical sections do not look at the watcher. -/
theorem enqueue_rewatch (this : CmdQ Subject) (watcher : EvAsync) (newCmd : SubjectCmd Subject) :
    ({ this with watcher := watcher } : CmdQ Subject).enqueue newCmd =
      ((this.enqueue newCmd).1, { (this.enqueue newCmd).2 with watcher := watcher }) := by
  by_cases full : Ring.Machine.next this.size this.head = this.tail
  · rw [show this.enqueue newCmd = (false, this) from if_pos full]
    exact if_pos full
  · rw [show this.enqueue newCmd = (true, _) from if_neg full]
    exact if_neg full

theorem get_rewatch (this : CmdQ Subject) (watcher : EvAsync) :
    ({ this with watcher := watcher } : CmdQ Subject).get =
      (this.get.1, this.get.2.1, { this.get.2.2 with watcher := watcher }) := by
  by_cases idle : this.head = this.tail
  · rw [show this.get = (-1, none, this) from if_pos idle]
    exact if_pos idle
  · rw [show this.get = (_, some _, _) from if_neg idle]
    exact if_neg idle

@[simp] theorem watcher_get (this : CmdQ Subject) : this.get.2.2.watcher = this.watcher := by
  unfold get
  split
  · rfl
  · rfl

theorem put_result (this : CmdQ Subject) (newCmd : SubjectCmd Subject) :
    (this.put newCmd).1 = (this.watcher.active && (this.enqueue newCmd).1) := by
  unfold put
  cases this.watcher.active with
  | false => rfl
  | true =>
      rcases this.enqueue newCmd with ⟨accepted, after⟩
      cases accepted <;> rfl

theorem put_this (this : CmdQ Subject) (newCmd : SubjectCmd Subject) :
    (this.put newCmd).2 =
      if this.watcher.active then
        if (this.enqueue newCmd).1 then (this.enqueue newCmd).2.send else (this.enqueue newCmd).2
      else this := by
  unfold put
  cases this.watcher.active with
  | false => rfl
  | true =>
      rcases this.enqueue newCmd with ⟨accepted, after⟩
      cases accepted <;> rfl

theorem WellFormed.put_refused_iff {this : CmdQ Subject} (valid : this.WellFormed)
    {newCmd : SubjectCmd Subject} :
    (this.put newCmd).1 = false ↔
      this.watcher.active = false ∨ this.pending.length = this.size.toNat - 1 := by
  rw [put_result]
  rcases valid.enqueue_cases newCmd with ⟨full, refused⟩ | ⟨room, after, accepted⟩
  · simp [refused, full]
  · simp [accepted, room]

theorem WellFormed.put_refused {this : CmdQ Subject} (valid : this.WellFormed)
    {newCmd : SubjectCmd Subject} (refused : (this.put newCmd).1 = false) :
    (this.put newCmd).2 = this := by
  rw [put_result] at refused
  rw [put_this]
  rcases valid.enqueue_cases newCmd with ⟨_, unchanged⟩ | ⟨_, after, accepted⟩
  · simp [unchanged]
  · simp [accepted] at refused
    simp [refused]

structure Calls (Subject : Type) where
  loop : EvLoop
  this : CmdQ Subject
  accepted : List (SubjectCmd Subject)
  got : List (SubjectCmd Subject)

inductive Call (Subject : Type) where
  | start
  | stop
  | put (newCmd : SubjectCmd Subject)
  | get

def Calls.perform (calls : Calls Subject) : Call Subject → Calls Subject
  | .start =>
      { calls with
        loop := (calls.this.start calls.loop).1
        this := (calls.this.start calls.loop).2 }
  | .stop =>
      { calls with
        loop := (calls.this.stop calls.loop).1
        this := (calls.this.stop calls.loop).2 }
  | .put newCmd =>
      { calls with
        this := (calls.this.put newCmd).2
        accepted := calls.accepted ++ (if (calls.this.put newCmd).1 then [newCmd] else []) }
  | .get =>
      { calls with
        this := calls.this.get.2.2
        got := calls.got ++ calls.this.get.2.1.toList }

def Calls.fresh (loop : EvLoop) (size : UInt32) (block : Nat → SubjectCmd Subject) :
    Calls Subject :=
  ⟨loop, .new size block, [], []⟩

/-- Any sequence of calls on a queue built by `cmd_q_new`. -/
def system (Subject : Type) (size : UInt32) : System (Calls Subject) (Call Subject) where
  initial calls := ∃ loop block, calls = .fresh loop size block
  step calls call next := next = calls.perform call

structure Matches (calls : Calls Subject) (history : History (SubjectCmd Subject)) : Prop where
  queue : calls.this.Represents history.queue
  accepted : history.accepted = calls.accepted
  removed : history.removed = calls.got

variable {size : UInt32}

theorem Matches.perform {calls : Calls Subject} {history : History (SubjectCmd Subject)}
    (same : Matches calls history) (call : Call Subject) :
    Matches (calls.perform call) history ∨
      ∃ move, Matches (calls.perform call) (history.move move) := by
  cases call with
  | start | stop => exact .inl ⟨same.queue, same.accepted, same.removed⟩
  | get =>
      obtain ⟨result, represents⟩ := same.queue.get
      refine .inr ⟨.poll, represents, same.accepted, ?_⟩
      simp [History.move, Calls.perform, same.removed, result]
  | put newCmd =>
      obtain ⟨result, represents⟩ := same.queue.enqueue newCmd
      cases active : calls.this.watcher.active with
      | false =>
          have refused : calls.this.put newCmd = (false, calls.this) := by simp [put, active]
          refine .inl ⟨?_, ?_, same.removed⟩
          · simpa only [Calls.perform, refused] using same.queue
          · simpa [Calls.perform, refused] using same.accepted
      | true =>
          refine .inr ⟨.offer newCmd, ?_, ?_, same.removed⟩
          · simp only [Calls.perform, put_this, active, if_true, History.move]
            split
            · exact represents
            · exact represents
          · simp [History.move, Calls.perform, put_result, active, ← result, same.accepted]

theorem refines_history (positive : 0 < size) {calls : Calls Subject}
    (reachable : (system Subject size).Reachable calls) :
    ∃ history, (History.system (SubjectCmd Subject) (size.toNat - 1)).Reachable history ∧
      Matches calls history := by
  refine reachable.simulation Matches ?_ ?_
  · intro calls starts
    obtain ⟨loop, block, rfl⟩ := starts
    exact ⟨_, rfl, Ring.Machine.Represents.empty positive, rfl, rfl⟩
  · intro calls call next history same taken
    obtain rfl : next = calls.perform call := taken
    rcases same.perform call with kept | ⟨move, moved⟩
    · exact .inl kept
    · exact .inr ⟨move, _, rfl, moved⟩

/-- The queue hands out the accepted commands in the order of acceptance, each
once, and reports how many are left; it refuses only while its watcher is
inactive or all its cells but one are in use. -/
structure ExactCountingFifo (size : UInt32) (calls : Calls Subject) : Prop where
  got_leading : calls.got <+: calls.accepted
  accepted_eq : calls.accepted = calls.got ++ calls.this.pending
  get_empty_iff : calls.this.get.1 = -1 ↔ calls.this.pending = []
  get_empty : calls.this.get.1 = -1 → calls.this.get.2 = (none, calls.this)
  get_some : calls.this.pending ≠ [] →
    ∃ outCmd, calls.this.get.2.1 = some outCmd ∧
      calls.this.pending = outCmd :: calls.this.get.2.2.pending ∧
      calls.this.get.1.toInt = calls.this.get.2.2.pending.length
  put_refused_iff : ∀ newCmd, (calls.this.put newCmd).1 = false ↔
    calls.this.watcher.active = false ∨ calls.this.pending.length = size.toNat - 1
  put_refused : ∀ newCmd, (calls.this.put newCmd).1 = false →
    (calls.this.put newCmd).2 = calls.this

theorem exactCountingFifo (size : UInt32) (positive : 0 < size) (small : size.toNat ≤ 2 ^ 31)
    (calls : Calls Subject) (reachable : (system Subject size).Reachable calls) :
    ExactCountingFifo size calls := by
  obtain ⟨history, reached, same⟩ := refines_history positive reachable
  have valid : calls.this.WellFormed := same.queue.bounded
  have sizeSame : calls.this.size = size :=
    Ring.Machine.Represents.size_eq positive same.queue (History.capacity_eq reached)
  have split : calls.accepted = calls.got ++ calls.this.pending := by
    rw [← same.accepted, History.accepted_eq reached, same.removed, same.queue.items_eq]
  have obtained := valid.get_cases (sizeSame ▸ small)
  refine {
    got_leading := ⟨_, split.symm⟩
    accepted_eq := split
    get_empty_iff := ?_
    get_empty := ?_
    get_some := ?_
    put_refused_iff := fun _ => sizeSame ▸ valid.put_refused_iff
    put_refused := fun _ => valid.put_refused }
  · rcases obtained with ⟨idle, nothing⟩ | ⟨remaining, outCmd, after, removed, shape, counted⟩
    · simp [nothing, idle]
    · simp only [removed, shape, reduceCtorEq, iff_false]
      intro same
      rw [same] at counted
      exact absurd counted (by simp)
  · rcases obtained with ⟨idle, nothing⟩ | ⟨remaining, outCmd, after, removed, shape, counted⟩
    · simp [nothing]
    · intro same
      rw [removed] at same
      dsimp only at same
      rw [same] at counted
      exact absurd counted (by simp)
  · intro pending
    rcases obtained with ⟨idle, nothing⟩ | ⟨remaining, outCmd, after, removed, shape, counted⟩
    · exact absurd idle pending
    · exact ⟨outCmd, by rw [removed], by rw [removed]; exact shape, by rw [removed]; exact counted⟩

/-- The third put finds the queue full, and behind a get another one goes around
the end of the ring. -/
theorem exactCountingFifo_around :
    let calls := [.start, .put ⟨1, 10⟩, .put ⟨2, 20⟩, .put ⟨3, 30⟩, .get, .put ⟨4, 40⟩].foldl
      Calls.perform (Calls.fresh ⟨0⟩ 3 fun _ => ⟨0, 0⟩)
    ExactCountingFifo 3 calls ∧ calls.accepted = [⟨1, 10⟩, ⟨2, 20⟩, ⟨4, 40⟩] ∧
      calls.got = [⟨1, 10⟩] := by
  have fresh : (system Nat 3).Reachable (.fresh ⟨0⟩ 3 fun _ => ⟨0, 0⟩) := .start ⟨_, _, rfl⟩
  have started := fresh.step (@rfl _ (Calls.perform _ .start))
  have full := (started.step (@rfl _ (Calls.perform _ (.put ⟨1, 10⟩)))).step
    (@rfl _ (Calls.perform _ (.put ⟨2, 20⟩)))
  have refused := full.step (@rfl _ (Calls.perform _ (.put ⟨3, 30⟩)))
  have got := refused.step (@rfl _ (Calls.perform _ .get))
  have around := got.step (@rfl _ (Calls.perform _ (.put ⟨4, 40⟩)))
  exact ⟨exactCountingFifo 3 (by decide) (by decide) _ around, by decide, by decide⟩

end Striga.CmdQ
