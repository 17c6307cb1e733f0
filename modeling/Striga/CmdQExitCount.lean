import Striga.CmdQ
import Striga.Greenev.CmdQueue
import Striga.Lib.Balance

/-! The exit count of a loop over the start and stop calls of a command queue. -/

set_option autoImplicit false

namespace Striga

open Lib

inductive WatcherCall where
  | start
  | stop
  deriving DecidableEq, Repr

namespace EvAsync

/-- Whether a watcher is active behind a call, whatever came before it. -/
def activeAfter : WatcherCall → Bool
  | .start => true
  | .stop => false

private theorem start_active (loop : EvLoop) (watcher : EvAsync) :
    (watcher.start loop).2.active = true := by
  unfold start
  split
  · assumption
  · rfl

theorem stop_active (loop : EvLoop) (watcher : EvAsync) :
    (watcher.stop loop).2.active = false := by
  unfold stop
  split
  · rfl
  · rename_i inactive
    exact Bool.not_eq_true _ ▸ inactive

/-- The count that a start gives up afterwards is the one that it has taken. -/
private theorem start_activecnt_iff (loop : EvLoop) (watcher : EvAsync) :
    (watcher.start loop).1.unref.activecnt = loop.activecnt ↔ watcher.active = false := by
  unfold start
  cases watcher.active with
  | false => exact ⟨fun _ => rfl, fun _ => Int.add_sub_cancel loop.activecnt 1⟩
  | true =>
    constructor
    · intro same
      have lower : loop.activecnt - 1 = loop.activecnt := same
      omega
    · exact fun inactive => absurd inactive.symm Bool.false_ne_true

private theorem stop_activecnt_iff (loop : EvLoop) (watcher : EvAsync) :
    (watcher.stop loop).1.activecnt = loop.activecnt ↔ watcher.active = false := by
  unfold stop
  cases watcher.active with
  | false => exact ⟨fun _ => rfl, fun _ => rfl⟩
  | true =>
    constructor
    · intro same
      have lower : loop.activecnt - 1 = loop.activecnt := same
      omega
    · exact fun inactive => absurd inactive.symm Bool.false_ne_true

theorem ref_stop_activecnt_iff (loop : EvLoop) (watcher : EvAsync) :
    (watcher.stop loop.ref).1.activecnt = loop.activecnt ↔ watcher.active = true := by
  unfold stop
  cases watcher.active with
  | false =>
    constructor
    · intro same
      have higher : loop.activecnt + 1 = loop.activecnt := same
      omega
    · exact fun active => absurd active Bool.false_ne_true
  | true => exact ⟨fun _ => rfl, fun _ => Int.add_sub_cancel loop.activecnt 1⟩

end EvAsync

namespace Greenev.WatcherCmdQ

variable {Arg : Type}

/-- What `watcher_cmd_q_delete` does to the loop. -/
def delete (loop : EvLoop) (queue : WatcherCmdQ Arg) : EvLoop :=
  (queue.stop loop).1

def call (state : EvLoop × WatcherCmdQ Arg) : WatcherCall → EvLoop × WatcherCmdQ Arg
  | .start => state.2.start state.1
  | .stop => state.2.stop state.1

/-- The loop's count is the initial one after each call and, if the queue is
deleted in the end, after that too. -/
def KeepsExitCount (loop : EvLoop) (queue : WatcherCmdQ Arg) (calls : List WatcherCall)
    (deleted : Bool) : Prop :=
  (∀ before, before <+: calls →
    (before.foldl call (loop, queue)).1.activecnt = loop.activecnt) ∧
  (deleted = true →
    (delete (calls.foldl call (loop, queue)).1 (calls.foldl call (loop, queue)).2).activecnt =
      loop.activecnt)

/-- The last of all calls, the stop of a deletion included, is the only one that
may be a start. -/
def StartsLast (calls : List WatcherCall) (deleted : Bool) : Prop :=
  List.IsChain (fun previous _ => previous ≠ WatcherCall.start)
    (.stop :: (calls ++ if deleted then [.stop] else []))

private theorem keepsExitCount_iff_balanced {loop : EvLoop} {queue : WatcherCmdQ Arg}
    {calls : List WatcherCall} {deleted : Bool} :
    KeepsExitCount loop queue calls deleted ↔
      Balanced call (fun state => state.1.activecnt) (loop, queue)
        (calls ++ if deleted then [.stop] else []) := by
  cases deleted with
  | false =>
    rw [if_neg Bool.false_ne_true, List.append_nil]
    exact ⟨fun keeps => keeps.1, fun balanced => ⟨balanced, fun deleted => by cases deleted⟩⟩
  | true =>
    rw [if_pos rfl]
    have deletes : delete (calls.foldl call (loop, queue)).1 (calls.foldl call (loop, queue)).2 =
        ((calls ++ [WatcherCall.stop]).foldl call (loop, queue)).1 := by
      rw [List.foldl_append]
      rfl
    constructor
    · intro keeps before initial
      rcases List.prefix_concat_iff.mp initial with whole | shorter
      · have ended := keeps.2 rfl
        rw [deletes] at ended
        rw [whole]
        exact ended
      · exact keeps.1 before shorter
    · intro balanced
      constructor
      · exact fun before initial => balanced before (initial.trans (List.prefix_append _ _))
      · intro _
        rw [deletes]
        exact balanced _ (List.prefix_refl _)

private theorem call_active (state : EvLoop × WatcherCmdQ Arg) (next : WatcherCall) :
    (call state next).2.qWatcher.active = EvAsync.activeAfter next := by
  cases next with
  | start => exact EvAsync.start_active state.1 state.2.qWatcher
  | stop => exact EvAsync.stop_active state.1 state.2.qWatcher

private theorem call_activecnt_iff {previous : WatcherCall} {state : EvLoop × WatcherCmdQ Arg}
    (after : state.2.qWatcher.active = EvAsync.activeAfter previous) (next : WatcherCall) :
    (call state next).1.activecnt = state.1.activecnt ↔ previous ≠ .start := by
  have inactive : state.2.qWatcher.active = false ↔ previous ≠ .start := by
    rw [after]
    cases previous <;> decide
  cases next with
  | start => exact (EvAsync.start_activecnt_iff state.1 state.2.qWatcher).trans inactive
  | stop => exact (EvAsync.stop_activecnt_iff state.1 state.2.qWatcher).trans inactive

private theorem keepsExitCount_iff {loop : EvLoop} {queue : WatcherCmdQ Arg}
    (inactive : queue.qWatcher.active = false) (calls : List WatcherCall) (deleted : Bool) :
    KeepsExitCount loop queue calls deleted ↔ StartsLast calls deleted := by
  rw [keepsExitCount_iff_balanced]
  exact Balanced.iff_isChain
    (fun next state => call_active state next)
    (fun _ next _ after => call_activecnt_iff after next)
    inactive

end Greenev.WatcherCmdQ

namespace CmdQ

variable {Subject : Type}

def call (state : EvLoop × CmdQ Subject) : WatcherCall → EvLoop × CmdQ Subject
  | .start => state.2.start state.1
  | .stop => state.2.stop state.1

def KeepsExitCount (loop : EvLoop) (this : CmdQ Subject) (calls : List WatcherCall) : Prop :=
  ∀ before, before <+: calls → (before.foldl call (loop, this)).1.activecnt = loop.activecnt

/-- The first call is a start, and from there starts and stops take turns. -/
def Alternates (calls : List WatcherCall) : Prop :=
  List.IsChain (fun previous next => previous ≠ next) (.stop :: calls)

private theorem call_active (state : EvLoop × CmdQ Subject) (next : WatcherCall) :
    (call state next).2.watcher.active = EvAsync.activeAfter next := by
  cases next with
  | start => exact EvAsync.start_active state.1 state.2.watcher
  | stop => exact EvAsync.stop_active state.1.ref state.2.watcher

private theorem call_activecnt_iff {previous : WatcherCall} {state : EvLoop × CmdQ Subject}
    (after : state.2.watcher.active = EvAsync.activeAfter previous) (next : WatcherCall) :
    (call state next).1.activecnt = state.1.activecnt ↔ previous ≠ next := by
  cases next with
  | start =>
    refine (EvAsync.start_activecnt_iff state.1 state.2.watcher).trans ?_
    rw [after]
    cases previous <;> decide
  | stop =>
    refine (EvAsync.ref_stop_activecnt_iff state.1 state.2.watcher).trans ?_
    rw [after]
    cases previous <;> decide

private theorem keepsExitCount_iff {loop : EvLoop} {this : CmdQ Subject}
    (inactive : this.watcher.active = false) (calls : List WatcherCall) :
    KeepsExitCount loop this calls ↔ Alternates calls := by
  show Balanced call (fun state => state.1.activecnt) (loop, this) calls ↔ Alternates calls
  exact Balanced.iff_isChain
    (fun next state => call_active state next)
    (fun _ next _ after => call_activecnt_iff after next)
    inactive

end CmdQ

/-- `watcher_cmd_q_stop` does not give back what `watcher_cmd_q_start` has taken
from the count; `cmd_q_start` and `cmd_q_stop` do, but only in turns. -/
theorem keepsExitCount_iff_calls {Arg Subject : Type} (loop : EvLoop)
    (queue : Greenev.WatcherCmdQ Arg) (this : CmdQ Subject)
    (queueInactive : queue.qWatcher.active = false) (thisInactive : this.watcher.active = false) :
    (∀ calls deleted, queue.KeepsExitCount loop calls deleted ↔
      Greenev.WatcherCmdQ.StartsLast calls deleted) ∧
    (∀ calls, this.KeepsExitCount loop calls ↔ CmdQ.Alternates calls) :=
  ⟨Greenev.WatcherCmdQ.keepsExitCount_iff queueInactive, CmdQ.keepsExitCount_iff thisInactive⟩

theorem keepsExitCount_iff_calls_new :
    (∀ calls deleted, (Greenev.WatcherCmdQ.new 2 fun _ => ⟨0, ()⟩).KeepsExitCount ⟨1⟩ calls
      deleted ↔
      Greenev.WatcherCmdQ.StartsLast calls deleted) ∧
    (∀ calls, (CmdQ.new 2 fun _ => (⟨0, ()⟩ : SubjectCmd Unit)).KeepsExitCount ⟨1⟩ calls ↔
      CmdQ.Alternates calls) :=
  keepsExitCount_iff_calls ⟨1⟩ (Greenev.WatcherCmdQ.new 2 fun _ => ⟨0, ()⟩)
    (CmdQ.new 2 fun _ => ⟨0, ()⟩) rfl rfl

/-- One start and one stop in `greenev`, and the count is one too low. -/
theorem not_keepsExitCount_start_stop :
    ¬ (Greenev.WatcherCmdQ.new 2 fun _ => (⟨0, ()⟩ : Greenev.Cmd Unit)).KeepsExitCount ⟨1⟩
      [.start, .stop] false := by
  intro keeps
  have stopped := keeps.1 [.start, .stop] (List.prefix_refl _)
  exact Int.zero_ne_one stopped

end Striga
