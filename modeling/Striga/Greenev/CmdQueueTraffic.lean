import Striga.Greenev.CmdQueue

/-! Any number of producers calling `watcher_cmd_q_put` while the thread that
owns the loop starts the watcher and drains the queue. Each critical section is
one step, and a put is two: its critical section and its `ev_async_send`. -/

set_option autoImplicit false

namespace Striga.Greenev.CmdQueueTraffic

open Lib

/-- How far one call of `watcher_cmd_q_put` has got. -/
inductive PutPhase where
  | idle
  | sending
  | returned (result : Bool)
  deriving DecidableEq, Repr

/-- The thread that owns the loop. A draining consumer may hold a command that
it has removed but not yet given to the callback. -/
inductive Consumer (Arg : Type) where
  | created
  | waiting
  | draining (hand : Option (Cmd Arg))

def Consumer.hand {Arg : Type} : Consumer Arg → List (Cmd Arg)
  | .draining hand => hand.toList
  | _ => []

/-- The queue, its users, and the record of accepted calls and of commands
given to the callback. -/
structure State (Call Arg : Type) where
  loop : EvLoop
  queue : WatcherCmdQ Arg
  phase : Call → PutPhase
  consumer : Consumer Arg
  accepted : List Call
  given : List (Cmd Arg)

def State.fresh {Call Arg : Type} (loop : EvLoop) (size : UInt32) (block : Nat → Cmd Arg) :
    State Call Arg :=
  ⟨loop, .new size block, fun _ => .idle, .created, [], []⟩

inductive Label (Call : Type) where
  | enqueue (call : Call)
  | send (call : Call)
  | start
  | wake
  | iterate
  | callback

variable {Call Arg : Type} [DecidableEq Call]

def State.enqueue (state : State Call Arg) (cmd : Call → Cmd Arg) (call : Call) :
    State Call Arg :=
  let (accepted, queue) := state.queue.enqueue (cmd call)
  { state with
    queue := queue
    phase := Function.update state.phase call (if accepted then .sending else .returned false)
    accepted := if accepted then state.accepted ++ [call] else state.accepted }

def State.iterate (state : State Call Arg) : State Call Arg :=
  match state.queue.take with
  | (none, queue) => { state with queue := queue, consumer := .waiting }
  | (some cmd, queue) => { state with queue := queue, consumer := .draining (some cmd) }

/-- One element of `Call` stands for one call made by some producer; `cmd`
gives the command it passes. The loop may invoke the callback whenever it waits,
so in particular whenever the watcher has been sent to. -/
inductive Step (cmd : Call → Cmd Arg) : State Call Arg → Label Call → State Call Arg → Prop where
  | enqueue {state call} :
      state.phase call = .idle →
      Step cmd state (.enqueue call) (state.enqueue cmd call)
  | send {state call} :
      state.phase call = .sending →
      Step cmd state (.send call)
        { state with
          queue := state.queue.send
          phase := Function.update state.phase call (.returned true) }
  | start {state} :
      state.consumer = .created →
      Step cmd state .start
        { state with
          loop := (state.queue.start state.loop).1
          queue := (state.queue.start state.loop).2
          consumer := .waiting }
  | wake {state} :
      state.consumer = .waiting →
      Step cmd state .wake
        { state with
          queue := { state.queue with qWatcher := state.queue.qWatcher.clear }
          consumer := .draining none }
  | iterate {state} :
      state.consumer = .draining none →
      Step cmd state .iterate state.iterate
  | callback {state command} :
      state.consumer = .draining (some command) →
      Step cmd state .callback
        { state with
          consumer := .draining none
          given := state.given ++ [command] }

def system (cmd : Call → Cmd Arg) (size : UInt32) : System (State Call Arg) (Label Call) where
  initial state := ∃ loop block, state = .fresh loop size block
  step := Step cmd

variable {cmd : Call → Cmd Arg} {size : UInt32}

structure Matches (cmd : Call → Cmd Arg) (state : State Call Arg)
    (history : History (Cmd Arg)) : Prop where
  queue : state.queue.Represents history.queue
  accepted : history.accepted = state.accepted.map cmd
  removed : history.removed = state.given ++ state.consumer.hand

theorem Matches.enqueue {state : State Call Arg} {history : History (Cmd Arg)}
    (same : Matches cmd state history) (call : Call) :
    Matches cmd (state.enqueue cmd call) (history.move (.offer (cmd call))) := by
  obtain ⟨result, represents⟩ := same.queue.enqueue (cmd call)
  constructor
  · exact represents
  · simp only [State.enqueue, History.move, ← result, same.accepted]
    split <;> simp
  · exact same.removed

omit [DecidableEq Call] in
theorem Matches.iterate {state : State Call Arg} {history : History (Cmd Arg)}
    (same : Matches cmd state history) (draining : state.consumer = .draining none) :
    Matches cmd state.iterate (history.move .poll) := by
  obtain ⟨result, represents⟩ := same.queue.take
  have removed : history.removed = state.given := by
    simpa [draining, Consumer.hand] using same.removed
  unfold State.iterate
  split
  · rename_i queue taken
    rw [taken] at result represents
    exact ⟨represents, same.accepted, by simp [History.move, ← result, removed, Consumer.hand]⟩
  · rename_i command queue taken
    rw [taken] at result represents
    exact ⟨represents, same.accepted, by simp [History.move, ← result, removed, Consumer.hand]⟩

/-- The traffic refines the abstract bounded queue: only critical sections move
the history, and each is one offer or one poll. -/
theorem refines_history (positive : 0 < size) {state : State Call Arg}
    (reachable : (system cmd size).Reachable state) :
    ∃ history, (History.system (Cmd Arg) (size.toNat - 1)).Reachable history ∧
      Matches cmd state history := by
  refine reachable.simulation (Matches cmd) ?_ ?_
  · intro state starts
    obtain ⟨loop, block, rfl⟩ := starts
    exact ⟨_, rfl, Ring.Machine.Represents.empty positive, rfl, rfl⟩
  · intro state label next history same taken
    cases taken with
    | enqueue idle => exact .inr ⟨_, _, rfl, same.enqueue _⟩
    | send sending => exact .inl ⟨same.queue.rewatch _, same.accepted, same.removed⟩
    | start created =>
        refine .inl ⟨same.queue.rewatch _, same.accepted, ?_⟩
        simpa [created, Consumer.hand] using same.removed
    | wake waiting =>
        refine .inl ⟨same.queue.rewatch _, same.accepted, ?_⟩
        simpa [waiting, Consumer.hand] using same.removed
    | iterate draining => exact .inr ⟨_, _, rfl, same.iterate draining⟩
    | callback holding =>
        refine .inl ⟨same.queue, same.accepted, ?_⟩
        simpa [holding, Consumer.hand] using same.removed

theorem wellFormed (positive : 0 < size) {state : State Call Arg}
    (reachable : (system cmd size).Reachable state) : state.queue.WellFormed := by
  obtain ⟨_, _, same⟩ := refines_history positive reachable
  exact same.queue.wellFormed

/-- The accepted calls are those past their critical section that were not
refused, each once. -/
structure CallsRecorded (state : State Call Arg) : Prop where
  nodup : state.accepted.Nodup
  accepted_iff : ∀ call, call ∈ state.accepted ↔
    state.phase call = .sending ∨ state.phase call = .returned true

theorem CallsRecorded.enqueue {state : State Call Arg} (recorded : CallsRecorded state)
    {call : Call} (idle : state.phase call = .idle) :
    CallsRecorded (state.enqueue cmd call) := by
  have fresh : call ∉ state.accepted := by
    rw [recorded.accepted_iff, idle]
    simp
  simp only [State.enqueue]
  constructor
  · split
    · exact List.nodup_append.mpr ⟨recorded.nodup, by simp, by grind⟩
    · exact recorded.nodup
  · intro other
    have before := recorded.accepted_iff other
    by_cases same : other = call
    · subst same
      split <;> simp [fresh]
    · simp only [Function.update_of_ne same]
      split <;> simp [before, same]

theorem callsRecorded {state : State Call Arg}
    (reachable : (system cmd size).Reachable state) : CallsRecorded state := by
  refine reachable.invariant CallsRecorded ?_ ?_
  · intro state starts
    obtain ⟨loop, block, rfl⟩ := starts
    exact ⟨by simp [State.fresh], by simp [State.fresh]⟩
  · intro state label next recorded taken
    cases taken with
    | enqueue idle => exact recorded.enqueue idle
    | @send call sending =>
        refine ⟨recorded.nodup, fun other => ?_⟩
        have before := recorded.accepted_iff other
        by_cases same : other = call
        · subst same
          simpa [sending] using before
        · simpa [Function.update_of_ne same] using before
    | iterate draining =>
        unfold State.iterate
        split <;> exact ⟨recorded.nodup, recorded.accepted_iff⟩
    | start | wake | callback => exact ⟨recorded.nodup, recorded.accepted_iff⟩

/-- The queue as an exact bounded queue: what the callback has been given, then
a command removed but not yet given, then the pending commands, are exactly the
accepted commands in the order of acceptance. -/
structure ExactFifo (cmd : Call → Cmd Arg) (size : UInt32) (state : State Call Arg) : Prop where
  given_leading : state.given <+: state.accepted.map cmd
  accepted_eq :
    state.accepted.map cmd = state.given ++ state.consumer.hand ++ state.queue.pending
  recorded : CallsRecorded state
  size_eq : state.queue.qSize = size
  head_lt : state.queue.qHead < size
  tail_lt : state.queue.qTail < size
  refused_iff : ∀ command, (state.queue.put command).1 = false ↔
    state.queue.pending.length = size.toNat - 1
  refused_unchanged : ∀ command, (state.queue.put command).1 = false →
    (state.queue.put command).2 = state.queue

theorem exactFifo (size : UInt32) (positive : 0 < size) (cmd : Call → Cmd Arg)
    (state : State Call Arg) (reachable : (system cmd size).Reachable state) :
    ExactFifo cmd size state := by
  obtain ⟨history, reached, same⟩ := refines_history positive reachable
  have valid := same.queue.wellFormed
  have sizeSame : state.queue.qSize = size :=
    Ring.Machine.Represents.size_eq positive same.queue (History.capacity_eq reached)
  have split : state.accepted.map cmd =
      state.given ++ state.consumer.hand ++ state.queue.pending := by
    rw [← same.accepted, History.accepted_eq reached, same.removed, same.queue.items_eq]
  refine {
    given_leading := ⟨state.consumer.hand ++ state.queue.pending, ?_⟩
    accepted_eq := split
    recorded := callsRecorded reachable
    size_eq := sizeSame
    head_lt := sizeSame ▸ valid.head_lt
    tail_lt := sizeSame ▸ valid.tail_lt
    refused_iff := ?_
    refused_unchanged := ?_ }
  · rw [split, List.append_assoc]
  · intro command
    rw [← sizeSame, valid.put_refused_iff]
  · intro command
    exact valid.put_refused

/-- Of three puts into two places the last one is refused. Once the callback has
been given the first command another put is accepted, around the end of the ring. -/
theorem exactFifo_around : ∃ state, ExactFifo (fun call => (⟨1, call⟩ : Cmd Nat)) 3 state ∧
    state.accepted = [0, 1, 3] ∧ state.phase 2 = .returned false ∧
      state.given = [⟨1, 0⟩] ∧ state.queue.pending = [⟨1, 1⟩, ⟨1, 3⟩] := by
  let cmd : Nat → Cmd Nat := fun call => ⟨1, call⟩
  have fresh : (system cmd 3).Reachable (.fresh ⟨0⟩ 3 fun _ => ⟨0, 0⟩) := .start ⟨_, _, rfl⟩
  have first := fresh.step (@Step.enqueue _ _ _ cmd _ 0 rfl)
  have second := first.step (@Step.enqueue _ _ _ cmd _ 1 rfl)
  have third := second.step (@Step.enqueue _ _ _ cmd _ 2 rfl)
  have started := third.step (.start rfl)
  have sent := started.step (@Step.send _ _ _ cmd _ 0 rfl)
  have taken := (sent.step (.wake rfl)).step (.iterate rfl)
  have given := taken.step (@Step.callback _ _ _ cmd _ ⟨1, 0⟩ rfl)
  have around := given.step (@Step.enqueue _ _ _ cmd _ 3 rfl)
  exact ⟨_, exactFifo 3 (by decide) cmd _ around, rfl, rfl, rfl, by decide⟩

end Striga.Greenev.CmdQueueTraffic
