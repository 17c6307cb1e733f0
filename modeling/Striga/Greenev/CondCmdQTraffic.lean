import Striga.Greenev.CondCmdQ

/-! Any number of producers and consumers on one `cond_cmd_q`. A critical
section runs from taking the mutex to releasing it, by unlocking or by waiting
on a condition variable, and is one step. No pthread call fails; a wait may end
by a signal, spuriously or, where it is timed, by its time-out. -/

set_option autoImplicit false

namespace Striga.Greenev.CondCmdQTraffic

open Lib

/-- The operations with what their callers pass; the time-outs are in the steps. -/
inductive Op (Arg : Type) where
  | put (cmd : Cmd Arg)
  | timedPut (cmd : Cmd Arg)
  | get
  | timedGet

namespace Op

variable {Arg : Type}

/-- The command that the operation inserts, if it is one that inserts. -/
def inserts : Op Arg → Option (Cmd Arg)
  | .put cmd | .timedPut cmd => some cmd
  | .get | .timedGet => none

def timed : Op Arg → Bool
  | .put _ | .get => false
  | .timedPut _ | .timedGet => true

def mustWait (op : Op Arg) (queue : CondCmdQ Arg) : Bool :=
  if op.inserts.isSome then queue.full else queue.empty

end Op

/-- How far one call has got. A call that was woken has yet to get the mutex
back; `cmdOut` is what a call that removes stores in `cmd_out`. -/
inductive Phase (Arg : Type) where
  | idle
  | entering
  | aborted
  | asleep
  | woken
  | expired
  | returned (result : Int) (cmdOut : Option (Cmd Arg))

structure State (Call Arg : Type) where
  queue : CondCmdQ Arg
  phase : Call → Phase Arg
  inserted : List (Call × Cmd Arg)
  removed : List (Call × Cmd Arg)

inductive Label (Call : Type) where
  | call (call : Call)
  | wait (call : Call)
  | insert (call : Call) (signalled : Option Call)
  | remove (call : Call) (signalled : Option Call)
  | wakeup (call : Call)
  | expire (call : Call)
  | timeout (call : Call)

variable {Call Arg : Type} [DecidableEq Call]

def State.fresh (size : UInt32) (block : Nat → Cmd Arg) : State Call Arg :=
  ⟨.new size block, fun _ => .idle, [], []⟩

def State.enter (state : State Call Arg) (call : Call) (phase : Phase Arg) : State Call Arg :=
  { state with phase := Function.update state.phase call phase }

/-- The caller has the mutex: for the first time, or again after a wait. -/
def State.Holds (state : State Call Arg) (call : Call) : Prop :=
  state.phase call = .entering ∨ state.phase call = .woken

/-- `pthread_cond_signal`: one of the calls asleep on the condition variable is
woken, unless there is none. -/
def Signals (op : Call → Op Arg) (state : State Call Arg) (waitsToInsert : Bool) :
    Option Call → Prop
  | some other => state.phase other = .asleep ∧ (op other).inserts.isSome = waitsToInsert
  | none => ∀ other, (op other).inserts.isSome = waitsToInsert → state.phase other ≠ .asleep

def State.signal (state : State Call Arg) : Option Call → State Call Arg
  | some other => state.enter other .woken
  | none => state

def State.insert (state : State Call Arg) (call : Call) (cmd : Cmd Arg)
    (signalled : Option Call) : State Call Arg :=
  ({ state with
      queue := state.queue.putInternal cmd
      inserted := state.inserted ++ [(call, cmd)] }.signal signalled).enter call (.returned 1 none)

def State.remove (state : State Call Arg) (call : Call) (signalled : Option Call) :
    State Call Arg :=
  ({ state with
      queue := state.queue.getInternal.2
      removed := state.removed ++ [(call, state.queue.getInternal.1)] }.signal signalled).enter
    call (.returned 1 (some state.queue.getInternal.1))

/-- One element of `Call` stands for one call made by some thread. -/
inductive Step (op : Call → Op Arg) : State Call Arg → Label Call → State Call Arg → Prop where
  | call {state call} :
      state.phase call = .idle →
      Step op state (.call call)
        (state.enter call (if state.queue.asserts then .entering else .aborted))
  | wait {state call} :
      state.Holds call → (op call).mustWait state.queue = true →
      Step op state (.wait call) (state.enter call .asleep)
  | insert {state call cmd signalled} :
      state.Holds call → (op call).inserts = some cmd → state.queue.full = false →
      Signals op state false signalled →
      Step op state (.insert call signalled) (state.insert call cmd signalled)
  | remove {state call signalled} :
      state.Holds call → (op call).inserts = none → state.queue.empty = false →
      Signals op state true signalled →
      Step op state (.remove call signalled) (state.remove call signalled)
  | wakeup {state call} :
      state.phase call = .asleep →
      Step op state (.wakeup call) (state.enter call .woken)
  | expire {state call} :
      state.phase call = .asleep → (op call).timed = true →
      Step op state (.expire call) (state.enter call .expired)
  | timeout {state call} :
      state.phase call = .expired →
      Step op state (.timeout call) (state.enter call (.returned 0 none))

def system (op : Call → Op Arg) (size : UInt32) : System (State Call Arg) (Label Call) where
  initial state := ∃ block, state = .fresh size block
  step := Step op

variable {op : Call → Op Arg} {size : UInt32} {state : State Call Arg}

@[simp] theorem enter_queue (call : Call) (phase : Phase Arg) :
    (state.enter call phase).queue = state.queue := rfl

@[simp] theorem enter_inserted (call : Call) (phase : Phase Arg) :
    (state.enter call phase).inserted = state.inserted := rfl

@[simp] theorem enter_removed (call : Call) (phase : Phase Arg) :
    (state.enter call phase).removed = state.removed := rfl

@[simp] theorem signal_queue (signalled : Option Call) :
    (state.signal signalled).queue = state.queue := by
  cases signalled <;> rfl

@[simp] theorem signal_inserted (signalled : Option Call) :
    (state.signal signalled).inserted = state.inserted := by
  cases signalled <;> rfl

@[simp] theorem signal_removed (signalled : Option Call) :
    (state.signal signalled).removed = state.removed := by
  cases signalled <;> rfl

structure Matches (state : State Call Arg) (history : History (Cmd Arg)) : Prop where
  queue : state.queue.Represents history.queue
  accepted : history.accepted = state.inserted.map Prod.snd
  removed : history.removed = state.removed.map Prod.snd

/-- The traffic refines the abstract bounded queue: only the critical sections
that insert or remove move the history. -/
theorem refines_history (positive : 0 < size)
    (reachable : (system op size).Reachable state) :
    ∃ history, (History.system (Cmd Arg) (size.toNat - 1)).Reachable history ∧
      Matches state history := by
  refine reachable.simulation Matches ?_ ?_
  · intro state starts
    obtain ⟨block, rfl⟩ := starts
    exact ⟨_, rfl, Ring.Machine.Represents.empty positive, rfl, rfl⟩
  · intro state label next history same taken
    cases taken with
    | call | wait | wakeup | expire | timeout =>
        exact .inl ⟨same.queue, same.accepted, same.removed⟩
    | @insert call cmd signalled holds inserts room signals =>
        obtain ⟨accepted, represents⟩ := same.queue.putInternal room cmd
        refine .inr ⟨.offer cmd, _, rfl, ?_, ?_, ?_⟩
        · simpa [State.insert, History.move] using represents
        · simp [State.insert, History.move, accepted, same.accepted]
        · simpa [State.insert, History.move] using same.removed
    | @remove call signalled holds inserts filled signals =>
        obtain ⟨result, represents⟩ := same.queue.getInternal filled
        refine .inr ⟨.poll, _, rfl, ?_, ?_, ?_⟩
        · simpa [State.remove, History.move] using represents
        · simpa [State.remove, History.move] using same.accepted
        · simp [State.remove, History.move, result, same.removed]

def Phase.outcome : Phase Arg → Option (Int × Option (Cmd Arg))
  | .returned result cmdOut => some (result, cmdOut)
  | _ => none

def State.outcome (state : State Call Arg) (call : Call) : Option (Int × Option (Cmd Arg)) :=
  (state.phase call).outcome

private theorem outcome_enter (call : Call) (phase : Phase Arg) :
    (state.enter call phase).outcome = Function.update state.outcome call phase.outcome := by
  funext other
  by_cases same : other = call
  · subst same
    simp [State.outcome, State.enter]
  · simp [State.outcome, State.enter, same]

private theorem outcome_enter_unfinished {call : Call} {phase : Phase Arg}
    (before : state.outcome call = none) (after : phase.outcome = none) :
    (state.enter call phase).outcome = state.outcome := by
  rw [outcome_enter, after, ← before, Function.update_eq_self]

private theorem outcome_signal {waitsToInsert : Bool} {signalled : Option Call}
    (signals : Signals op state waitsToInsert signalled) :
    (state.signal signalled).outcome = state.outcome := by
  cases signalled with
  | none => rfl
  | some other =>
      exact outcome_enter_unfinished (by simp [State.outcome, signals.1, Phase.outcome]) rfl

omit [DecidableEq Call] in
theorem State.Holds.outcome {call : Call} (holds : state.Holds call) :
    state.outcome call = none := by
  rcases holds with entering | woken
  · simp [State.outcome, entering, Phase.outcome]
  · simp [State.outcome, woken, Phase.outcome]

private theorem outcome_insert {call : Call} {cmd : Cmd Arg} {signalled : Option Call}
    (signals : Signals op state false signalled) :
    (state.insert call cmd signalled).outcome =
      Function.update state.outcome call (some (1, none)) := by
  rw [State.insert, outcome_enter]
  congr 1
  exact @outcome_signal _ _ _ _ { state with
    queue := state.queue.putInternal cmd, inserted := _ } _ _ signals

theorem outcome_remove {call : Call} {signalled : Option Call}
    (signals : Signals op state true signalled) :
    (state.remove call signalled).outcome =
      Function.update state.outcome call (some (1, some state.queue.getInternal.1)) := by
  rw [State.remove, outcome_enter]
  congr 1
  exact @outcome_signal _ _ _ _ { state with
    queue := state.queue.getInternal.2, removed := _ } _ _ signals

/-- A call is on record as inserting or removing exactly when it has returned
success, with the command that it was given or that it stored. -/
structure CallsRecorded (op : Call → Op Arg) (state : State Call Arg) : Prop where
  inserted_nodup : (state.inserted.map Prod.fst).Nodup
  removed_nodup : (state.removed.map Prod.fst).Nodup
  inserted_iff : ∀ call cmd, (call, cmd) ∈ state.inserted ↔
    (op call).inserts = some cmd ∧ state.outcome call = some (1, none)
  removed_iff : ∀ call cmd, (call, cmd) ∈ state.removed ↔
    state.outcome call = some (1, some cmd)

omit [DecidableEq Call] in
theorem CallsRecorded.of_same {next : State Call Arg} (recorded : CallsRecorded op state)
    (inserted : next.inserted = state.inserted) (removed : next.removed = state.removed)
    (outcome : ∀ call, next.outcome call = some (1, none) ↔ state.outcome call = some (1, none))
    (stored : ∀ call cmd, next.outcome call = some (1, some cmd) ↔
      state.outcome call = some (1, some cmd)) :
    CallsRecorded op next := by
  constructor
  · rw [inserted]
    exact recorded.inserted_nodup
  · rw [removed]
    exact recorded.removed_nodup
  · intro call cmd
    rw [inserted, recorded.inserted_iff, outcome]
  · intro call cmd
    rw [removed, recorded.removed_iff, stored]

theorem CallsRecorded.enter (recorded : CallsRecorded op state) {call : Call} {phase : Phase Arg}
    (before : state.outcome call = none) (after : phase.outcome = none) :
    CallsRecorded op (state.enter call phase) := by
  have same := outcome_enter_unfinished before after
  exact recorded.of_same rfl rfl (by simp [same]) (by simp [same])

theorem CallsRecorded.timeout (recorded : CallsRecorded op state) {call : Call}
    (before : state.outcome call = none) :
    CallsRecorded op (state.enter call (.returned 0 none)) := by
  refine recorded.of_same rfl rfl ?_ ?_
  all_goals
    intro other
    rw [outcome_enter]
    by_cases same : other = call
    · subst same
      simp [before, Phase.outcome]
    · simp [same]

theorem CallsRecorded.insert (recorded : CallsRecorded op state) {call : Call} {cmd : Cmd Arg}
    {signalled : Option Call} (holds : state.Holds call) (inserts : (op call).inserts = some cmd)
    (signals : Signals op state false signalled) :
    CallsRecorded op (state.insert call cmd signalled) := by
  have before := holds.outcome
  have outcome : (state.insert call cmd signalled).outcome = _ := outcome_insert signals
  have fresh : call ∉ state.inserted.map Prod.fst := by
    simp [recorded.inserted_iff, before]
  constructor
  · simp only [State.insert, enter_inserted, signal_inserted, List.map_append]
    exact List.nodup_append.mpr ⟨recorded.inserted_nodup, by simp, by grind⟩
  · simpa [State.insert] using recorded.removed_nodup
  · intro other stored
    rw [outcome]
    simp only [State.insert, enter_inserted, signal_inserted, List.mem_append,
      List.mem_singleton, recorded.inserted_iff]
    by_cases same : other = call
    · subst same
      simp [before, inserts, eq_comm]
    · simp [same]
  · intro other stored
    rw [outcome]
    simp only [State.insert, enter_removed, signal_removed, recorded.removed_iff]
    by_cases same : other = call
    · subst same
      simp [before]
    · simp [same]

theorem CallsRecorded.remove (recorded : CallsRecorded op state) {call : Call}
    {signalled : Option Call} (holds : state.Holds call)
    (signals : Signals op state true signalled) :
    CallsRecorded op (state.remove call signalled) := by
  have before := holds.outcome
  have outcome : (state.remove call signalled).outcome = _ := outcome_remove signals
  have fresh : call ∉ state.removed.map Prod.fst := by
    simp [recorded.removed_iff, before]
  constructor
  · simpa [State.remove] using recorded.inserted_nodup
  · simp only [State.remove, enter_removed, signal_removed, List.map_append]
    exact List.nodup_append.mpr ⟨recorded.removed_nodup, by simp, by grind⟩
  · intro other stored
    rw [outcome]
    simp only [State.remove, enter_inserted, signal_inserted, recorded.inserted_iff]
    by_cases same : other = call
    · subst same
      simp [before]
    · simp [same]
  · intro other stored
    rw [outcome]
    simp only [State.remove, enter_removed, signal_removed, List.mem_append,
      List.mem_singleton, recorded.removed_iff]
    by_cases same : other = call
    · subst same
      simp [before, eq_comm]
    · simp [same]

theorem callsRecorded (reachable : (system op size).Reachable state) :
    CallsRecorded op state := by
  refine reachable.invariant (CallsRecorded op) ?_ ?_
  · intro state starts
    obtain ⟨block, rfl⟩ := starts
    constructor <;> simp [State.fresh, State.outcome, Phase.outcome]
  · intro state label next recorded taken
    cases taken with
    | call idle =>
        refine recorded.enter (by simp [State.outcome, idle, Phase.outcome]) ?_
        split <;> rfl
    | wait holds _ => exact recorded.enter holds.outcome rfl
    | wakeup asleep => exact recorded.enter (by simp [State.outcome, asleep, Phase.outcome]) rfl
    | expire asleep _ => exact recorded.enter (by simp [State.outcome, asleep, Phase.outcome]) rfl
    | timeout expired =>
        exact recorded.timeout (by simp [State.outcome, expired, Phase.outcome])
    | insert holds inserts room signals => exact recorded.insert holds inserts signals
    | remove holds inserts filled signals => exact recorded.remove holds signals

theorem wellFormed (positive : 0 < size) (reachable : (system op size).Reachable state) :
    state.queue.WellFormed := by
  obtain ⟨_, _, same⟩ := refines_history positive reachable
  exact same.queue.bounded

theorem size_eq (positive : 0 < size) (reachable : (system op size).Reachable state) :
    state.queue.qSize = size := by
  obtain ⟨_, reached, same⟩ := refines_history positive reachable
  exact Ring.Machine.Represents.size_eq positive same.queue (History.capacity_eq reached)

def NotAborted (state : State Call Arg) : Prop :=
  ∀ call, state.phase call ≠ .aborted

theorem NotAborted.enter (clean : NotAborted state) {call : Call} {phase : Phase Arg}
    (fine : phase ≠ .aborted) : NotAborted (state.enter call phase) := by
  intro other
  by_cases same : other = call
  · subst same
    simpa [State.enter] using fine
  · simpa [State.enter, same] using clean other

theorem NotAborted.signal (clean : NotAborted state) (signalled : Option Call) :
    NotAborted (state.signal signalled) := by
  cases signalled with
  | none => exact clean
  | some other => exact clean.enter (by simp)

theorem notAborted (positive : 0 < size) (reachable : (system op size).Reachable state) :
    NotAborted state := by
  induction reachable with
  | start starts =>
      obtain ⟨block, rfl⟩ := starts
      intro call
      simp [State.fresh]
  | step earlier taken clean =>
      cases taken with
      | call idle =>
          rw [(wellFormed positive earlier).asserts_eq]
          exact clean.enter (by simp)
      | wait | wakeup | expire | timeout => exact clean.enter (by simp)
      | insert holds inserts room signals =>
          exact NotAborted.enter (NotAborted.signal (by exact clean) _) (by simp)
      | remove holds inserts filled signals =>
          exact NotAborted.enter (NotAborted.signal (by exact clean) _) (by simp)

structure ExactFifo (op : Call → Op Arg) (size : UInt32) (state : State Call Arg) : Prop where
  removed_leading : state.removed.map Prod.snd <+: state.inserted.map Prod.snd
  inserted_eq :
    state.inserted.map Prod.snd = state.removed.map Prod.snd ++ state.queue.pending
  recorded : CallsRecorded op state
  pending_le : state.queue.pending.length ≤ size.toNat - 1
  head_lt : state.queue.qHead < size
  tail_lt : state.queue.qTail < size
  asserts : state.queue.asserts = true
  not_aborted : ∀ call, state.phase call ≠ .aborted
  timeout_unchanged : ∀ call cmdOut, state.phase call = .returned 0 cmdOut →
    call ∉ state.inserted.map Prod.fst ∧ call ∉ state.removed.map Prod.fst

theorem exactConcurrentFifo (size : UInt32) (positive : 0 < size) (op : Call → Op Arg)
    (state : State Call Arg) (reachable : (system op size).Reachable state) :
    ExactFifo op size state := by
  obtain ⟨history, reached, same⟩ := refines_history positive reachable
  have valid : state.queue.WellFormed := same.queue.bounded
  have sizeSame := size_eq positive reachable
  have split : state.inserted.map Prod.snd = state.removed.map Prod.snd ++ state.queue.pending := by
    rw [← same.accepted, History.accepted_eq reached, same.removed, same.queue.items_eq]
  have recorded := callsRecorded reachable
  have used : state.queue.pending.length < state.queue.qSize.toNat := valid.length_lt
  refine {
    removed_leading := ⟨_, split.symm⟩
    inserted_eq := split
    recorded := recorded
    pending_le := by rw [← sizeSame]; omega
    head_lt := sizeSame ▸ valid.head_lt
    tail_lt := sizeSame ▸ valid.tail_lt
    asserts := valid.asserts_eq
    not_aborted := notAborted positive reachable
    timeout_unchanged := ?_ }
  intro call cmdOut expired
  have outcome : state.outcome call = some (0, cmdOut) := by
    simp [State.outcome, expired, Phase.outcome]
  constructor
  · simp [recorded.inserted_iff, outcome]
  · simp [recorded.removed_iff, outcome]

/-- A get sleeps until there is a command, and a second put until it is taken. -/
theorem exactConcurrentFifo_sleepers : ∃ state : State (Fin 3) Nat,
    ExactFifo (fun call => if call = 0 then .get else .put ⟨1, call.val⟩) 2 state ∧
      state.inserted = [(1, ⟨1, 1⟩), (2, ⟨1, 2⟩)] ∧ state.removed = [(0, ⟨1, 1⟩)] ∧
        state.phase 0 = .returned 1 (some ⟨1, 1⟩) := by
  let op : Fin 3 → Op Nat := fun call => if call = 0 then .get else .put ⟨1, call.val⟩
  have fresh : (system op 2).Reachable (.fresh 2 fun _ => ⟨0, 0⟩) := .start ⟨_, rfl⟩
  have called := fresh.step (@Step.call _ _ _ op _ 0 rfl)
  have asleep := called.step (@Step.wait _ _ _ op _ 0 (.inl rfl) (by decide))
  have entered := asleep.step (@Step.call _ _ _ op _ 1 rfl)
  have inserted := entered.step (@Step.insert _ _ _ op _ 1 ⟨1, 1⟩ (some 0) (.inl rfl) rfl
    (by decide) ⟨rfl, rfl⟩)
  have full := (inserted.step (@Step.call _ _ _ op _ 2 rfl)).step
    (@Step.wait _ _ _ op _ 2 (.inl rfl) (by decide))
  have removed := full.step (@Step.remove _ _ _ op _ 0 (some 2) (.inr rfl) rfl (by decide)
    ⟨rfl, rfl⟩)
  have last := removed.step (@Step.insert _ _ _ op _ 2 ⟨1, 2⟩ none (.inr rfl) rfl (by decide)
    fun other waits => by match other with | 0 => nofun | 1 => cases waits | 2 => cases waits)
  exact ⟨_, exactConcurrentFifo 2 (by decide) op _ last, rfl, rfl, rfl⟩

/-- The length that the queue reports agrees with the traffic and with the two
predicates. -/
structure CountsPending (size : UInt32) (state : State Call Arg) : Prop where
  size_eq : state.removed.length + state.queue.size.toNat = state.inserted.length
  empty_iff : state.queue.empty = true ↔ state.queue.size.toNat = 0
  full_iff : state.queue.full = true ↔ state.queue.size.toNat = size.toNat - 1

/-- What is in the queue is what was inserted and not yet removed. -/
theorem inserted_length (positive : 0 < size) (reachable : (system op size).Reachable state) :
    state.inserted.length = state.removed.length + state.queue.pending.length := by
  obtain ⟨history, reached, same⟩ := refines_history positive reachable
  have accepted := congrArg List.length (History.accepted_eq reached)
  rwa [List.length_append, same.accepted, same.removed, same.queue.items_eq, List.length_map,
    List.length_map] at accepted

theorem countsPending_iff_unwrapped (size : UInt32) (positive : 0 < size) (op : Call → Op Arg)
    (state : State Call Arg) (reachable : (system op size).Reachable state) :
    CountsPending size state ↔ state.queue.qTail ≤ state.queue.qHead ∨ size = 2 := by
  have valid := wellFormed positive reachable
  have sizeSame := size_eq positive reachable
  have total := inserted_length positive reachable
  have exact_iff : state.queue.size.toNat = state.queue.pending.length ↔
      state.queue.qTail ≤ state.queue.qHead ∨ size = 2 := by
    by_cases wrapped : state.queue.qHead < state.queue.qTail
    · have behind : ¬ state.queue.qTail ≤ state.queue.qHead := UInt32.not_le.mpr wrapped
      rw [valid.size_wrapped wrapped, sizeSame, or_iff_right behind]
    · have unwrapped := UInt32.not_lt.mp wrapped
      exact iff_of_true (valid.size_unwrapped unwrapped) (.inl unwrapped)
  rw [← exact_iff]
  constructor
  · intro counts
    have counted := counts.size_eq
    omega
  · intro counted
    constructor
    · omega
    · rw [counted, valid.empty_iff, List.length_eq_zero_iff]
    · rw [counted, valid.full_iff, sizeSame]

theorem countsPending_unwrapped : ∃ state : State (Fin 3) Unit, CountsPending 3 state ∧
    state.inserted.length = 2 ∧ state.removed.length = 1 := by
  let op : Fin 3 → Op Unit := fun call => if call = 2 then .get else .put ⟨1, ()⟩
  have fresh : (system op 3).Reachable (.fresh 3 fun _ => ⟨0, ()⟩) := .start ⟨_, rfl⟩
  have first := (fresh.step (@Step.call _ _ _ op _ 0 rfl)).step
    (@Step.insert _ _ _ op _ 0 ⟨1, ()⟩ none (.inl rfl) rfl (by decide)
      (fun other _ asleep => by match other with | 0 | 1 | 2 => cases asleep))
  have second := (first.step (@Step.call _ _ _ op _ 1 rfl)).step
    (@Step.insert _ _ _ op _ 1 ⟨1, ()⟩ none (.inl rfl) rfl (by decide)
      (fun other _ asleep => by match other with | 0 | 1 | 2 => cases asleep))
  have third := (second.step (@Step.call _ _ _ op _ 2 rfl)).step
    (@Step.remove _ _ _ op _ 2 none (.inl rfl) rfl (by decide)
      (fun other _ asleep => by match other with | 0 | 1 | 2 => cases asleep))
  exact ⟨_, (countsPending_iff_unwrapped 3 (by decide) op _ third).mpr (.inl (by decide)), rfl, rfl⟩

/-- Three insertions and a removal, one call after the other: the head has
wrapped, two commands are pending and the queue reports one. -/
theorem not_countsPending_wrapped :
    ∃ state, (system (fun call : Fin 4 => if call = 2 then .get else .put ⟨1, ()⟩) 3).Reachable
      state ∧ ¬ CountsPending 3 state := by
  let op : Fin 4 → Op Unit := fun call => if call = 2 then .get else .put ⟨1, ()⟩
  have fresh : (system op 3).Reachable (.fresh 3 fun _ => ⟨0, ()⟩) := .start ⟨_, rfl⟩
  have first := (fresh.step (@Step.call _ _ _ op _ 0 rfl)).step
    (@Step.insert _ _ _ op _ 0 ⟨1, ()⟩ none (.inl rfl) rfl (by decide)
      (fun other _ asleep => by match other with | 0 | 1 | 2 | 3 => cases asleep))
  have second := (first.step (@Step.call _ _ _ op _ 1 rfl)).step
    (@Step.insert _ _ _ op _ 1 ⟨1, ()⟩ none (.inl rfl) rfl (by decide)
      (fun other _ asleep => by match other with | 0 | 1 | 2 | 3 => cases asleep))
  have third := (second.step (@Step.call _ _ _ op _ 2 rfl)).step
    (@Step.remove _ _ _ op _ 2 none (.inl rfl) rfl (by decide)
      (fun other _ asleep => by match other with | 0 | 1 | 2 | 3 => cases asleep))
  have fourth := (third.step (@Step.call _ _ _ op _ 3 rfl)).step
    (@Step.insert _ _ _ op _ 3 ⟨1, ()⟩ none (.inl rfl) rfl (by decide)
      (fun other _ asleep => by match other with | 0 | 1 | 2 | 3 => cases asleep))
  refine ⟨_, fourth, ?_⟩
  intro counts
  have reported : 1 + 1 = 3 := counts.size_eq
  omega

end Striga.Greenev.CondCmdQTraffic
