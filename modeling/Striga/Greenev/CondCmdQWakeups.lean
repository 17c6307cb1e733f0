import Striga.Greenev.CondCmdQTraffic
import Striga.Lib.WaitSet

/-! The two condition variables of `cond_cmd_q`: who sleeps on them, who was
woken, and what there is to insert or to remove for those who wait. -/

set_option autoImplicit false

namespace Striga.Greenev.CondCmdQTraffic

open Lib

variable {Call Arg : Type} [DecidableEq Call] {op : Call → Op Arg} {size : UInt32}
  {state : State Call Arg}

/-- The calls that wait on `q_not_full`, where they wait to insert, or on
`q_not_empty`. -/
def State.waiters (op : Call → Op Arg) (state : State Call Arg) (waitsToInsert : Bool) :
    WaitSet Call where
  asleep := {call | (op call).inserts.isSome = waitsToInsert ∧ state.phase call = .asleep}
  woken := {call | (op call).inserts.isSome = waitsToInsert ∧ state.phase call = .woken}

/-- Free places for the calls that wait to insert, pending commands for those
that wait to remove. -/
def State.supply (size : UInt32) (state : State Call Arg) (waitsToInsert : Bool) : Nat :=
  if waitsToInsert then size.toNat - 1 - state.queue.pending.length
  else state.queue.pending.length

def Covered (op : Call → Op Arg) (size : UInt32) (state : State Call Arg) : Prop :=
  ∀ waitsToInsert, (state.waiters op waitsToInsert).Covers (state.supply size waitsToInsert)

@[simp] theorem supply_enter (call : Call) (phase : Phase Arg) (waitsToInsert : Bool) :
    (state.enter call phase).supply size waitsToInsert = state.supply size waitsToInsert := rfl

private theorem asleep_enter (call : Call) {phase : Phase Arg} (awake : phase ≠ .asleep)
    (waitsToInsert : Bool) :
    ((state.enter call phase).waiters op waitsToInsert).asleep ⊆
      (state.waiters op waitsToInsert).asleep := by
  intro other sleeps
  obtain ⟨kind, asleep⟩ := sleeps
  by_cases same : other = call
  · subst same
    simp [State.enter, awake] at asleep
  · exact ⟨kind, by simpa [State.enter, same] using asleep⟩

private theorem woken_enter (call : Call) (phase : Phase Arg) (waitsToInsert : Bool) :
    (state.waiters op waitsToInsert).woken ⊆
      insert call ((state.enter call phase).waiters op waitsToInsert).woken := by
  intro other woken
  obtain ⟨kind, awake⟩ := woken
  by_cases same : other = call
  · exact .inl same
  · exact .inr ⟨kind, by simpa [State.enter, same] using awake⟩

private theorem woken_enter_of_ne {call : Call} {phase : Phase Arg} {waitsToInsert : Bool}
    (kept : state.phase call = .woken → (op call).inserts.isSome ≠ waitsToInsert ∨ phase = .woken) :
    (state.waiters op waitsToInsert).woken ⊆
      ((state.enter call phase).waiters op waitsToInsert).woken := by
  intro other woken
  obtain ⟨kind, awake⟩ := woken
  refine ⟨kind, ?_⟩
  by_cases same : other = call
  · subst same
    rcases kept awake with differs | stays
    · exact absurd kind differs
    · simp [State.enter, stays]
  · simpa [State.enter, same] using awake

theorem Covered.enter (covered : Covered op size state) {call : Call} {phase : Phase Arg}
    (awake : phase ≠ .asleep) (kept : state.phase call = .woken → phase = .woken) :
    Covered op size (state.enter call phase) := by
  intro waitsToInsert
  apply (covered waitsToInsert).mono
  · exact asleep_enter call awake waitsToInsert
  · exact woken_enter_of_ne fun woken => .inr (kept woken)

omit [DecidableEq Call] in
private theorem supply_of_mustWait (valid : state.queue.WellFormed) {call : Call}
    (must : (op call).mustWait state.queue = true) :
    state.supply state.queue.qSize (op call).inserts.isSome = 0 := by
  unfold Op.mustWait at must
  unfold State.supply
  split at must
  · rename_i inserts
    rw [if_pos inserts, valid.full_iff.mp must, Nat.sub_self]
  · rename_i removes
    rw [if_neg removes, valid.empty_iff.mp must, List.length_nil]

/-- A call goes to sleep only where there is nothing for it to take. -/
theorem Covered.wait (covered : Covered op size state) {call : Call}
    (none : state.supply size (op call).inserts.isSome = 0) :
    Covered op size (state.enter call .asleep) := by
  intro waitsToInsert
  by_cases kind : (op call).inserts.isSome = waitsToInsert
  · subst kind
    rw [supply_enter, none]
    exact WaitSet.Covers.zero
  · apply (covered waitsToInsert).mono
    · intro other sleeps
      obtain ⟨same, asleep⟩ := sleeps
      have differs : other ≠ call := fun equal => kind (equal ▸ same)
      exact ⟨same, by simpa [State.enter, differs] using asleep⟩
    · exact woken_enter_of_ne fun _ => .inl kind

private theorem woken_wake {call : Call} {waitsToInsert : Bool}
    (kind : (op call).inserts.isSome = waitsToInsert) :
    insert call (state.waiters op waitsToInsert).woken ⊆
      ((state.enter call .woken).waiters op waitsToInsert).woken := by
  apply Set.insert_subset
  · exact ⟨kind, by simp [State.enter]⟩
  · exact woken_enter_of_ne fun _ => .inr rfl

omit [DecidableEq Call] in
private theorem waiters_congr {changed : State Call Arg} (same : changed.phase = state.phase)
    (waitsToInsert : Bool) : changed.waiters op waitsToInsert = state.waiters op waitsToInsert := by
  simp [State.waiters, same]

private theorem signal_phase {changed : State Call Arg} (same : changed.phase = state.phase)
    (signalled : Option Call) :
    (changed.signal signalled).phase = (state.signal signalled).phase := by
  cases signalled with
  | none => exact same
  | some other => simp [State.signal, State.enter, same]

/-- One critical section takes from the supply of its own kind and adds to that
of the other, of which it signals one. -/
theorem Covered.pass {changed : State Call Arg} (covered : Covered op size state) {call : Call}
    {signalled : Option Call} {result : Int} {cmdOut : Option (Cmd Arg)} {kind : Bool}
    (own : (op call).inserts.isSome = kind) (signals : Signals op state (!kind) signalled)
    (same : changed.phase = state.phase)
    (taken : state.supply size kind = changed.supply size kind + 1)
    (given : changed.supply size (!kind) = state.supply size (!kind) + 1) :
    Covered op size ((changed.signal signalled).enter call (.returned result cmdOut)) := by
  let next := (changed.signal signalled).enter call (.returned result cmdOut)
  have unsignalled : ∀ waitsToInsert,
      (changed.signal signalled).supply size waitsToInsert = changed.supply size waitsToInsert := by
    intro waitsToInsert
    simp [State.supply]
  have woken : ∀ waitsToInsert, (changed.signal signalled).waiters op waitsToInsert =
      (state.signal signalled).waiters op waitsToInsert :=
    waiters_congr (signal_phase same signalled)
  have fewer : ∀ waitsToInsert, (next.waiters op waitsToInsert).asleep ⊆
      (state.waiters op waitsToInsert).asleep := by
    intro waitsToInsert
    apply (asleep_enter call (by simp) waitsToInsert).trans
    rw [woken]
    cases signalled with
    | none => exact subset_rfl
    | some other => exact asleep_enter other (by simp) waitsToInsert
  intro waitsToInsert
  rw [supply_enter, unsignalled]
  by_cases taker : waitsToInsert = kind
  · subst taker
    apply (taken ▸ covered waitsToInsert).take (fewer waitsToInsert)
    · apply Set.Subset.trans _ (woken_enter call _ waitsToInsert)
      rw [woken]
      cases signalled with
      | none => exact subset_rfl
      | some other => exact woken_enter_of_ne fun _ => .inr rfl
  · have opposite : waitsToInsert = !kind := by
      cases waitsToInsert <;> cases kind <;> simp at taker ⊢
    subst opposite
    rw [given]
    cases signalled with
    | none =>
        apply WaitSet.Covers.of_none_asleep
        apply Set.eq_empty_of_subset_empty
        intro other sleeps
        obtain ⟨waits, asleep⟩ := fewer _ sleeps
        exact signals other waits asleep
    | some other =>
        obtain ⟨asleep, waits⟩ := signals
        apply (covered _).wake
        · intro woken
          exact absurd (asleep.symm.trans woken.2) (by simp)
        · exact ⟨waits, asleep⟩
        · apply (woken_wake waits).trans
          change ((state.signal (some other)).waiters op _).woken ⊆ _
          rw [← woken]
          exact woken_enter_of_ne fun _ => .inl (by simp [own])

theorem Covered.insert (covered : Covered op state.queue.qSize state)
    (valid : state.queue.WellFormed) {call : Call} {cmd : Cmd Arg}
    {signalled : Option Call} (inserts : (op call).inserts = some cmd)
    (room : state.queue.full = false) (signals : Signals op state false signalled) :
    Covered op state.queue.qSize (state.insert call cmd signalled) := by
  have longer := valid.pending_putInternal room cmd
  have used := valid.length_lt
  have places : state.queue.pending.length ≠ state.queue.qSize.toNat - 1 := by
    rw [Ne, ← valid.full_iff, room]
    exact Bool.false_ne_true
  have own : (op call).inserts.isSome = true := by rw [inserts, Option.isSome_some]
  unfold State.insert
  apply covered.pass own signals
  · rfl
  · simp [State.supply, longer]
    omega
  · simp [State.supply, longer]

theorem Covered.remove (covered : Covered op state.queue.qSize state)
    (valid : state.queue.WellFormed) {call : Call} {signalled : Option Call}
    (removes : (op call).inserts = none) (filled : state.queue.empty = false)
    (signals : Signals op state true signalled) :
    Covered op state.queue.qSize (state.remove call signalled) := by
  have shorter := valid.pending_getInternal filled
  have used := valid.length_lt
  have own : (op call).inserts.isSome = false := by rw [removes, Option.isSome_none]
  rw [shorter, List.length_cons] at used
  unfold State.remove
  apply covered.pass own signals
  · rfl
  · simp [State.supply, shorter]
  · simp [State.supply, shorter]
    omega

theorem covered (positive : 0 < size) (reachable : (system op size).Reachable state) :
    Covered op size state := by
  induction reachable with
  | start starts =>
      obtain ⟨block, rfl⟩ := starts
      intro waitsToInsert
      apply WaitSet.Covers.of_none_asleep
      simp [State.waiters, State.fresh]
  | step earlier taken covered =>
      have valid := wellFormed positive earlier
      have sameSize := size_eq positive earlier
      subst sameSize
      cases taken with
      | call idle =>
          apply covered.enter
          · split <;> simp
          · simp [idle]
      | wait holds must => exact covered.wait (supply_of_mustWait valid must)
      | insert holds inserts room signals => exact covered.insert valid inserts room signals
      | remove holds removes filled signals => exact covered.remove valid removes filled signals
      | wakeup asleep => exact covered.enter (by simp) (by simp [asleep])
      | expire asleep _ => exact covered.enter (by simp) (by simp [asleep])
      | timeout expired => exact covered.enter (by simp) (by simp [expired])

/-- No wake-up is lost, on either condition variable. -/
structure NoLostWakeup (op : Call → Op Arg) (size : UInt32) (state : State Call Arg) : Prop where
  consumers : (∃ call, (op call).inserts = none ∧ state.phase call = .asleep) →
    (state.queue.pending.length : ℕ∞) ≤
      {call | (op call).inserts = none ∧ state.phase call = .woken}.encard
  producers : (∃ call, (op call).inserts.isSome ∧ state.phase call = .asleep) →
    ((size.toNat - 1 - state.queue.pending.length : Nat) : ℕ∞) ≤
      {call | (op call).inserts.isSome ∧ state.phase call = .woken}.encard

theorem sleepersCovered (size : UInt32) (positive : 0 < size) (op : Call → Op Arg)
    (state : State Call Arg) (reachable : (system op size).Reachable state) :
    NoLostWakeup op size state := by
  have covers := covered positive reachable
  constructor
  · intro sleeps
    have sleeping : (state.waiters op false).asleep.Nonempty := by
      simpa [State.waiters, Set.Nonempty] using sleeps
    simpa [State.waiters, State.supply] using covers false sleeping
  · intro sleeps
    exact covers true sleeps

/-- Two calls to take a command are asleep when one is put. -/
theorem sleepersCovered_one_of_two : ∃ state : State (Fin 3) Nat,
    NoLostWakeup (fun call => if call = 2 then .put ⟨1, 2⟩ else .get) 3 state ∧
      state.queue.pending = [⟨1, 2⟩] ∧ state.phase 0 = .woken ∧ state.phase 1 = .asleep := by
  let op : Fin 3 → Op Nat := fun call => if call = 2 then .put ⟨1, 2⟩ else .get
  have fresh : (system op 3).Reachable (.fresh 3 fun _ => ⟨0, 0⟩) := .start ⟨_, rfl⟩
  have first := (fresh.step (@Step.call _ _ _ op _ 0 rfl)).step
    (@Step.wait _ _ _ op _ 0 (.inl rfl) (by decide))
  have second := (first.step (@Step.call _ _ _ op _ 1 rfl)).step
    (@Step.wait _ _ _ op _ 1 (.inl rfl) (by decide))
  have inserted := (second.step (@Step.call _ _ _ op _ 2 rfl)).step
    (@Step.insert _ _ _ op _ 2 ⟨1, 2⟩ (some 0) (.inl rfl) rfl (by decide) ⟨rfl, rfl⟩)
  exact ⟨_, sleepersCovered 3 (by decide) op _ inserted, rfl, rfl, rfl⟩

/-- Nobody has the mutex or is on the way to it, and calls of both kinds sleep. -/
structure Deadlocked (op : Call → Op Arg) (state : State Call Arg) : Prop where
  producer : ∃ call, (op call).inserts.isSome ∧ state.phase call = .asleep
  consumer : ∃ call, (op call).inserts = none ∧ state.phase call = .asleep
  nobody_woken : ∀ call, state.phase call ≠ .woken
  nobody_running : ∀ call, state.phase call ≠ .entering ∧ state.phase call ≠ .expired

structure DeadlockFree (op : Call → Op Arg) (state : State Call Arg) : Prop where
  not_full_and_empty : ¬(state.queue.full = true ∧ state.queue.empty = true)
  not_deadlocked : ¬Deadlocked op state

omit [DecidableEq Call] in
private theorem deadlockFree_of_covered (valid : state.queue.WellFormed)
    (wide : 2 ≤ state.queue.qSize)
    (covered : Covered op state.queue.qSize state) : DeadlockFree op state := by
  have room : 2 ≤ state.queue.qSize.toNat := UInt32.le_iff_toNat_le.mp wide
  have used := valid.length_lt
  constructor
  · intro both
    obtain ⟨full, empty⟩ := both
    rw [valid.full_iff, valid.empty_iff.mp empty, List.length_nil] at full
    omega
  · intro deadlocked
    obtain ⟨producer, inserts, producerAsleep⟩ := deadlocked.producer
    obtain ⟨consumer, removes, consumerAsleep⟩ := deadlocked.consumer
    have noneWoken : ∀ kind, ¬(state.waiters op kind).woken.Nonempty := by
      intro kind woken
      obtain ⟨call, _, awake⟩ := woken
      exact deadlocked.nobody_woken call awake
    cases pending : state.queue.pending.length with
    | zero =>
        have places : state.supply state.queue.qSize true = state.queue.qSize.toNat - 2 + 1 := by
          simp [State.supply, pending]
          omega
        have covers := covered true
        rw [places] at covers
        exact noneWoken true (covers.exists_woken ⟨inserts, producerAsleep⟩)
    | succ rest =>
        have covers := covered false
        rw [show state.supply state.queue.qSize false = rest + 1 from pending] at covers
        exact noneWoken false (covers.exists_woken ⟨by simp [removes], consumerAsleep⟩)

private theorem enter_enter (call : Call) (first second : Phase Arg) :
    (state.enter call first).enter call second = state.enter call second := by
  simp [State.enter]

private theorem falls_asleep (reachable : (system op size).Reachable state)
    (asserts : state.queue.asserts = true) {call : Call} (idle : state.phase call = .idle)
    (must : (op call).mustWait state.queue = true) :
    (system op size).Reachable (state.enter call .asleep) := by
  have called := reachable.step (@Step.call _ _ _ op _ call idle)
  rw [if_pos asserts] at called
  have holds : (state.enter call .entering).Holds call := .inl (by simp [State.enter])
  have asleep := called.step (@Step.wait _ _ _ op _ call holds must)
  rwa [enter_enter] at asleep

/-- With one place, which is the one that is always left free, one call of each
kind is enough: both have to wait. -/
theorem deadlocks_with_one_place {producer consumer : Call} (block : Nat → Cmd Arg)
    (inserts : (op producer).inserts.isSome) (removes : (op consumer).inserts = none) :
    ∃ state, (system op 1).Reachable state ∧ Deadlocked op state := by
  let fresh : State Call Arg := .fresh 1 block
  have full : fresh.queue.full = true := by simp [fresh, State.fresh, CondCmdQ.new, CondCmdQ.full]
  have empty : fresh.queue.empty = true := by
    simp [fresh, State.fresh, CondCmdQ.new, CondCmdQ.empty]
  have asserts : fresh.queue.asserts = true := by
    simp [fresh, State.fresh, CondCmdQ.new, CondCmdQ.asserts]
  have differs : producer ≠ consumer := by
    intro same
    rw [same, removes] at inserts
    cases inserts
  have started : (system op 1).Reachable fresh := .start ⟨block, rfl⟩
  have put := falls_asleep started asserts rfl (show (op producer).mustWait _ = true by
    simp [Op.mustWait, inserts, full])
  have get := falls_asleep put asserts
    (show _ = Phase.idle by simp [State.enter, fresh, State.fresh, Ne.symm differs])
    (show (op consumer).mustWait _ = true by simp [Op.mustWait, removes, empty])
  have phases : ∀ call,
      ((fresh.enter producer .asleep).enter consumer .asleep).phase call = .asleep ∨
      ((fresh.enter producer .asleep).enter consumer .asleep).phase call = .idle := by
    intro call
    by_cases isConsumer : call = consumer
    · exact .inl (by simp [State.enter, isConsumer])
    · by_cases isProducer : call = producer
      · exact .inl (by simp [State.enter, isProducer, differs])
      · exact .inr (by simp [State.enter, isConsumer, isProducer, fresh, State.fresh])
  refine ⟨_, get, ⟨producer, inserts, ?_⟩, ⟨consumer, removes, ?_⟩, ?_, ?_⟩
  · simp [State.enter, differs]
  · simp [State.enter]
  · intro call
    rcases phases call with asleep | idle <;> simp [*]
  · intro call
    rcases phases call with asleep | idle <;> simp [*]

/-- A queue of one place never has room for a command: its only place is the one
that is always left free. -/
theorem deadlockFree_iff (size : UInt32) (positive : 0 < size) (op : Call → Op Arg)
    (block : Nat → Cmd Arg) :
    (∀ state, (system op size).Reachable state → DeadlockFree op state) ↔ 2 ≤ size := by
  constructor
  · intro free
    by_contra narrow
    have one : size = 1 := by
      have least := UInt32.lt_iff_toNat_lt.mp positive
      have most := UInt32.lt_iff_toNat_lt.mp (UInt32.not_le.mp narrow)
      apply UInt32.toNat_inj.mp
      simp at least most ⊢
      omega
    subst one
    have fresh := free (.fresh 1 block) (.start ⟨block, rfl⟩)
    exact fresh.not_full_and_empty
      ⟨by simp [State.fresh, CondCmdQ.new, CondCmdQ.full],
        by simp [State.fresh, CondCmdQ.new, CondCmdQ.empty]⟩
  · intro wide state reachable
    have valid := wellFormed positive reachable
    have sameSize := size_eq positive reachable
    have covers := covered positive reachable
    subst sameSize
    exact deadlockFree_of_covered valid wide covers

theorem deadlockFree_iff_two_places :
    let op : Fin 4 → Op Nat := fun call => if call < 2 then .get else .put ⟨1, call.val⟩
    ∀ state, (system op 2).Reachable state → DeadlockFree op state :=
  (deadlockFree_iff 2 (by decide) _ fun _ => ⟨0, 0⟩).mpr (by decide)

/-- A `cond_cmd_q_put` and a `cond_cmd_q_get` that sleep for ever. -/
theorem oneCommandQueueDeadlocks :
    ¬∀ size : UInt32, 0 < size → ∀ (op : Bool → Op Unit),
      (∀ call, (op call).timed = false) →
      ∀ state, (system op size).Reachable state → ¬Deadlocked op state := by
  intro always
  let op : Bool → Op Unit := fun call => if call then .put ⟨1, ()⟩ else .get
  have untimed : ∀ call, (op call).timed = false := by decide
  have deadlocks : ∃ state, (system op 1).Reachable state ∧ Deadlocked op state :=
    @deadlocks_with_one_place _ _ _ op true false (fun _ => ⟨0, ()⟩) rfl rfl
  obtain ⟨state, reachable, deadlocked⟩ := deadlocks
  exact always 1 (by decide) op untimed state reachable deadlocked

end Striga.Greenev.CondCmdQTraffic
