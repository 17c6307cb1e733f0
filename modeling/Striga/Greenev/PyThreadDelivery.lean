import Striga.Greenev.PyThread

/-! The command of `py_thread_die` ends one event loop and no other, however many
of them wait for it, and is not lost on the way. -/

set_option autoImplicit false

namespace Striga.Greenev

open Lib

namespace CondCmdQTraffic

variable {Call Arg : Type} [DecidableEq Call] {op : Call → Op Arg} {size : UInt32}
  {state next : State Call Arg}

private theorem enter_phase_of_ne {call other : Call} {phase : Phase Arg} (differs : other ≠ call) :
    (state.enter call phase).phase other = state.phase other :=
  Function.update_of_ne differs _ _

/-- The signal of a call concerns a sleeper only. -/
private theorem signal_phase_cases {changed : State Call Arg} (kept : changed.phase = state.phase)
    {waitsToInsert : Bool} {signalled : Option Call}
    (signals : Signals op state waitsToInsert signalled) (call : Call) :
    (changed.signal signalled).phase call = state.phase call ∨
      state.phase call = .asleep ∧ (changed.signal signalled).phase call = .woken := by
  cases signalled with
  | none => exact .inl (congrFun kept call)
  | some other =>
      by_cases same : call = other
      · subst same
        exact .inr ⟨signals.1, Function.update_self _ _ _⟩
      · exact .inl ((enter_phase_of_ne same).trans (congrFun kept call))

/-- A step of one call at most wakes another. -/
theorem step_phase_of_ne {label : Label Call} (taken : Step op state label next) {call : Call}
    (other : call ≠ PyThreadRun.caller label) :
    next.phase call = state.phase call ∨
      state.phase call = .asleep ∧ next.phase call = .woken := by
  cases taken with
  | call | wait | wakeup | expire | timeout => exact .inl (enter_phase_of_ne other)
  | @insert own cmd signalled holds inserts room signals =>
      have differs : call ≠ own := other
      rw [State.insert, enter_phase_of_ne differs]
      refine signal_phase_cases ?_ signals call
      rfl
  | @remove own signalled holds removes filled signals =>
      have differs : call ≠ own := other
      rw [State.remove, enter_phase_of_ne differs]
      refine signal_phase_cases ?_ signals call
      rfl

theorem step_outcome_of_ne {label : Label Call} (taken : Step op state label next) {call : Call}
    (other : call ≠ PyThreadRun.caller label) : next.outcome call = state.outcome call := by
  unfold State.outcome
  rcases step_phase_of_ne taken other with same | ⟨asleep, woken⟩
  · rw [same]
  · rw [asleep, woken]
    rfl

/-- A call that has returned takes no step. -/
private theorem step_unfinished {label : Label Call} (taken : Step op state label next) :
    state.outcome (PyThreadRun.caller label) = none := by
  cases taken with
  | call phase | wakeup phase | expire phase | timeout phase =>
      simp [State.outcome, PyThreadRun.caller, phase, Phase.outcome]
  | wait holds | insert holds | remove holds => exact holds.outcome

private theorem step_outcome_of_returned {label : Label Call} (taken : Step op state label next)
    {call : Call} {outcome : Int × Option (Cmd Arg)}
    (returned : state.outcome call = some outcome) :
    next.outcome call = some outcome := by
  have other : call ≠ PyThreadRun.caller label := by
    intro same
    rw [same, step_unfinished taken] at returned
    cases returned
  exact (step_outcome_of_ne taken other).trans returned

/-- Only a timed call comes to its deadline, and what a call returns fits what it
is for. -/
structure Shaped (op : Call → Op Arg) (state : State Call Arg) : Prop where
  expired : ∀ call, state.phase call = .expired → (op call).timed = true
  outcome : ∀ call res cmdOut, state.outcome call = some (res, cmdOut) →
    (res = 0 ∧ cmdOut = none ∧ (op call).timed = true) ∨
      (res = 1 ∧ cmdOut.isSome = (op call).inserts.isNone)

omit [DecidableEq Call] in
theorem Shaped.step_caller (shaped : Shaped op state) {call : Call}
    (others : ∀ other, other ≠ call → next.phase other = state.phase other ∨
      state.phase other = .asleep ∧ next.phase other = .woken)
    (expired : next.phase call = .expired → (op call).timed = true)
    (outcome : ∀ res cmdOut, next.outcome call = some (res, cmdOut) →
      (res = 0 ∧ cmdOut = none ∧ (op call).timed = true) ∨
        (res = 1 ∧ cmdOut.isSome = (op call).inserts.isNone)) : Shaped op next := by
  constructor
  · intro other late
    by_cases same : other = call
    · subst same
      exact expired late
    · rcases others other same with kept | ⟨_, woken⟩
      · exact shaped.expired other (kept ▸ late)
      · cases woken.symm.trans late
  · intro other res cmdOut done
    by_cases same : other = call
    · subst same
      exact outcome res cmdOut done
    · rcases others other same with kept | ⟨_, woken⟩
      · exact shaped.outcome other res cmdOut (by rwa [State.outcome, ← kept])
      · rw [State.outcome, woken] at done
        cases done

theorem Shaped.step (shaped : Shaped op state) {label : Label Call}
    (taken : Step op state label next) : Shaped op next := by
  have others := fun other differs => @step_phase_of_ne _ _ _ _ _ _ _ taken other differs
  cases taken with
  | @call call idle =>
      refine shaped.step_caller others ?_ ?_ <;>
        cases state.queue.asserts <;>
        simp [State.outcome, State.enter, Phase.outcome, PyThreadRun.caller]
  | wait | wakeup =>
      refine shaped.step_caller others ?_ ?_ <;>
        simp [State.outcome, State.enter, Phase.outcome, PyThreadRun.caller]
  | expire asleep timed =>
      refine shaped.step_caller others (fun _ => timed) ?_
      simp [State.outcome, State.enter, Phase.outcome, PyThreadRun.caller]
  | timeout expired =>
      have timed := shaped.expired _ expired
      refine shaped.step_caller others (fun _ => timed) ?_
      intro res cmdOut done
      have same : (0, none) = (res, cmdOut) := by
        simpa [State.outcome, State.enter, Phase.outcome, PyThreadRun.caller] using done
      cases same
      exact .inl ⟨rfl, rfl, timed⟩
  | insert holds inserts room signals =>
      refine shaped.step_caller others (by simp [State.insert, State.enter, PyThreadRun.caller]) ?_
      intro res cmdOut done
      have same : (1, none) = (res, cmdOut) := by
        simpa [State.outcome, State.insert, State.enter, Phase.outcome, PyThreadRun.caller]
          using done
      cases same
      exact .inr ⟨rfl, by simp [PyThreadRun.caller, inserts]⟩
  | remove holds removes filled signals =>
      refine shaped.step_caller others (by simp [State.remove, State.enter, PyThreadRun.caller]) ?_
      intro res cmdOut done
      have same : (1, some state.queue.getInternal.1) = (res, cmdOut) := by
        simpa [State.outcome, State.remove, State.enter, Phase.outcome, PyThreadRun.caller]
          using done
      cases same
      exact .inr ⟨rfl, by simp [PyThreadRun.caller, removes]⟩

theorem shaped (reachable : (system op size).Reachable state) : Shaped op state := by
  refine reachable.invariant (Shaped op) ?_ ?_
  · intro state starts
    obtain ⟨block, rfl⟩ := starts
    constructor <;> simp [State.fresh, State.outcome, Phase.outcome]
  · exact fun state label next before taken => before.step taken

/-- What was inserted is what was removed and what is left. -/
theorem inserted_eq (positive : 0 < size) (reachable : (system op size).Reachable state) :
    state.inserted.map Prod.snd = state.removed.map Prod.snd ++ state.queue.pending := by
  obtain ⟨history, reached, same⟩ := refines_history positive reachable
  rw [← same.accepted, History.accepted_eq reached, same.removed, same.queue.items_eq]

end CondCmdQTraffic

namespace PyThreadRun

variable {Loop : Type} [DecidableEq Loop] {state next : State Loop}

/-- What the place of an event loop tells about the call of its present round. -/
def Place.Knows (place : Place) (outcome : Option (Int × Option (Cmd Unit))) : Prop :=
  match place with
  | .python => outcome = some (0, none)
  | .waiting => True
  | .restoring result =>
      (outcome = some (0, none) ∧ result = .none) ∨
        (outcome = some (1, some dieCmd) ∧ result = .number pytCmdIoThreadDie)
  | .broke => outcome = some (1, some dieCmd)
  | .raised => False

structure Valid (state : State Loop) : Prop where
  queue : (CondCmdQTraffic.system op 256).Reachable state.queue
  started : ∀ loop, state.round loop = 0 → state.place loop = .python
  knows : ∀ loop, 0 < state.round loop →
    (state.place loop).Knows (state.queue.outcome (state.current loop))
  past : ∀ loop number, 0 < number → number < state.round loop →
    state.queue.outcome (.round loop number) = some (0, none)
  unborn : ∀ loop number, number = 0 ∨ state.round loop < number →
    state.queue.phase (.round loop number) = .idle
  gil : ∀ loop, state.gil = some (.loop loop) → (state.place loop).interprets = true

omit [DecidableEq Loop] in
theorem op_inserts {call : Call Loop} {cmd : Cmd Unit} (inserts : (op call).inserts = some cmd) :
    call = .die ∧ cmd = dieCmd := by
  cases call with
  | die => exact ⟨rfl, (Option.some.inj inserts).symm⟩
  | round => cases inserts

/-- Nothing but `dieCmd` is ever put, and that once. -/
theorem Valid.inserted (valid : Valid state) :
    state.queue.inserted = [] ∨ state.queue.inserted = [(.die, dieCmd)] := by
  have recorded := CondCmdQTraffic.callsRecorded valid.queue
  have only : ∀ entry ∈ state.queue.inserted, entry = (.die, dieCmd) := by
    intro entry member
    obtain ⟨call, cmd⟩ := entry
    obtain ⟨rfl, rfl⟩ := op_inserts ((recorded.inserted_iff call cmd).mp member).1
    rfl
  have once := recorded.inserted_nodup
  match entries : state.queue.inserted with
  | [] => exact .inl rfl
  | [entry] => exact .inr (by rw [only entry (by simp [entries])])
  | first :: second :: rest =>
      rw [entries, only first (by simp [entries]), only second (by simp [entries])] at once
      simp at once

theorem Valid.removed (valid : Valid state) :
    state.queue.removed = [] ∧ state.queue.inserted.map Prod.snd = state.queue.queue.pending ∨
      ∃ call, state.queue.removed = [(call, dieCmd)] ∧
        state.queue.inserted = [(.die, dieCmd)] ∧ state.queue.queue.pending = [] := by
  have split := CondCmdQTraffic.inserted_eq (by decide) valid.queue
  rcases valid.inserted with none | once
  · rw [none, List.map_nil, List.nil_eq_append_iff] at split
    exact .inl ⟨List.map_eq_nil_iff.mp split.1, by rw [none, split.2]; rfl⟩
  · match entries : state.queue.removed with
    | [] =>
        rw [entries] at split
        exact .inl ⟨rfl, split⟩
    | (call, cmd) :: rest =>
        rw [once, entries] at split
        simp only [List.map_cons, List.map_nil, List.cons_append, List.cons.injEq,
          List.nil_eq_append_iff, List.map_eq_nil_iff] at split
        obtain ⟨rfl, rfl, empty⟩ := split
        exact .inr ⟨call, rfl, once, empty⟩

/-- A call of a round has come to its deadline, or has got `dieCmd`. -/
theorem Valid.outcome_round (valid : Valid state) {loop : Loop} {number : Nat} {res : Int}
    {cmdOut : Option (Cmd Unit)}
    (done : state.queue.outcome (.round loop number) = some (res, cmdOut)) :
    (res = 0 ∧ cmdOut = none) ∨ (res = 1 ∧ cmdOut = some dieCmd) := by
  rcases (CondCmdQTraffic.shaped valid.queue).outcome _ _ _ done with ⟨zero, none, _⟩ |
    ⟨one, stored⟩
  · exact .inl ⟨zero, none⟩
  · obtain ⟨cmd, rfl⟩ := Option.isSome_iff_exists.mp stored
    subst one
    have member := ((CondCmdQTraffic.callsRecorded valid.queue).removed_iff _ _).mpr done
    rcases valid.removed with ⟨none, _⟩ | ⟨call, once, _⟩
    · rw [none] at member
      cases member
    · rw [once, List.mem_singleton, Prod.mk.injEq] at member
      exact .inr ⟨rfl, congrArg some member.2⟩

theorem Valid.fresh (block : Nat → Cmd Unit) : Valid (State.fresh block : State Loop) where
  queue := .start ⟨block, rfl⟩
  started _ _ := rfl
  knows _ positive := absurd positive (Nat.lt_irrefl 0)
  past _ _ _ less := absurd less (Nat.not_lt_zero _)
  unborn _ _ _ := rfl
  gil _ held := by cases held

theorem Valid.gil_only (valid : Valid state) {gil : Option (Thread Loop)}
    (holds : ∀ loop, gil = some (.loop loop) → (state.place loop).interprets = true) :
    Valid { state with gil := gil } :=
  { valid with knows := valid.knows, gil := holds }

/-- A step on the queue by a call that is not of a round past or to come. -/
theorem Valid.traffic (valid : Valid state) {label : CondCmdQTraffic.Label (Call Loop)}
    {queue : CondCmdQTraffic.State (Call Loop) Unit}
    (taken : CondCmdQTraffic.Step op state.queue label queue)
    (present : ∀ loop number, caller label = .round loop number →
      state.place loop = .waiting ∧ number = state.round loop) :
    Valid { state with queue := queue } := by
  refine {
    queue := valid.queue.step taken
    started := valid.started
    knows := ?_
    past := ?_
    unborn := ?_
    gil := valid.gil }
  · intro loop positive
    by_cases own : caller label = state.current loop
    · change (state.place loop).Knows (queue.outcome (state.current loop))
      rw [(present loop _ own).1]
      trivial
    · change (state.place loop).Knows (queue.outcome (state.current loop))
      rw [CondCmdQTraffic.step_outcome_of_ne taken (Ne.symm own)]
      exact valid.knows loop positive
  · intro loop number positive less
    have other : caller label ≠ .round loop number := by
      intro own
      have same := (present loop number own).2
      exact absurd less (same ▸ Nat.lt_irrefl _)
    exact (CondCmdQTraffic.step_outcome_of_ne taken (Ne.symm other)).trans
      (valid.past loop number positive less)
  · intro loop number outside
    have idle := valid.unborn loop number outside
    have other : caller label ≠ .round loop number := by
      intro own
      obtain ⟨waiting, rfl⟩ := present loop number own
      rcases outside with none | ahead
      · cases waiting.symm.trans (valid.started loop none)
      · exact Nat.lt_irrefl _ ahead
    rcases CondCmdQTraffic.step_phase_of_ne taken (Ne.symm other) with same | ⟨asleep, _⟩
    · exact same.trans idle
    · cases idle.symm.trans asleep

/-- A loop moves to another place in the same round. -/
theorem Valid.moveTo (valid : Valid state) {loop : Loop} {place : Place}
    {gil : Option (Thread Loop)} (positive : 0 < state.round loop)
    (knows : place.Knows (state.queue.outcome (state.current loop)))
    (holds : ∀ other, gil = some (.loop other) →
      (Function.update state.place loop place other).interprets = true) :
    Valid { state with gil := gil, place := Function.update state.place loop place } := by
  refine { valid with started := ?_, knows := ?_, gil := holds }
  · intro other none
    have differs : other ≠ loop := by
      intro same
      rw [same] at none
      exact absurd none (Nat.ne_of_gt positive)
    exact (Function.update_of_ne differs _ _).trans (valid.started other none)
  · intro other some
    by_cases same : other = loop
    · subst same
      simp only [Function.update_self]
      exact knows
    · simp only [Function.update_of_ne same]
      exact valid.knows other some

theorem Valid.saveThread (valid : Valid state) {loop : Loop}
    (python : state.place loop = .python) : Valid (state.saveThread loop) := by
  refine {
    queue := valid.queue
    started := ?_
    knows := ?_
    past := ?_
    unborn := ?_
    gil := fun _ held => by cases held }
  · intro other none
    by_cases same : other = loop
    · subst same
      simp [State.saveThread] at none
    · simp only [State.saveThread, Function.update_of_ne same] at none ⊢
      exact valid.started other none
  · intro other some
    by_cases same : other = loop
    · subst same
      simp [State.saveThread, Place.Knows]
    · simp only [State.saveThread, State.current, Function.update_of_ne same] at some ⊢
      exact valid.knows other some
  · intro other number positive less
    by_cases same : other = loop
    · subst same
      simp only [State.saveThread, Function.update_self] at less
      rcases Nat.lt_succ_iff_lt_or_eq.mp less with earlier | rfl
      · exact valid.past other number positive earlier
      · have knows := valid.knows other positive
        rw [python] at knows
        exact knows
    · simp only [State.saveThread, Function.update_of_ne same] at less ⊢
      exact valid.past other number positive less
  · intro other number outside
    apply valid.unborn
    by_cases same : other = loop
    · subst same
      simp only [State.saveThread, Function.update_self] at outside
      exact outside.imp_right fun ahead => Nat.lt_of_succ_lt ahead
    · simpa only [State.saveThread, Function.update_of_ne same] using outside

private theorem nextCmd_knows {res : Int} {cmdOut : Option (Cmd Unit)} {cmd : Cmd Unit}
    (shape : (res = 0 ∧ cmdOut = none) ∨ (res = 1 ∧ cmdOut = some dieCmd))
    (stored : ∀ stored ∈ cmdOut, cmd = stored) :
    (Place.restoring (nextCmd res cmd)).Knows (some (res, cmdOut)) := by
  rcases shape with ⟨rfl, rfl⟩ | ⟨rfl, rfl⟩
  · exact .inl ⟨rfl, rfl⟩
  · obtain rfl := stored dieCmd rfl
    exact .inr ⟨rfl, rfl⟩

theorem Valid.round_pos (valid : Valid state) {loop : Loop} (away : state.place loop ≠ .python) :
    0 < state.round loop :=
  Nat.pos_of_ne_zero fun none => away (valid.started loop none)

theorem Valid.return (valid : Valid state) {loop : Loop} {res : Int} {cmdOut : Option (Cmd Unit)}
    {cmd : Cmd Unit} (waiting : state.place loop = .waiting)
    (returned : state.queue.phase (state.current loop) = .returned res cmdOut)
    (stored : ∀ stored ∈ cmdOut, cmd = stored) :
    Valid { state with
      place := Function.update state.place loop (.restoring (nextCmd res cmd)) } := by
  have outcome : state.queue.outcome (state.current loop) = some (res, cmdOut) := by
    rw [CondCmdQTraffic.State.outcome, returned]
    rfl
  refine valid.moveTo (valid.round_pos (by simp [waiting])) ?_ ?_
  · rw [outcome]
    exact nextCmd_knows (valid.outcome_round outcome) stored
  · intro other held
    have interprets := valid.gil other held
    by_cases same : other = loop
    · rw [same, waiting] at interprets
      cases interprets
    · rwa [Function.update_of_ne same]

theorem Valid.restoreThread (valid : Valid state) {loop : Loop} {result : NextCmd}
    (restoring : state.place loop = .restoring result) :
    Valid (state.restoreThread loop result) := by
  have positive := @Valid.round_pos _ _ _ valid loop (by simp [restoring])
  have knows := valid.knows loop positive
  rw [restoring] at knows
  have arrives : (afterRound result).Knows (state.queue.outcome (state.current loop)) ∧
      (afterRound result).interprets = true := by
    rcases knows with ⟨timeout, rfl⟩ | ⟨got, rfl⟩
    · exact ⟨timeout, rfl⟩
    · exact ⟨got, rfl⟩
  refine valid.moveTo positive arrives.1 ?_
  intro other held
  cases held
  simpa using arrives.2

theorem Valid.step (valid : Valid state) {label : Label Loop} (taken : Step state label next) :
    Valid next := by
  cases taken with
  | acquire free interprets =>
      refine valid.gil_only fun loop held => ?_
      cases held
      exact interprets
  | release held => exact valid.gil_only fun loop none => by cases none
  | call held python => exact valid.saveThread python
  | main taken die =>
      refine valid.traffic taken fun loop number own => ?_
      cases die.symm.trans own
  | traffic waiting own taken =>
      refine valid.traffic taken fun other number again => ?_
      cases own.symm.trans again
      exact ⟨waiting, rfl⟩
  | «return» waiting returned stored => exact valid.return waiting returned stored
  | restore free restoring => exact valid.restoreThread restoring

theorem valid (reachable : (system Loop).Reachable state) : Valid state := by
  refine reachable.invariant Valid ?_ ?_
  · intro state starts
    obtain ⟨block, rfl⟩ := starts
    exact .fresh block
  · exact fun state label next before taken => before.step taken

/-- The loop's present round has taken the command out of the queue. -/
def State.Has (state : State Loop) (loop : Loop) : Prop :=
  state.queue.outcome (state.current loop) = some (1, some dieCmd)

omit [DecidableEq Loop] in
theorem State.current_injective (state : State Loop) : Function.Injective state.current := by
  intro left right same
  cases same
  rfl

theorem Valid.removed_of_has (valid : Valid state) {loop : Loop} (has : state.Has loop) :
    state.queue.removed = [(state.current loop, dieCmd)] ∧ state.queue.queue.pending = [] := by
  have member := ((CondCmdQTraffic.callsRecorded valid.queue).removed_iff _ _).mpr has
  rcases valid.removed with ⟨none, _⟩ | ⟨call, once, _, empty⟩
  · rw [none] at member
    cases member
  · rw [once, List.mem_singleton] at member
    exact ⟨by rw [once, ← member], empty⟩

/-- Whoever has taken the command is in the round that has. -/
theorem Valid.has_of_removed (valid : Valid state) {call : Call Loop}
    (removed : state.queue.outcome call = some (1, some dieCmd)) : ∃ loop, state.Has loop := by
  cases call with
  | die =>
      rcases (CondCmdQTraffic.shaped valid.queue).outcome _ _ _ removed with ⟨_, none, _⟩ |
        ⟨_, shape⟩
      · cases none
      · cases shape
  | round loop number =>
      refine ⟨loop, ?_⟩
      have busy : state.queue.phase (.round loop number) ≠ .idle := by
        intro idle
        rw [CondCmdQTraffic.State.outcome, idle] at removed
        cases removed
      have positive : 0 < number :=
        Nat.pos_of_ne_zero fun none => busy (valid.unborn loop number (.inl none))
      rcases Nat.lt_trichotomy number (state.round loop) with earlier | same | later
      · rw [valid.past loop number positive earlier] at removed
        cases removed
      · rw [State.Has, State.current, ← same]
        exact removed
      · exact absurd (valid.unborn loop number (.inr later)) busy

theorem Valid.known (valid : Valid state) (loop : Loop) (away : state.place loop ≠ .python) :
    (state.place loop).Knows (state.queue.outcome (state.current loop)) :=
  valid.knows loop (valid.round_pos away)

theorem Valid.neverRaised (valid : Valid state) (loop : Loop) : state.place loop ≠ .raised := by
  intro raised
  have known := valid.known loop (by simp [raised])
  rw [raised] at known
  exact known

theorem Valid.has_of_broke (valid : Valid state) {loop : Loop} (broke : state.place loop = .broke) :
    state.Has loop := by
  have known := valid.known loop (by simp [broke])
  rw [broke] at known
  exact known

/-- A loop that has the command is behind its wait. -/
theorem Valid.knows_of_has (valid : Valid state) {loop : Loop} (has : state.Has loop) :
    (state.place loop).Knows (some (1, some dieCmd)) := by
  have positive : 0 < state.round loop := by
    refine Nat.pos_of_ne_zero fun none => ?_
    have idle := valid.unborn loop (state.round loop) (.inl none)
    rw [State.Has, State.current, CondCmdQTraffic.State.outcome, idle] at has
    cases has
  exact has ▸ valid.knows loop positive

theorem Valid.has_step (valid : Valid state) {loop : Loop} (has : state.Has loop)
    {label : Label Loop} (taken : Step state label next) : next.Has loop := by
  cases taken with
  | acquire | release | «return» | restore => exact has
  | main taken | traffic _ _ taken => exact CondCmdQTraffic.step_outcome_of_returned taken has
  | @call other held python =>
      have differs : loop ≠ other := by
        intro same
        subst same
        have knows := valid.knows_of_has has
        rw [python] at knows
        cases knows
      simpa [State.Has, State.current, State.saveThread, Function.update_of_ne differs] using has

/-- No two loops get the command. -/
theorem Valid.has_unique (valid : Valid state) {left right : Loop} (has : state.Has left)
    (again : state.Has right) : left = right := by
  have same := (valid.removed_of_has has).1.symm.trans (valid.removed_of_has again).1
  simp only [List.cons.injEq, Prod.mk.injEq, and_true] at same
  exact state.current_injective same

/-- Once put, the command is in the queue or with a loop. -/
theorem Valid.conserved (valid : Valid state) : state.queue.outcome .die = some (1, none) ↔
    state.queue.queue.pending = [dieCmd] ∨ ∃ loop, state.Has loop := by
  have recorded := CondCmdQTraffic.callsRecorded valid.queue
  have put := recorded.inserted_iff .die dieCmd
  rw [and_iff_right (show (op (.die : Call Loop)).inserts = some dieCmd from rfl)] at put
  rw [← put]
  rcases valid.removed with ⟨none, pending⟩ | ⟨call, once, inserted, empty⟩
  · have nobody : ¬ ∃ loop, state.Has loop := by
      intro someone
      obtain ⟨loop, has⟩ := someone
      have removed := (valid.removed_of_has has).1
      rw [none] at removed
      cases removed
    rw [or_iff_left nobody, ← pending]
    rcases valid.inserted with absent | present
    · simp [absent]
    · simp [present]
  · have got := (recorded.removed_iff call dieCmd).mp (by simp [once])
    exact iff_of_true (by simp [inserted]) (.inr (valid.has_of_removed got))

theorem Valid.called_of_has (valid : Valid state) {loop : Loop} (has : state.Has loop) :
    state.queue.phase .die ≠ .idle := by
  intro idle
  have put := valid.conserved.mpr (.inr ⟨loop, has⟩)
  rw [CondCmdQTraffic.State.outcome, idle] at put
  cases put

/-- The lock is not held across the wait; no loop hears of anything but a time-out
or the command, of the command at most one, and a loop that has broken is that
one; and the command is in the queue or with a loop exactly when its put has
succeeded. -/
structure DeliversOnce (state : State Loop) : Prop where
  unlocked : ∀ loop, (state.place loop).interprets = false → state.gil ≠ some (.loop loop)
  heard : ∀ loop result, state.place loop = .restoring result →
    result = .none ∨ result = .number pytCmdIoThreadDie
  neverRaised : ∀ loop, state.place loop ≠ .raised
  broke : ∀ loop, state.place loop = .broke → state.Has loop
  atMostOne : ∀ left right, state.Has left → state.Has right → left = right
  conserved : state.queue.outcome .die = some (1, none) ↔
    state.queue.queue.pending = [dieCmd] ∨ ∃ loop, state.Has loop
  emptied : ∀ loop, state.Has loop → state.queue.queue.pending = []

theorem deliversOnce (state : State Loop) (reachable : (system Loop).Reachable state) :
    DeliversOnce state := by
  have valid := valid reachable
  refine {
    unlocked := ?_
    heard := ?_
    neverRaised := valid.neverRaised
    broke := fun loop broke => valid.has_of_broke broke
    atMostOne := fun left right has again => valid.has_unique has again
    conserved := valid.conserved
    emptied := fun loop has => (valid.removed_of_has has).2 }
  · intro loop outside held
    cases outside.symm.trans (valid.gil loop held)
  · intro loop result restoring
    have known := valid.known loop (by simp [restoring])
    rw [restoring] at known
    exact known.imp (fun timeout => timeout.2) fun got => got.2

/-- A loop waits for a command, the command to die is put, and the loop gets it. -/
theorem deliversOnce_broke :
    ∃ state : State Unit, state.place () = .broke ∧ DeliversOnce state := by
  have start : (system Unit).Reachable (.fresh fun _ => ⟨0, ()⟩) := .start ⟨_, rfl⟩
  have acquired := start.step (@Step.acquire _ _ _ (.loop ()) rfl rfl)
  have waiting := acquired.step (@Step.call _ _ _ () rfl rfl)
  have called := waiting.step (@Step.traffic _ _ _ () _ _ rfl rfl
    (@CondCmdQTraffic.Step.call _ _ _ op _ (.round () 1) rfl))
  have asleep := called.step (@Step.traffic _ _ _ () _ _ rfl rfl
    (@CondCmdQTraffic.Step.wait _ _ _ op _ (.round () 1) (.inl rfl) (by decide)))
  have putting := asleep.step (.main (@CondCmdQTraffic.Step.call _ _ _ op _ .die rfl) rfl)
  have inserted := putting.step (.main (@CondCmdQTraffic.Step.insert _ _ _ op _ .die dieCmd
    (some (.round () 1)) (.inl rfl) rfl (by decide) ⟨rfl, rfl⟩) rfl)
  have removed := inserted.step (@Step.traffic _ _ _ () _ _ rfl rfl
    (@CondCmdQTraffic.Step.remove _ _ _ op _ (.round () 1) none (.inr rfl) rfl (by decide)
      fun other waits sleeps => by
        cases other with
        | die => cases sleeps
        | round => cases waits))
  have returned := removed.step (@Step.return _ _ _ () _ _ dieCmd rfl rfl
    fun stored member => by cases member; rfl)
  have broke := returned.step (@Step.restore _ _ _ () _ rfl rfl)
  exact ⟨_, by decide, deliversOnce _ broke⟩

end PyThreadRun

end Striga.Greenev
