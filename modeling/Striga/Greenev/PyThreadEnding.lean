import Striga.Greenev.PyThreadDelivery
import Striga.Lib.Possibility

/-! From wherever the threads are, an event loop can still be ended: the put of
`py_thread_die` gets through, and some loop gets its command. -/

set_option autoImplicit false

namespace Striga.Greenev

open Lib

namespace CondCmdQTraffic

variable {Call Arg : Type} {op : Call → Op Arg}

/-- There is always someone for `pthread_cond_signal` to wake, or nobody to. -/
private theorem exists_signals (state : State Call Arg) (waitsToInsert : Bool) :
    ∃ signalled, Signals op state waitsToInsert signalled := by
  by_cases sleeper : ∃ call, state.phase call = .asleep ∧ (op call).inserts.isSome = waitsToInsert
  · obtain ⟨call, asleep, kind⟩ := sleeper
    exact ⟨some call, asleep, kind⟩
  · exact ⟨none, fun call kind asleep => sleeper ⟨call, asleep, kind⟩⟩

end CondCmdQTraffic

namespace PyThreadRun

variable {Loop : Type} [DecidableEq Loop] {state next : State Loop}

def CanEnd (state : State Loop) : Prop :=
  ∃ last, (system Loop).Leads state last ∧ ∃ loop, last.place loop = .broke

/-- What goes on without the main thread. -/
def withoutMain (Loop : Type) [DecidableEq Loop] : System (State Loop) (Label Loop) :=
  (system Loop).restrict fun _ label _ => ∀ traffic, label ≠ .main traffic

/-- The event loop can be brought to its end without the main thread. -/
def CanBreak (loop : Loop) (state : State Loop) : Prop :=
  (withoutMain Loop).Can (fun last => last.place loop = .broke) state

variable {loop : Loop}

theorem CanBreak.step {label : Label Loop} (taken : Step state label next)
    (other : ∀ traffic, label ≠ .main traffic) (breaks : CanBreak loop next) :
    CanBreak loop state := by
  have moved : (withoutMain Loop).step state label next := ⟨taken, other⟩
  exact System.Can.step moved breaks

theorem CanEnd.step {label : Label Loop} (taken : Step state label next) (ends : CanEnd next) :
    CanEnd state := by
  obtain ⟨last, leads, broke⟩ := ends
  exact ⟨last, .head taken leads, broke⟩

theorem CanBreak.ends (breaks : CanBreak loop state) : CanEnd state := by
  obtain ⟨last, leads, broke⟩ := breaks
  exact ⟨last, leads.of_restrict, loop, broke⟩

/-- Whoever holds the interpreter lock can release it. -/
private theorem canBreak_of_released (breaks : CanBreak loop { state with gil := none }) :
    CanBreak loop state := by
  cases held : state.gil with
  | none => rwa [show { state with gil := none } = state by rw [← held]] at breaks
  | some thread => exact breaks.step (.release held) (by simp)

private theorem canBreak_of_restoring
    (restoring : state.place loop = .restoring (.number pytCmdIoThreadDie)) :
    CanBreak loop state := by
  apply canBreak_of_released
  refine CanBreak.step (Step.restore rfl restoring) (by simp) (.now ?_)
  exact Function.update_self _ _ _

theorem canBreak_of_has (valid : Valid state) (has : state.Has loop) : CanBreak loop state := by
  have knows := valid.knows_of_has has
  cases place : state.place loop with
  | python =>
      rw [place] at knows
      cases knows
  | waiting =>
      have returned : state.queue.phase (state.current loop) = .returned 1 (some dieCmd) := by
        cases phase : state.queue.phase (state.current loop) <;>
          rw [State.Has, CondCmdQTraffic.State.outcome, phase] at has <;>
          cases has
        rfl
      refine CanBreak.step (Step.return place returned fun stored same => Option.some.inj same)
        (by simp) ?_
      exact canBreak_of_restoring (Function.update_self _ _ _)
  | restoring result =>
      rw [place] at knows
      rcases knows with ⟨timeout, _⟩ | ⟨_, rfl⟩
      · cases timeout
      · exact canBreak_of_restoring place
  | broke => exact .now place
  | raised =>
      rw [place] at knows
      exact knows.elim

/-- A loop that has the mutex while the command is in the queue gets it. -/
private theorem canBreak_of_holds (valid : Valid state) (waiting : state.place loop = .waiting)
    (holds : state.queue.Holds (state.current loop))
    (pending : state.queue.queue.pending = [dieCmd]) : CanBreak loop state := by
  have filled : state.queue.queue.empty = false := by
    rw [← Bool.not_eq_true, (CondCmdQTraffic.wellFormed (by decide) valid.queue).empty_iff, pending]
    exact List.cons_ne_nil _ _
  obtain ⟨signalled, signals⟩ :=
    @CondCmdQTraffic.exists_signals _ _ op state.queue true
  have taken : CondCmdQTraffic.Step op state.queue (.remove (state.current loop) signalled)
      (state.queue.remove (state.current loop) signalled) := .remove holds rfl filled signals
  have first := (CondCmdQTraffic.wellFormed (by decide) valid.queue).pending_getInternal filled
  rw [pending, List.cons.injEq] at first
  have has : (state.queue.remove (state.current loop) signalled).outcome (state.current loop) =
      some (1, some dieCmd) := by
    rw [CondCmdQTraffic.outcome_remove signals, Function.update_self, ← first.1]
  have step := Step.traffic waiting rfl taken
  exact CanBreak.step step (by simp) (canBreak_of_has (valid.step step) has)

/-- A loop in its round, with nothing returned yet, can get the mutex. -/
private theorem canBreak_of_unfinished (valid : Valid state) (waiting : state.place loop = .waiting)
    (phase : state.queue.phase (state.current loop) = .idle ∨
      state.queue.phase (state.current loop) = .asleep ∨
      state.queue.Holds (state.current loop))
    (pending : state.queue.queue.pending = [dieCmd]) : CanBreak loop state := by
  rcases phase with idle | asleep | holds
  · have asserts := (CondCmdQTraffic.wellFormed (by decide) valid.queue).asserts_eq
    have step := Step.traffic waiting rfl (CondCmdQTraffic.Step.call idle)
    rw [asserts, if_pos rfl] at step
    refine CanBreak.step step (by simp)
      (canBreak_of_holds (valid.step step) waiting (.inl ?_) pending)
    exact Function.update_self _ _ _
  · have step := Step.traffic waiting rfl (@CondCmdQTraffic.Step.wakeup _ _ _ op _ _ asleep)
    refine CanBreak.step step (by simp)
      (canBreak_of_holds (valid.step step) waiting (.inr ?_) pending)
    exact Function.update_self _ _ _
  · exact canBreak_of_holds valid waiting holds pending

private theorem canBreak_of_python (valid : Valid state) (python : state.place loop = .python)
    (pending : state.queue.queue.pending = [dieCmd]) : CanBreak loop state := by
  apply canBreak_of_released
  have free : Valid { state with gil := none } := valid.gil_only fun _ held => by cases held
  have locked : Step { state with gil := none } (.acquire (.loop loop))
      { state with gil := some (.loop loop) } := .acquire rfl (by simp [State.interprets, python,
        Place.interprets])
  have called : Step { state with gil := some (.loop loop) } (.call loop)
      (State.saveThread { state with gil := some (.loop loop) } loop) := .call rfl python
  refine CanBreak.step locked (by simp) (CanBreak.step called (by simp) ?_)
  refine canBreak_of_unfinished ((free.step locked).step called) (Function.update_self _ _ _)
    (.inl ?_) pending
  simpa [State.saveThread, State.current] using valid.unborn loop _ (.inr (Nat.lt_succ_self _))

private theorem canBreak_of_timeout (valid : Valid state)
    (restoring : state.place loop = .restoring .none)
    (pending : state.queue.queue.pending = [dieCmd]) : CanBreak loop state := by
  apply canBreak_of_released
  have free : Valid { state with gil := none } := valid.gil_only fun _ held => by cases held
  have step : Step { state with gil := none } (.restore loop)
      (State.restoreThread { state with gil := none } loop .none) := .restore rfl restoring
  exact CanBreak.step step (by simp)
    (canBreak_of_python (free.step step) (Function.update_self _ _ _) pending)

private theorem canBreak_of_returned (valid : Valid state) (waiting : state.place loop = .waiting)
    (returned : state.queue.phase (state.current loop) = .returned 0 none)
    (pending : state.queue.queue.pending = [dieCmd]) : CanBreak loop state := by
  have step : Step state (.return loop) { state with
      place := Function.update state.place loop (.restoring (nextCmd 0 dieCmd)) } :=
    .return waiting returned fun _ stored => by cases stored
  exact CanBreak.step step (by simp)
    (canBreak_of_timeout (valid.step step) (Function.update_self _ _ _) pending)

/-- As long as the command is in the queue, each loop can be the one that gets it. -/
theorem canBreak_of_pending (valid : Valid state) (loop : Loop)
    (pending : state.queue.queue.pending = [dieCmd]) : CanBreak loop state := by
  cases place : state.place loop with
  | python => exact canBreak_of_python valid place pending
  | restoring result =>
      have known := valid.known loop (by simp [place])
      rw [place] at known
      rcases known with ⟨_, rfl⟩ | ⟨_, rfl⟩
      · exact canBreak_of_timeout valid place pending
      · exact canBreak_of_restoring place
  | broke => exact .now place
  | raised => exact absurd place (valid.neverRaised loop)
  | waiting =>
      cases phase : state.queue.phase (state.current loop) with
      | idle => exact canBreak_of_unfinished valid place (.inl phase) pending
      | asleep => exact canBreak_of_unfinished valid place (.inr (.inl phase)) pending
      | entering => exact canBreak_of_unfinished valid place (.inr (.inr (.inl phase))) pending
      | woken => exact canBreak_of_unfinished valid place (.inr (.inr (.inr phase))) pending
      | aborted => exact absurd phase (CondCmdQTraffic.notAborted (by decide) valid.queue _)
      | expired =>
          have step := Step.traffic place rfl (@CondCmdQTraffic.Step.timeout _ _ _ op _ _ phase)
          exact CanBreak.step step (by simp)
            (canBreak_of_returned (valid.step step) place (Function.update_self _ _ _) pending)
      | returned res cmdOut =>
          have outcome : state.queue.outcome (state.current loop) = some (res, cmdOut) := by
            rw [CondCmdQTraffic.State.outcome, phase]
            rfl
          rcases valid.outcome_round outcome with ⟨rfl, rfl⟩ | ⟨rfl, rfl⟩
          · exact canBreak_of_returned valid place phase pending
          · exact canBreak_of_has valid outcome

/-- Until the put of the command has succeeded there is nothing in the queue. -/
theorem Valid.room (valid : Valid state) (unput : state.queue.outcome .die = none) :
    state.queue.queue.pending = [] ∧ state.queue.queue.full = false := by
  have absent : state.queue.inserted = [] := by
    rcases valid.inserted with none | once
    · exact none
    · have recorded := CondCmdQTraffic.callsRecorded valid.queue
      have put := ((recorded.inserted_iff .die dieCmd).mp (by simp [once])).2
      cases unput.symm.trans put
  have empty : state.queue.queue.pending = [] := by
    rcases valid.removed with ⟨_, pending⟩ | ⟨_, _, once, _⟩
    · rw [← pending, absent]
      rfl
    · cases absent.symm.trans once
  refine ⟨empty, ?_⟩
  rw [← Bool.not_eq_true, (CondCmdQTraffic.wellFormed (by decide) valid.queue).full_iff, empty,
    CondCmdQTraffic.size_eq (by decide) valid.queue]
  decide

/-- The put does not have to wait. -/
theorem Valid.puts (valid : Valid state) (holds : state.queue.Holds .die) :
    ∃ signalled queue, CondCmdQTraffic.Step op state.queue (.insert .die signalled) queue ∧
      queue.queue.pending = [dieCmd] ∧ queue.phase .die = .returned 1 none := by
  obtain ⟨empty, room⟩ := valid.room holds.outcome
  obtain ⟨signalled, signals⟩ := @CondCmdQTraffic.exists_signals _ _ op state.queue false
  have appended := (CondCmdQTraffic.wellFormed (by decide) valid.queue).pending_putInternal
    room dieCmd
  rw [empty, List.nil_append] at appended
  refine ⟨signalled, _, .insert holds rfl room signals, ?_, ?_⟩
  · simpa [CondCmdQTraffic.State.insert] using appended
  · simp [CondCmdQTraffic.State.insert, CondCmdQTraffic.State.enter]

/-- When `py_thread_die` returns, it has put the command. -/
theorem Valid.outcome_die (valid : Valid state)
    (done : state.queue.outcome .die ≠ none) : state.queue.outcome .die = some (1, none) := by
  obtain ⟨result, outcome⟩ := Option.ne_none_iff_exists'.mp done
  obtain ⟨res, cmdOut⟩ := result
  rcases (CondCmdQTraffic.shaped valid.queue).outcome _ _ _ outcome with
    ⟨_, _, timed⟩ | ⟨rfl, shape⟩
  · cases timed
  · cases cmdOut with
    | none => exact outcome
    | some => cases shape

/-- `py_thread_die` never waits for room in the queue. -/
theorem awake (reachable : (system Loop).Reachable state) : state.queue.phase .die ≠ .asleep := by
  have kept : Valid state ∧ state.queue.phase .die ≠ .asleep := by
    refine reachable.invariant (fun state => Valid state ∧ state.queue.phase .die ≠ .asleep) ?_ ?_
    · intro state starts
      obtain ⟨block, rfl⟩ := starts
      exact ⟨.fresh block, fun asleep => by cases asleep⟩
    · intro state label next before taken
      refine ⟨before.1.step taken, ?_⟩
      have valid := before.1
      cases taken with
      | acquire | release | call | «return» | restore => exact before.2
      | traffic waiting round taken =>
          rcases @CondCmdQTraffic.step_phase_of_ne _ _ _ _ _ _ _ taken .die
            (by rw [round]; exact fun same => by cases same) with same | ⟨_, woken⟩
          · exact fun asleep => before.2 (same.symm.trans asleep)
          · exact fun asleep => by cases woken.symm.trans asleep
      | @main label queue taken die =>
          cases taken with
          | @call call =>
              obtain rfl : call = .die := die
              cases state.queue.queue.asserts <;> simp [CondCmdQTraffic.State.enter]
          | @wait call holds full =>
              obtain rfl : call = .die := die
              cases full.symm.trans (valid.room holds.outcome).2
          | @insert call =>
              obtain rfl : call = .die := die
              simp [CondCmdQTraffic.State.insert, CondCmdQTraffic.State.enter]
          | @remove call =>
              obtain rfl : call = .die := die
              simp [CondCmdQTraffic.State.remove, CondCmdQTraffic.State.enter]
          | @wakeup call | @expire call | @timeout call =>
              obtain rfl : call = .die := die
              simp [CondCmdQTraffic.State.enter]
  exact kept.2

theorem canEnd_of_putting (valid : Valid state) (loop : Loop)
    (holds : state.queue.Holds .die) : CanEnd state := by
  obtain ⟨signalled, queue, taken, pending, _⟩ := valid.puts holds
  have step := Step.main taken rfl
  exact CanEnd.step step (canBreak_of_pending (valid.step step) loop pending).ends

theorem canEnd (state : State Loop) (reachable : (system Loop).Reachable state) (loop : Loop) :
    CanEnd state := by
  have valid := valid reachable
  cases phase : state.queue.phase .die with
  | idle =>
      have asserts := (CondCmdQTraffic.wellFormed (by decide) valid.queue).asserts_eq
      have step := Step.main (CondCmdQTraffic.Step.call phase) rfl
      rw [asserts, if_pos rfl] at step
      refine CanEnd.step step (canEnd_of_putting (valid.step step) loop (.inl ?_))
      simp [CondCmdQTraffic.State.enter]
  | entering => exact canEnd_of_putting valid loop (.inl phase)
  | woken => exact canEnd_of_putting valid loop (.inr phase)
  | asleep =>
      have step := Step.main (@CondCmdQTraffic.Step.wakeup _ _ _ op _ _ phase) rfl
      refine CanEnd.step step (canEnd_of_putting (valid.step step) loop (.inr ?_))
      simp [CondCmdQTraffic.State.enter]
  | aborted => exact absurd phase (CondCmdQTraffic.notAborted (by decide) valid.queue _)
  | expired => cases (CondCmdQTraffic.shaped valid.queue).expired _ phase
  | returned res cmdOut =>
      have outcome := valid.outcome_die (by simp [CondCmdQTraffic.State.outcome, phase,
        CondCmdQTraffic.Phase.outcome])
      rcases valid.conserved.mp outcome with pending | ⟨holder, has⟩
      · exact (canBreak_of_pending valid loop pending).ends
      · exact (canBreak_of_has valid has).ends

/-- Two loops wait for a command, and one of them has been woken for it. -/
theorem canEnd_two_loops : ∃ state : State Bool,
    state.place false = .waiting ∧ state.place true = .waiting ∧
      state.queue.queue.pending = [dieCmd] ∧ CanEnd state := by
  have start : (system Bool).Reachable (.fresh fun _ => ⟨0, ()⟩) := .start ⟨_, rfl⟩
  have first := (start.step (@Step.acquire _ _ _ (.loop false) rfl rfl)).step
    (@Step.call _ _ _ false rfl rfl)
  have both := (first.step (@Step.acquire _ _ _ (.loop true) rfl rfl)).step
    (@Step.call _ _ _ true rfl rfl)
  have called := both.step (@Step.traffic _ _ _ false _ _ rfl rfl
    (@CondCmdQTraffic.Step.call _ _ _ op _ (.round false 1) rfl))
  have asleep := called.step (@Step.traffic _ _ _ false _ _ rfl rfl
    (@CondCmdQTraffic.Step.wait _ _ _ op _ (.round false 1) (.inl rfl) (by decide)))
  have putting := asleep.step (.main (@CondCmdQTraffic.Step.call _ _ _ op _ .die rfl) rfl)
  have inserted := putting.step (.main (@CondCmdQTraffic.Step.insert _ _ _ op _ .die dieCmd
    (some (.round false 1)) (.inl rfl) rfl (by decide) ⟨rfl, rfl⟩) rfl)
  exact ⟨_, rfl, rfl, rfl, canEnd _ inserted false⟩

end PyThreadRun

end Striga.Greenev
