import Mathlib.Data.Set.Card
import Striga.Lib.Possibility
import Striga.Singlev.ApplicationCommands

/-! Whether singlev can still come to its end. Every thread that is away from
Python can get back there, so that the module can end and `application_dtor`
follow; only a thread that is in `application_run` when the module is over
cannot, and the assert of `application_dtor` waits for it. -/

set_option autoImplicit false

namespace Striga.Singlev.ApplicationRun

open Lib

variable {Thread Call : Type} {thread mainThread : Thread} {state next : State Thread Call}

/-- The threads that are on their way through a call of `_pysevapi`. -/
def State.busy (state : State Thread Call) : Set Thread := {thread | state.place thread ≠ .python}

/-- The calls of `cmd_q_put` that have come to their critical section. -/
def State.used (state : State Thread Call) : Set Call := {call | state.phase call ≠ .idle}

/-- Who takes its state back has the lock, behind the module the main thread has
it, and only so many threads and calls are on their way. -/
structure Orderly (mainThread : Thread) (state : State Thread Call) : Prop where
  restored : ∀ thread, state.place thread = .restored → state.gil = some thread
  finished : state.main = .finished →
    state.gil = some mainThread ∧ state.place mainThread = .python
  busy : state.busy.Finite
  used : state.used.Finite

namespace Orderly

private theorem fresh (mainThread : Thread) (block : Nat → SubjectCmd Data) :
    Orderly mainThread (.fresh mainThread block : State Thread Call) where
  restored := fun _ restored => by cases restored
  finished := fun finished => by cases finished
  busy := by simp [State.busy, State.fresh]
  used := by simp [State.used, State.fresh]

/-- A step of the main thread, or one that no thread takes. -/
private theorem same (orderly : Orderly mainThread state) (places : next.place = state.place)
    (phases : next.phase = state.phase)
    (restored : ∀ thread, state.place thread = .restored → next.gil = some thread)
    (finished : next.main = .finished → next.gil = some mainThread ∧
      state.place mainThread = .python) : Orderly mainThread next where
  restored := by rwa [places]
  finished := by rwa [places]
  busy := by
    rw [State.busy, places]
    exact orderly.busy
  used := by
    rw [State.used, phases]
    exact orderly.used

/-- Nobody has taken its state back while the lock is free, or while a thread in
Python has it. -/
private theorem none_restored (orderly : Orderly mainThread state)
    (holder : state.gil = none ∨ state.gil = some thread ∧ state.place thread = .python)
    (other : Thread) : state.place other ≠ .restored := by
  intro restored
  have own := orderly.restored other restored
  rcases holder with free | ⟨held, python⟩
  · cases free.symm.trans own
  · cases held.symm.trans own
    cases python.symm.trans restored

private theorem begins (orderly : Orderly mainThread state) (call : Call)
    {after : Call → CmdQDrain.PutPhase}
    (phases : ∀ other, other ≠ call → after other = state.phase other) :
    {other | after other ≠ .idle}.Finite := by
  refine (orderly.used.insert call).subset ?_
  intro other begun
  by_cases same : other = call
  · exact .inl same
  · refine .inr ?_
    rw [Set.mem_ofPred_eq, phases other same] at begun
    exact begun

variable [DecidableEq Thread] {place : Place Thread Call}

/-- A thread moves on. -/
private theorem move (orderly : Orderly mainThread state)
    (places : next.place = Function.update state.place thread place)
    (restored : ∀ other, next.place other = .restored → next.gil = some other)
    (main : next.main = state.main)
    (busy : state.main = .finished → next.gil = state.gil ∧ state.place thread ≠ .python)
    (used : next.used.Finite) : Orderly mainThread next where
  restored := restored
  finished := by
    intro finished
    rw [main] at finished
    obtain ⟨gil, away⟩ := busy finished
    obtain ⟨holder, python⟩ := orderly.finished finished
    refine ⟨gil.trans holder, ?_⟩
    rw [places, Function.update_of_ne]
    · exact python
    · intro same
      subst same
      exact away python
  busy := by
    refine (orderly.busy.insert thread).subset ?_
    intro other away
    by_cases same : other = thread
    · exact .inl same
    · refine .inr ?_
      rw [State.busy, Set.mem_ofPred_eq, places, Function.update_of_ne same] at away
      exact away
  used := used

/-- With the lock left alone, who has taken its state back keeps it. -/
private theorem keeps (orderly : Orderly mainThread state)
    (places : next.place = Function.update state.place thread place)
    (gil : next.gil = state.gil) (elsewhere : place ≠ .restored) :
    ∀ other, next.place other = .restored → next.gil = some other := by
  intro other restored
  rw [places] at restored
  by_cases same : other = thread
  · rw [same, Function.update_self] at restored
    exact absurd restored elsewhere
  · rw [Function.update_of_ne same] at restored
    exact gil.trans (orderly.restored other restored)

/-- A thread in Python gives the lock away, or takes it where nobody has it. -/
private theorem takes (orderly : Orderly mainThread state)
    (holder : state.gil = none ∨ state.gil = some thread ∧ state.place thread = .python)
    (places : next.place = Function.update state.place thread place)
    (own : place = .restored → next.gil = some thread) :
    ∀ other, next.place other = .restored → next.gil = some other := by
  intro other restored
  rw [places] at restored
  by_cases same : other = thread
  · subst same
    rw [Function.update_self] at restored
    exact own restored
  · rw [Function.update_of_ne same] at restored
    exact absurd restored (orderly.none_restored holder other)

end Orderly

/-- The drain begins and ends no call of `cmd_q_put`. -/
private theorem drain_phase [DecidableEq Call] {cmd : Call → SubjectCmd Data} {early : Bool}
    {drain after : CmdQDrain.State Call Data} {label : CmdQDrain.Label Call}
    (only : label = .wake ∨ label = .get ∨ label = .dispatch ∨ label = .finish)
    (taken : CmdQDrain.Step cmd early drain label after) : after.phase = drain.phase := by
  cases taken with
  | enqueue | send => simp at only
  | wake | get | dispatch | finish => rfl

/-- Only so many calls are on their way, so that there is always another one. -/
theorem Orderly.unused [Infinite Call] (orderly : Orderly mainThread state) :
    ∃ call, state.Unused call := by
  have putting : {call | ∃ thread, state.place thread = .putting call}.Finite := by
    refine ((orderly.busy.image fun thread => (state.place thread).call?).preimage
      (Option.some_injective Call).injOn).subset ?_
    intro call begun
    obtain ⟨thread, place⟩ := begun
    exact ⟨thread, by simp [State.busy, place], by simp [place, Place.call?]⟩
  obtain ⟨call, unused⟩ := (orderly.used.union putting).infinite_compl.nonempty
  refine ⟨call, not_not.mp fun begun => unused (.inl begun), ?_⟩
  exact fun thread place => unused (.inr ⟨thread, place⟩)

variable [DecidableEq Thread] [DecidableEq Call] {label : Label Thread Call}

theorem Orderly.step (orderly : Orderly mainThread state) (valid : Valid state)
    (taken : Step mainThread state label next) : Orderly mainThread next := by
  have unfinished (interprets : state.main.interprets = true) : state.main ≠ .finished := by
    intro finished
    rw [finished] at interprets
    cases interprets
  cases taken with
  | start => exact orderly.same rfl rfl orderly.restored fun finished => by cases finished
  | finish _ holder python =>
      unfold State.finish
      split
      · exact orderly.same rfl rfl orderly.restored fun finished => by cases finished
      · exact orderly.same rfl rfl orderly.restored fun _ => ⟨holder, python⟩
  | stop =>
      unfold State.stop
      split
      · exact orderly.same rfl rfl orderly.restored fun finished => by cases finished
      · exact orderly.same rfl rfl orderly.restored fun finished => by cases finished
  | finalize _ _ python =>
      refine orderly.same rfl rfl ?_ fun finished => by cases finished
      intro thread restored
      cases (python thread).symm.trans restored
  | delete =>
      unfold State.delete
      split
      · exact orderly.same rfl rfl orderly.restored fun finished => by cases finished
      · exact orderly.same rfl rfl orderly.restored fun finished => by cases finished
  | deliver => exact orderly.same rfl rfl orderly.restored orderly.finished
  | acquire interprets free =>
      refine orderly.same rfl rfl ?_ fun finished => absurd finished (unfinished interprets)
      intro other restored
      cases free.symm.trans (orderly.restored other restored)
  | @release thread interprets holder python =>
      refine orderly.same rfl rfl ?_ fun finished => absurd finished (unfinished interprets)
      intro other restored
      exact absurd restored (orderly.none_restored (.inr ⟨holder, python⟩) other)
  | @run thread interprets holder python =>
      rcases run_cases interprets thread with ⟨_, _, entered⟩ | ⟨_, text, refused⟩
      · rw [entered]
        exact orderly.move rfl
          (orderly.takes (.inr ⟨holder, python⟩) rfl fun restored => by cases restored)
          rfl (fun finished => absurd finished (unfinished interprets)) orderly.used
      · rw [refused]
        exact orderly.same rfl rfl orderly.restored orderly.finished
  | store saving =>
      exact orderly.move rfl (orderly.keeps rfl rfl (by simp)) rfl
        (fun _ => ⟨rfl, by simp [saving]⟩) orderly.used
  | terminate =>
      unfold State.terminate
      split
      · exact orderly.same rfl rfl orderly.restored fun finished => by cases finished
      · exact orderly.same rfl rfl orderly.restored orderly.finished
  | drain _ only taken =>
      exact orderly.same rfl (drain_phase only taken) orderly.restored orderly.finished
  | leave looping =>
      exact orderly.move rfl (orderly.keeps rfl rfl (by simp)) rfl
        (fun _ => ⟨rfl, by simp [looping]⟩) orderly.used
  | @restore thread owner interprets free restoring =>
      have own := valid.alone.own _ _ restoring
      exact orderly.move rfl (orderly.takes (.inl free) rfl fun _ => own) rfl
        (fun finished => absurd finished (unfinished interprets)) orderly.used
  | clear restored =>
      exact orderly.move rfl (orderly.keeps rfl rfl (by simp)) rfl
        (fun _ => ⟨rfl, by simp [restored]⟩) orderly.used
  | @listen thread interprets holder python =>
      rcases listen_cases interprets thread with ⟨_, entered⟩ | ⟨_, text, refused⟩
      · rw [entered]
        exact orderly.move rfl
          (orderly.takes (.inr ⟨holder, python⟩) rfl fun restored => by cases restored)
          rfl (fun finished => absurd finished (unfinished interprets)) orderly.used
      · rw [refused]
        exact orderly.same rfl rfl orderly.restored orderly.finished
  | @check thread call issuing =>
      rcases check_cases state thread call with ⟨_, passed⟩ | ⟨_, refused⟩
      · rw [passed]
        exact orderly.move rfl (orderly.keeps rfl rfl (by simp)) rfl
          (fun _ => ⟨rfl, by simp [issuing]⟩) orderly.used
      · rw [refused]
        refine orderly.move rfl (orderly.keeps rfl rfl (by simp)) rfl
          (fun _ => ⟨rfl, by simp [issuing]⟩) ?_
        exact orderly.begins call fun other differs => Function.update_of_ne differs _ _
  | @enqueue thread call putting =>
      refine orderly.move rfl (orderly.keeps rfl rfl ?_) rfl
        (fun _ => ⟨rfl, by simp [putting]⟩) ?_
      · split <;> simp
      · exact orderly.begins call fun other differs => Function.update_of_ne differs _ _
  | @send thread call sending =>
      refine orderly.move rfl (orderly.keeps rfl rfl (by simp)) rfl
        (fun _ => ⟨rfl, by simp [sending]⟩) ?_
      exact orderly.begins call fun other differs => Function.update_of_ne differs _ _
  | reacquire interprets free =>
      exact orderly.move rfl (orderly.takes (.inl free) rfl fun restored => by cases restored) rfl
        (fun finished => absurd finished (unfinished interprets)) orderly.used

private theorem orderly (reachable : (apart mainThread Call).Reachable state) :
    Orderly mainThread state := by
  induction reachable with
  | start initial =>
      obtain ⟨block, rfl⟩ := initial
      exact .fresh mainThread block
  | step earlier taken ih => exact ih.step (valid earlier) taken.1

/-- A thread is back in Python, and no other has moved. -/
structure Back (state : State Thread Call) (thread : Thread) (next : State Thread Call) :
    Prop where
  main : next.main = state.main
  place : next.place = Function.update state.place thread .python

omit [DecidableEq Call] in
theorem Back.of_moved {between : State Thread Call} {place : Place Thread Call}
    (back : Back between thread next) (main : between.main = state.main)
    (places : between.place = Function.update state.place thread place) :
    Back state thread next := by
  refine ⟨back.main.trans main, ?_⟩
  rw [back.place, places, Function.update_idem]

private theorem back_of_restored (restored : state.place thread = .restored) :
    (apart mainThread Call).Can (Back state thread) state :=
  .once (apart_step (.clear restored) (by simp) (by simp)) ⟨rfl, rfl⟩

private theorem back_of_restoring {owner : Thread} (interprets : state.main.interprets = true)
    (free : state.gil = none) (restoring : state.place thread = .restoring (some owner)) :
    (apart mainThread Call).Can (Back state thread) state := by
  have restored : (({ state with gil := some owner }).moveTo thread .restored).place thread =
      .restored := State.moveTo_self _
  refine .step (apart_step (.restore interprets free restoring) (by simp) (by simp)) ?_
  exact (back_of_restored restored).imp fun next back => back.of_moved rfl rfl

private theorem back_of_issued {call : Call} {result : Bool}
    (interprets : state.main.interprets = true)
    (free : state.gil = none) (issued : state.place thread = .issued call result) :
    (apart mainThread Call).Can (Back state thread) state :=
  .once (apart_step (.reacquire interprets free issued) (by simp) (by simp)) ⟨rfl, rfl⟩

private theorem back_of_sending {call : Call} (interprets : state.main.interprets = true)
    (free : state.gil = none) (sending : state.place thread = .sending call) :
    (apart mainThread Call).Can (Back state thread) state := by
  have issued : (state.send thread call).place thread = .issued call true := State.moveTo_self _
  have onwards : (apart mainThread Call).Can (Back (state.send thread call) thread)
      (state.send thread call) := back_of_issued interprets free issued
  refine .step (apart_step (.send sending) (by simp) (by simp)) ?_
  exact onwards.imp fun next back => back.of_moved rfl rfl

private theorem back_of_putting {call : Call} (interprets : state.main.interprets = true)
    (free : state.gil = none) (putting : state.place thread = .putting call) :
    (apart mainThread Call).Can (Back state thread) state := by
  have onwards : (apart mainThread Call).Can (Back (state.enqueue thread call) thread)
      (state.enqueue thread call) := by
    have place : (state.enqueue thread call).place thread =
        if (state.drain.insert (fun _ => listenCmd) call).phase call = .sending
        then .sending call else .issued call false := State.moveTo_self _
    by_cases accepted : (state.drain.insert (fun _ => listenCmd) call).phase call = .sending
    · exact back_of_sending interprets free (place.trans (if_pos accepted))
    · exact back_of_issued interprets free (place.trans (if_neg accepted))
  refine .step (apart_step (.enqueue putting) (by simp) (by simp)) ?_
  exact onwards.imp fun next back => back.of_moved rfl rfl

private theorem back_of_issuing [Infinite Call] (orderly : Orderly mainThread state)
    (interprets : state.main.interprets = true) (free : state.gil = none)
    (issuing : state.place thread = .issuing) :
    (apart mainThread Call).Can (Back state thread) state := by
  obtain ⟨call, unused⟩ := orderly.unused
  refine .step (apart_step (.check issuing unused) (by simp) (by simp)) ?_
  rcases check_cases state thread call with ⟨_, passed⟩ | ⟨_, refused⟩
  · have onwards : (apart mainThread Call).Can (Back (state.moveTo thread (.putting call)) thread)
        (state.moveTo thread (.putting call)) :=
      back_of_putting interprets free (State.moveTo_self _)
    rw [passed]
    exact onwards.imp fun next back => back.of_moved rfl rfl
  · have onwards : (apart mainThread Call).Can
        (Back ((state.withDrain (state.drain.refuse call)).moveTo thread
          (.issued call false)) thread)
        ((state.withDrain (state.drain.refuse call)).moveTo thread (.issued call false)) :=
      back_of_issued interprets free (State.moveTo_self _)
    rw [refused]
    exact onwards.imp fun next back => back.of_moved rfl rfl

/-- What the thread in `ev_run` still has to do in its drain. -/
def State.remaining (state : State Thread Call) : Nat :=
  3 * state.app.cmdQ.pending.length +
    match state.consumer with
    | .waiting => 0
    | .getting => 1
    | .dispatching _ _ => 2
    | .holding _ _ => 3

/-- Nobody has moved, and the lock is where it was. -/
structure Still (state next : State Thread Call) : Prop where
  main : next.main = state.main
  gil : next.gil = state.gil
  place : next.place = state.place

/-- The thread in `ev_run` gets one step closer to the end of its drain. -/
private theorem drain_step (reachable : (apart mainThread Call).Reachable state)
    (looping : state.place thread = .looping) (receives : state.main.receives = true)
    (busy : state.consumer ≠ .waiting) :
    ∃ label next, (apart mainThread Call).step state label next ∧ Still state next ∧
      next.remaining < state.remaining := by
  have drain {label : CmdQDrain.Label Call} {drain : CmdQDrain.State Call Data}
      (only : label = .wake ∨ label = .get ∨ label = .dispatch ∨ label = .finish)
      (taken : CmdQDrain.Step (fun _ => listenCmd) true state.drain label drain)
      (less : (state.withDrain drain).remaining < state.remaining) :
      ∃ label next, (apart mainThread Call).step state label next ∧ Still state next ∧
        next.remaining < state.remaining :=
    ⟨_, _, apart_step (.drain looping only taken) (by simp) (by simp), ⟨rfl, rfl, rfl⟩, less⟩
  cases consumer : state.consumer with
  | waiting => exact absurd consumer busy
  | getting =>
      refine drain (.inr (.inl rfl)) (.get consumer) ?_
      have served := (served reachable).started ((valid reachable).receives.trans receives)
      obtain ⟨history, reached, same⟩ :=
        CmdQDrain.refines_history (by decide) (by decide) served
      have size := Ring.Machine.Represents.size_eq (by decide) same.queue
        (History.capacity_eq reached)
      rcases CmdQDrain.get_cases same.queue.bounded (by rw [size]; decide) with
        ⟨idle, ended⟩ | ⟨qsize, outCmd, after, _, shape, _, held⟩
      · rw [ended]
        simp [State.remaining, State.withDrain, consumer, State.drain]
      · rw [held]
        have length : state.app.cmdQ.pending.length = after.pending.length + 1 :=
          congrArg List.length shape
        rw [State.remaining, State.remaining, consumer, length]
        exact Nat.lt_add_one (3 * after.pending.length + 3)
  | holding cmd qsize =>
      refine drain (.inr (.inr (.inl rfl))) (.dispatch consumer) ?_
      simp [State.remaining, State.withDrain, consumer, State.drain]
  | dispatching cmd qsize =>
      refine drain (.inr (.inr (.inr rfl))) (.finish consumer) ?_
      rw [State.remaining, State.remaining, consumer]
      refine Nat.add_lt_add_left ?_ (3 * state.app.cmdQ.pending.length)
      by_cases last : (true && qsize == 0) = true
      · simp [State.withDrain, CmdQDrain.Consumer.afterDispatch, last]
      · simp [State.withDrain, CmdQDrain.Consumer.afterDispatch, last]

private theorem drains (reachable : (apart mainThread Call).Reachable state)
    (looping : state.place thread = .looping) (receives : state.main.receives = true) :
    (apart mainThread Call).Can (fun next => (apart mainThread Call).Reachable next ∧
      Still state next ∧ next.consumer = .waiting) state := by
  refine System.Can.of_measure
    (fun next => (apart mainThread Call).Reachable next ∧ Still state next) State.remaining ?_
    ⟨reachable, rfl, rfl, rfl⟩
  intro between kept unfinished
  obtain ⟨reached, still⟩ := kept
  have busy : between.consumer ≠ .waiting := fun waiting => unfinished ⟨reached, still, waiting⟩
  obtain ⟨label, next, taken, moved, less⟩ := drain_step reached
    ((congrFun still.place thread).trans looping) (still.main ▸ receives) busy
  exact .once taken ⟨⟨reached.step taken, moved.main.trans still.main, moved.gil.trans still.gil,
    moved.place.trans still.place⟩, less⟩

omit [DecidableEq Thread] [DecidableEq Call] in
/-- A signal that is watched is delivered, and ends the phase of running. -/
private theorem signalled (counted : state.app.Counted) (running : state.app.runPhase = .run) :
    ∃ told, state.app.deliver .sigint = told ∧ (told.watcher .sigint).active = true ∧
      (told.watcher .sigint).pending = true ∧ ∃ after, (told.clear .sigint).die = some after ∧
        after.runPhase = .dying := by
  have armed : state.app.sigint.active = true :=
    (counted.armed .sigint).trans (by rw [running]; rfl)
  have pending : (state.app.deliver .sigint).watcher .sigint =
      { state.app.sigint with pending := true } := by
    simp [Application.deliver, Application.watcher, EvSignal.deliver, armed]
  obtain ⟨told, delivered, _⟩ := counted.deliver .sigint
  obtain ⟨cleared, same, _⟩ := told.clear .sigint
  obtain ⟨after, died, _, _, dying⟩ := cleared.die (by rw [same, delivered, running]; simp)
  refine ⟨_, rfl, by rw [pending]; exact armed, by rw [pending], after, died, ?_⟩
  rw [dying, same, delivered, running]
  rfl

/-- A signal gets the loop to let go of the thread in it. -/
private theorem unholds (reachable : (apart mainThread Call).Reachable state)
    (looping : state.place thread = .looping) (inside : state.main = .module)
    (waiting : state.consumer = .waiting) :
    (apart mainThread Call).Can (fun next => (apart mainThread Call).Reachable next ∧
      Still state next ∧ next.consumer = .waiting ∧ next.app.mainLoop.activecnt = 0) state := by
  have valid := valid reachable
  have unheld {next : State Thread Call} (reached : (apart mainThread Call).Reachable next)
      (dying : next.app.runPhase = .dying) : next.app.mainLoop.activecnt = 0 := by
    have counted := (ApplicationRun.valid reached).counted
    rw [counted.activecnt, Application.references_of_inactive]
    intro signal
    rw [counted.armed, dying]
    rfl
  have phase : state.app.runPhase = .run ∨ state.app.runPhase = .dying := by
    have allowed := valid.phase inside
    cases current : state.app.runPhase <;> simp [current, Main.allows] at allowed ⊢
  rcases phase with running | dying
  · obtain ⟨told, delivered, active, pending, after, died, dying⟩ :=
      signalled valid.counted running
    have telling : (apart mainThread Call).step state (.deliver .sigint)
        { state with app := told } := by
      rw [← delivered]
      exact apart_step .deliver (by simp) (by simp)
    have ending : (apart mainThread Call).step { state with app := told }
        (.terminate thread .sigint) { state with app := after } := by
      have shape : State.terminate { state with app := told } .sigint =
          { state with app := after } := by simp [State.terminate, died]
      rw [← shape]
      exact apart_step (.terminate looping waiting active pending) (by simp) (by simp)
    have reached := (reachable.step telling).step ending
    exact .step telling (.once ending ⟨reached, ⟨rfl, rfl, rfl⟩, waiting, unheld reached dying⟩)
  · exact .now ⟨reachable, ⟨rfl, rfl, rfl⟩, waiting, unheld reachable dying⟩

private theorem back_of_looping (reachable : (apart mainThread Call).Reachable state)
    (inside : state.main = .module) (free : state.gil = none)
    (looping : state.place thread = .looping) :
    (apart mainThread Call).Can (Back state thread) state := by
  refine (drains reachable looping (by rw [inside]; rfl)).bind ?_
  intro drained done
  obtain ⟨reached, still, waiting⟩ := done
  have looping := (congrFun still.place thread).trans looping
  refine (unholds reached looping (still.main.trans inside) waiting).bind ?_
  intro unheld done
  obtain ⟨reached, still', waiting, activecnt⟩ := done
  have looping := (congrFun still'.place thread).trans looping
  have own : unheld.app.pythonThreadState = some thread :=
    ((valid reached).alone.stored thread).mpr (by rw [looping]; rfl)
  have left : (unheld.moveTo thread (.restoring unheld.app.pythonThreadState)).place thread =
      .restoring (some thread) := (State.moveTo_self _).trans (by rw [own])
  have interprets : unheld.main.interprets = true := by
    rw [still'.main, still.main, inside]
    rfl
  have unlocked : unheld.gil = none := still'.gil.trans (still.gil.trans free)
  have onwards : (apart mainThread Call).Can
      (Back (unheld.moveTo thread (.restoring unheld.app.pythonThreadState)) thread)
      (unheld.moveTo thread (.restoring unheld.app.pythonThreadState)) :=
    back_of_restoring interprets unlocked left
  refine .step (apart_step (.leave looping waiting activecnt) (by simp) (by simp)) ?_
  have places : (unheld.moveTo thread (.restoring unheld.app.pythonThreadState)).place =
      Function.update state.place thread (.restoring unheld.app.pythonThreadState) :=
    congrArg (Function.update · thread _) (still'.place.trans still.place)
  exact onwards.imp fun next back => back.of_moved (still'.main.trans still.main) places

/-- With the lock free every thread that is away from Python can get back. -/
private theorem back_of_free [Infinite Call] (reachable : (apart mainThread Call).Reachable state)
    (interprets : state.main.interprets = true) (free : state.gil = none)
    (busy : thread ∈ state.busy) : (apart mainThread Call).Can (Back state thread) state := by
  have valid := valid reachable
  have inside (inRun : (state.place thread).inRun = true) : state.main = .module := by
    rcases valid.inside thread inRun with module | finished
    · exact module
    · rw [finished] at interprets
      cases interprets
  cases place : state.place thread with
  | python => exact absurd place busy
  | saving =>
      have looping : (state.store thread).place thread = .looping := State.moveTo_self _
      have taken : (apart mainThread Call).step state (.store thread) (state.store thread) :=
        apart_step (.store place) (by simp) (by simp)
      have onwards : (apart mainThread Call).Can (Back (state.store thread) thread)
          (state.store thread) :=
        back_of_looping (reachable.step taken) (inside (by rw [place]; rfl)) free looping
      exact .step taken (onwards.imp fun next back => back.of_moved rfl rfl)
  | looping => exact back_of_looping reachable (inside (by rw [place]; rfl)) free place
  | restoring tstate =>
      obtain rfl := valid.alone.own thread tstate place
      exact back_of_restoring interprets free place
  | restored => exact back_of_restored place
  | issuing => exact back_of_issuing (orderly reachable) interprets free place
  | putting call => exact back_of_putting interprets free place
  | sending call => exact back_of_sending interprets free place
  | issued call result => exact back_of_issued interprets free place

/-- While some thread is away from Python one of them can get back. -/
private theorem back [Infinite Call] (reachable : (apart mainThread Call).Reachable state)
    (interprets : state.main.interprets = true) (busy : thread ∈ state.busy) :
    ∃ other ∈ state.busy, (apart mainThread Call).Can (Back state other) state := by
  cases gil : state.gil with
  | none => exact ⟨thread, busy, back_of_free reachable interprets gil busy⟩
  | some holder =>
      rcases (valid reachable).holds holder gil with python | restored
      · have taken : (apart mainThread Call).step state (.release holder)
            { state with gil := none } :=
          apart_step (.release interprets gil python) (by simp) (by simp)
        have onwards : (apart mainThread Call).Can (Back { state with gil := none } thread)
            { state with gil := none } :=
          back_of_free (reachable.step taken) interprets rfl busy
        exact ⟨thread, busy, .step taken (onwards.imp fun next back => ⟨back.main, back.place⟩)⟩
      · exact ⟨holder, by simp [State.busy, restored], back_of_restored restored⟩

omit [DecidableEq Call] in
theorem Back.busy_eq (back : Back state thread next) : next.busy = state.busy \ {thread} := by
  ext other
  rw [State.busy, Set.mem_ofPred_eq, back.place]
  by_cases same : other = thread
  · simp [same]
  · simp [same, State.busy]

/-- Every thread can get back to Python. -/
private theorem allBack [Infinite Call] (reachable : (apart mainThread Call).Reachable state)
    (interprets : state.main.interprets = true) :
    (apart mainThread Call).Can (fun next => (apart mainThread Call).Reachable next ∧
      next.main = state.main ∧ ∀ thread, next.place thread = .python) state := by
  refine System.Can.of_measure
    (fun next => (apart mainThread Call).Reachable next ∧ next.main = state.main)
    (fun next => next.busy.ncard) ?_ ⟨reachable, rfl⟩
  intro between kept unfinished
  obtain ⟨reached, main⟩ := kept
  have away : ∃ thread, thread ∈ between.busy := by
    by_contra none
    exact unfinished ⟨reached, main, fun thread => not_not.mp (not_exists.mp none thread)⟩
  obtain ⟨thread, busy⟩ := away
  obtain ⟨other, busy, last, leads, back⟩ := back reached (main ▸ interprets) busy
  refine ⟨last, leads, ⟨reached.leads leads, back.main.trans main⟩, ?_⟩
  rw [back.busy_eq]
  exact Set.ncard_sdiff_singleton_lt_of_mem busy (orderly reached).busy

/-- The application is brought to its end. -/
def Ends (mainThread : Thread) (state : State Thread Call) : Prop :=
  (apart mainThread Call).Can (fun last => last.main = .deleted) state

/-- With all threads in Python the main thread gets the lock. -/
private theorem mainLocks (interprets : state.main.interprets = true)
    (python : ∀ thread, state.place thread = .python) :
    (apart mainThread Call).Can (fun next => next.main = state.main ∧ next.gil = some mainThread ∧
      next.place = state.place) state := by
  have acquire {free : State Thread Call} (main : free.main = state.main) (gil : free.gil = none)
      (place : free.place = state.place) :
      (apart mainThread Call).Can (fun next => next.main = state.main ∧
        next.gil = some mainThread ∧ next.place = state.place) free := by
    refine .once (apart_step (@Step.acquire _ _ _ _ _ free mainThread ?_ gil ?_) (by simp)
      (by simp))
      ⟨main, rfl, place⟩
    · rw [main]
      exact interprets
    · rw [place]
      exact python mainThread
  cases gil : state.gil with
  | none => exact acquire rfl gil rfl
  | some holder =>
      refine .step (apart_step (.release interprets gil (python holder)) (by simp) (by simp)) ?_
      exact acquire rfl rfl rfl

private theorem ends_of_finalized (reachable : (apart mainThread Call).Reachable state)
    (finalized : state.main = .finalized) : Ends mainThread state := by
  have taken : (apart mainThread Call).step state .delete state.delete :=
    apart_step (.delete finalized) (by simp) (by simp)
  refine .once taken ?_
  have allowed := (valid (reachable.step taken)).allows
  unfold State.delete at allowed ⊢
  split at allowed
  · rename_i deletable
    rw [if_pos deletable]
  · cases allowed

/-- All threads get back to Python and the main thread gets the lock. -/
private theorem settles [Infinite Call] (reachable : (apart mainThread Call).Reachable state)
    (interprets : state.main.interprets = true) :
    (apart mainThread Call).Can (fun next => (apart mainThread Call).Reachable next ∧
      next.main = state.main ∧ next.gil = some mainThread ∧
        ∀ thread, next.place thread = .python) state := by
  refine (allBack reachable interprets).bind ?_
  intro settled done
  obtain ⟨reached, main, python⟩ := done
  refine ((mainLocks (main ▸ interprets) python).reachable reached).imp ?_
  intro next done
  obtain ⟨reached, same, gil, place⟩ := done
  exact ⟨reached, same.trans main, gil, fun thread => (congrFun place thread).trans (python thread)⟩

private theorem ends_of_stopped [Infinite Call]
    (reachable : (apart mainThread Call).Reachable state)
    (stopped : state.main = .stopped) : Ends mainThread state := by
  refine (settles reachable (by rw [stopped]; rfl)).bind ?_
  intro settled done
  obtain ⟨reached, main, gil, python⟩ := done
  have taken := apart_step (Step.finalize (main.trans stopped) gil python) (by simp) (by simp)
  exact .step taken (ends_of_finalized (reached.step taken) rfl)

/-- Behind the module `application_dtor` goes on if nobody is in `application_run`. -/
private theorem ends_of_finished [Infinite Call]
    (reachable : (apart mainThread Call).Reachable state)
    (finished : state.main = .finished) (nobody : ∀ thread, (state.place thread).inRun = false) :
    Ends mainThread state := by
  have taken : (apart mainThread Call).step state .stop state.stop :=
    apart_stop finished nobody
  have reached := reachable.step taken
  refine .step taken (ends_of_stopped reached ?_)
  have allowed := (valid reached).allows
  unfold State.stop at allowed ⊢
  split at allowed
  · cases allowed
  · rfl

private theorem ends_of_module [Infinite Call] (reachable : (apart mainThread Call).Reachable state)
    (inside : state.main = .module) : Ends mainThread state := by
  refine (settles reachable (by rw [inside]; rfl)).bind ?_
  intro settled done
  obtain ⟨reached, main, gil, python⟩ := done
  have taken := apart_step (Step.finish (main.trans inside) gil (python mainThread)) (by simp)
    (by simp)
  have after := reached.step taken
  refine .step taken (ends_of_finished after ?_ ?_)
  · have allowed := (valid after).allows
    unfold State.finish at allowed ⊢
    split at allowed
    · cases allowed
    · rfl
  · intro thread
    rw [(frame_finish settled).place, python thread]
    rfl

/-- The module is over, and a thread is still in `application_run`. -/
structure Stranded (state : State Thread Call) : Prop where
  finished : state.main = .finished
  inside : ∃ thread, (state.place thread).inRun = true

omit [DecidableEq Call] in
/-- A thread that moves on outside of `application_run` is not the stranded one. -/
theorem Stranded.elsewhere {place : Place Thread Call} (stranded : Stranded state)
    (outside : (state.place thread).inRun = false) (main : next.main = state.main)
    (places : next.place = Function.update state.place thread place) : Stranded next := by
  obtain ⟨finished, other, inside⟩ := stranded
  refine ⟨main.trans finished, other, ?_⟩
  rw [places, Function.update_of_ne]
  · exact inside
  · intro same
    rw [same, outside] at inside
    cases inside

omit [DecidableEq Call] in
theorem Stranded.within {place : Place Thread Call} (stranded : Stranded state)
    (inRun : place.inRun = true) (main : next.main = state.main)
    (places : next.place = Function.update state.place thread place) : Stranded next := by
  refine ⟨main.trans stranded.finished, thread, ?_⟩
  rw [places, Function.update_self]
  exact inRun

theorem Stranded.step (stranded : Stranded state) (valid : Valid state)
    (orderly : Orderly mainThread state) (taken : (apart mainThread Call).step state label next) :
    Stranded next := by
  obtain ⟨step, apart⟩ := taken
  have after := valid.step step apart
  have asleep : state.main.interprets ≠ true := by
    rw [stranded.finished]
    exact Bool.false_ne_true
  cases step with
  | start place | finish place | finalize place | delete place =>
      cases stranded.finished.symm.trans place
  | stop =>
      obtain ⟨thread, inside⟩ := stranded.inside
      cases inside.symm.trans (apart.2 rfl thread)
  | acquire interprets | release interprets | run interprets | restore interprets
  | listen interprets | reacquire interprets => exact absurd interprets asleep
  | deliver | drain => exact ⟨stranded.finished, stranded.inside⟩
  | store => exact stranded.within rfl rfl rfl
  | leave => exact stranded.within rfl rfl rfl
  | terminate =>
      have allowed := after.allows
      refine ⟨?_, ?_⟩
      · unfold State.terminate at allowed ⊢
        split at allowed
        · cases allowed
        · exact stranded.finished
      · rw [(frame_terminate state _).place]
        exact stranded.inside
  | clear restored =>
      obtain ⟨holder, python⟩ := orderly.finished stranded.finished
      cases holder.symm.trans (orderly.restored _ restored)
      cases python.symm.trans restored
  | check issuing =>
      rcases check_cases state _ _ with ⟨_, passed⟩ | ⟨_, refused⟩
      · rw [passed]
        exact stranded.elsewhere (by rw [issuing]; rfl) rfl rfl
      · rw [refused]
        exact stranded.elsewhere (by rw [issuing]; rfl) rfl rfl
  | enqueue putting => exact stranded.elsewhere (by rw [putting]; rfl) rfl rfl
  | send sending => exact stranded.elsewhere (by rw [sending]; rfl) rfl rfl

/-- No interleaving blocks the application for good, but for a module that ends
while a thread is in `application_run`: that thread waits for a lock that it
never gets, and `application_dtor` may not be called. -/
theorem ends_iff [Infinite Call] (mainThread : Thread) (state : State Thread Call)
    (reachable : (apart mainThread Call).Reachable state) :
    Ends mainThread state ↔ ¬ Stranded state := by
  constructor
  · intro ends stranded
    obtain ⟨last, leads, deleted⟩ := ends
    have kept := leads.invariant
      (fun state => Valid state ∧ Orderly mainThread state ∧ Stranded state)
      ⟨valid reachable, orderly reachable, stranded⟩ fun state label next before taken =>
        ⟨before.1.step taken.1 taken.2, before.2.1.step before.1 taken.1,
          before.2.2.step before.1 before.2.1 taken⟩
    cases kept.2.2.finished.symm.trans deleted
  · intro free
    cases place : state.main with
    | constructed =>
        have taken : (apart mainThread Call).step state .start
            { state with app := state.app.start, main := .module } :=
          apart_step (.start place) (by simp) (by simp)
        exact .step taken (ends_of_module (reachable.step taken) rfl)
    | module => exact ends_of_module reachable place
    | finished =>
        refine ends_of_finished reachable place fun thread => ?_
        cases inside : (state.place thread).inRun with
        | false => rfl
        | true => exact absurd ⟨place, thread, inside⟩ free
    | stopped => exact ends_of_stopped reachable place
    | finalized => exact ends_of_finalized reachable place
    | deleted => exact .now place
    | aborted =>
        have allowed := (valid reachable).phase place
        cases allowed

/-- At its start singlev can end; with another thread in `application_run` when
the module is over it cannot. -/
theorem ends_iff_stranded :
    Ends false (.fresh false fun _ => ⟨0, none⟩ : State Bool Nat) ∧
      ∃ state : State Bool Nat, (apart false Nat).Reachable state ∧ ¬ Ends false state := by
  have fresh : (apart false Nat).Reachable (.fresh false fun _ => ⟨0, none⟩) := .start ⟨_, rfl⟩
  constructor
  · exact (ends_iff false _ fresh).mpr fun stranded => by cases stranded.finished
  · have started := fresh.step (apart_step (.start rfl) (by simp) (by simp))
    have released := started.step
      (apart_step (@Step.release _ _ _ _ _ _ false rfl rfl rfl) (by simp) (by simp))
    have acquired := released.step
      (apart_step (@Step.acquire _ _ _ _ _ _ true rfl rfl rfl) (by simp) (by simp))
    have entered := acquired.step
      (apart_run (@Step.run _ _ _ _ _ _ true rfl rfl rfl) fun other saving => by cases saving)
    have back := entered.step
      (apart_step (@Step.acquire _ _ _ _ _ _ false rfl rfl rfl) (by simp) (by simp))
    have ended := back.step (apart_step (.finish rfl rfl rfl) (by simp) (by simp))
    exact ⟨_, ended, fun ends => (ends_iff false _ ended).mp ends ⟨rfl, true, rfl⟩⟩

end Striga.Singlev.ApplicationRun
