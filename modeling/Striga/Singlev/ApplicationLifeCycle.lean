import Striga.Singlev.ApplicationRun
import Striga.CmdQExitCount

/-! The life of a singlev application whose threads stay out of each other's way
in `application_run`: its phases, the count of its loop, its thread state, the
interpreter lock, and the asserts on the way. -/

set_option autoImplicit false

namespace Striga.Singlev

open Lib

/-- The phases in which the terminating signals are watched. -/
def RunPhase.armed : RunPhase → Bool
  | .init | .run => true
  | .dying | .exit => false

namespace Application

variable {Thread : Type} {app : Application Thread}

private theorem stopSignals_activecnt (app : Application Thread) :
    app.stopSignals.mainLoop.activecnt = app.mainLoop.activecnt - app.references := by
  simp only [stopSignals, references, EvSignal.stop]
  cases app.sigint.active with
  | false => cases app.sigterm.active <;> simp [EvLoop.unref]
  | true =>
      cases app.sigterm.active with
      | false => simp [EvLoop.unref]
      | true =>
          simp only [EvLoop.unref, if_true]
          exact Int.sub_sub app.mainLoop.activecnt 1 1

private theorem stopSignals_inactive (app : Application Thread) (signal : TerminatingSignal) :
    (app.stopSignals.watcher signal).active = false := by
  cases signal with
  | sigint =>
      simp only [stopSignals, watcher, EvSignal.stop]
      split
      · rfl
      · rename_i inactive
        exact (Bool.not_eq_true _).mp inactive
  | sigterm =>
      simp only [stopSignals, watcher, EvSignal.stop]
      split
      · rfl
      · rename_i inactive
        exact (Bool.not_eq_true _).mp inactive

theorem references_of_inactive
    (inactive : ∀ signal, (app.watcher signal).active = false) : app.references = 0 := by
  have sigint : app.sigint.active = false := inactive .sigint
  have sigterm : app.sigterm.active = false := inactive .sigterm
  rw [references, sigint, sigterm]
  rfl

theorem stop_shape {after : Application Thread} (stopped : app.stop = some after) :
    { app with
      mainLoop := (app.cmdQ.stop app.mainLoop).1
      cmdQ := (app.cmdQ.stop app.mainLoop).2 } = after := by
  unfold Application.stop at stopped
  split at stopped
  · cases stopped
  · exact Option.some.inj stopped

/-- The loop counts the watchers of the signals and nothing else, and these are
active until the application dies. -/
structure Counted (app : Application Thread) : Prop where
  activecnt : app.mainLoop.activecnt = app.references
  armed : ∀ signal, (app.watcher signal).active = app.runPhase.armed

namespace Counted

theorem ctor (block : Nat → SubjectCmd Data) : Counted (.ctor block : Application Thread) :=
  ⟨rfl, fun signal => by cases signal <;> rfl⟩

theorem start (counted : Counted app) (initial : app.runPhase = .init) : Counted app.start :=
  ⟨counted.activecnt, fun signal => (counted.armed signal).trans (by rw [initial]; rfl)⟩

theorem deliver (counted : Counted app) (signal : TerminatingSignal) :
    Counted (app.deliver signal) ∧ (app.deliver signal).runPhase = app.runPhase ∧
      (app.deliver signal).cmdQ = app.cmdQ := by
  have same (watcher : EvSignal) : watcher.deliver.active = watcher.active := by
    unfold EvSignal.deliver
    split <;> rfl
  refine ⟨⟨?_, ?_⟩, ?_, ?_⟩
  · refine Eq.trans ?_ (counted.activecnt.trans ?_)
    · cases signal <;> rfl
    · cases signal <;> simp [references, Application.deliver, same]
  · intro other
    have armed := counted.armed other
    cases signal <;> cases other <;> simpa [Application.deliver, watcher, same] using armed
  · cases signal <;> rfl
  · cases signal <;> rfl

theorem clear (counted : Counted app) (signal : TerminatingSignal) :
    Counted (app.clear signal) ∧ (app.clear signal).runPhase = app.runPhase ∧
      (app.clear signal).cmdQ = app.cmdQ := by
  refine ⟨⟨?_, ?_⟩, ?_, ?_⟩
  · refine Eq.trans ?_ (counted.activecnt.trans ?_)
    · cases signal <;> rfl
    · cases signal <;> rfl
  · intro other
    have armed := counted.armed other
    cases signal <;> cases other <;> exact armed
  · cases signal <;> rfl
  · cases signal <;> rfl

private theorem stopSignals (counted : Counted app) {phase : RunPhase}
    (disarmed : phase.armed = false) :
    Counted { app with runPhase := phase }.stopSignals := by
  have inactive := stopSignals_inactive { app with runPhase := phase }
  constructor
  · rw [stopSignals_activecnt, references_of_inactive inactive]
    have before : app.mainLoop.activecnt = app.references := counted.activecnt
    exact Int.sub_eq_zero_of_eq before
  · intro signal
    exact (inactive signal).trans disarmed.symm

/-- The assert of `_application_die` holds, except in front of
`application_start`. -/
theorem die (counted : Counted app) (started : app.runPhase ≠ .init) :
    ∃ after, app.die = some after ∧ Counted after ∧ after.cmdQ = app.cmdQ ∧
      after.runPhase = if app.runPhase = .exit then .exit else .dying := by
  cases phase : app.runPhase with
  | init => exact absurd phase started
  | run => exact ⟨_, by simp [Application.die, phase], counted.stopSignals rfl, rfl, rfl⟩
  | dying => exact ⟨app, by simp [Application.die, phase], counted, rfl, phase⟩
  | exit => exact ⟨app, by simp [Application.die, phase], counted, rfl, phase⟩

/-- `cmd_q_stop` gives back the reference that `cmd_q_start` has given up. -/
theorem stop (counted : Counted app) (unlooped : app.pythonThreadState = none)
    (active : app.cmdQ.watcher.active = true) :
    ∃ after, app.stop = some after ∧ Counted after ∧ after.runPhase = app.runPhase ∧
      after.cmdQ.watcher.active = false := by
  refine ⟨{ app with
      mainLoop := (app.cmdQ.stop app.mainLoop).1
      cmdQ := (app.cmdQ.stop app.mainLoop).2 }, ?_, ⟨?_, counted.armed⟩, rfl, ?_⟩
  · simp [Application.stop, unlooped]
  · have kept := (EvAsync.ref_stop_activecnt_iff app.mainLoop app.cmdQ.watcher).mpr active
    exact kept.trans counted.activecnt
  · exact EvAsync.stop_active app.mainLoop.ref app.cmdQ.watcher

private theorem unarmed (counted : Counted app) (unheld : app.mainLoop.activecnt = 0) :
    app.runPhase.armed = false := by
  have none := counted.activecnt.symm.trans unheld
  cases armed : app.runPhase.armed with
  | false => rfl
  | true =>
      have sigint : app.sigint.active = true := (counted.armed .sigint).trans armed
      rw [references, sigint] at none
      cases active : app.sigterm.active <;> simp [active] at none

end Counted

end Application

namespace ApplicationRun

/-- The phases that a place of the main thread goes with. -/
def Main.allows (main : Main) (phase : RunPhase) : Bool :=
  match main with
  | .constructed => phase = .init
  | .module => phase = .run || phase = .dying
  | .finished | .stopped => phase = .dying
  | .finalized | .deleted => phase = .exit
  | .aborted => false

/-- Between `cmd_q_start` and `cmd_q_stop`. -/
def Main.receives : Main → Bool
  | .constructed | .module | .finished => true
  | _ => false

/-- Behind the return of `ev_run` and not yet back in the interpreter. -/
def Place.left {Thread Call : Type} : Place Thread Call → Bool
  | .restoring _ | .restored => true
  | _ => false

theorem Place.inRun_of_left {Thread Call : Type} {place : Place Thread Call}
    (left : place.left = true) : place.inRun = true := by
  cases place with
  | restoring | restored => rfl
  | python | saving | looping | issuing | putting | sending | issued => cases left

variable {Thread Call : Type} {thread : Thread} {state next : State Thread Call}

/-- No thread is in `application_run` when `application_dtor` is called. -/
def StopsApart (state : State Thread Call) (label : Label Thread Call)
    (_ : State Thread Call) : Prop :=
  label = .stop → ∀ thread, (state.place thread).inRun = false

def Apart (state : State Thread Call) (label : Label Thread Call) (next : State Thread Call) :
    Prop :=
  EntersApart state label next ∧ StopsApart state label next

structure Valid (state : State Thread Call) : Prop where
  alone : LoopsAlone state
  counted : state.app.Counted
  allows : state.main.allows state.app.runPhase = true
  receives : state.app.cmdQ.watcher.active = state.main.receives
  inside : ∀ thread, (state.place thread).inRun = true →
    state.main = .module ∨ state.main = .finished
  left : ∀ thread, (state.place thread).left = true → state.app.runPhase = .dying
  holds : ∀ thread, state.gil = some thread →
    state.place thread = .python ∨ state.place thread = .restored
  quiet : state.main.interprets = false → state.main ≠ .finished →
    ∀ thread, state.place thread = .python

namespace Valid

private theorem python_of_quiet (valid : Valid state) {main : Main} (place : state.main = main)
    (idle : main.interprets = false) (elsewhere : main ≠ .finished) :
    ∀ thread, state.place thread = .python := by
  apply valid.quiet
  · rw [place]
    exact idle
  · rw [place]
    exact elsewhere

/-- The facts about the phase with the place of the main thread put in. -/
theorem phase (valid : Valid state) {main : Main} (place : state.main = main) :
    main.allows state.app.runPhase = true := place ▸ valid.allows

/-- A step that changes nothing but the application. -/
private theorem change (valid : Valid state) {app : Application Thread} (counted : app.Counted)
    (alone : LoopsAlone { state with app := app })
    (phase : app.runPhase = state.app.runPhase ∨
      app.runPhase = .dying ∧ (state.main = .module ∨ state.main = .finished))
    (receives : app.cmdQ.watcher.active = state.app.cmdQ.watcher.active) :
    Valid { state with app := app } := by
  refine { valid with
    alone := alone
    counted := counted
    allows := ?_
    receives := receives.trans valid.receives
    left := ?_ }
  · rcases phase with same | ⟨dying, module | finished⟩
    · simpa [same] using valid.allows
    · simp [module, dying, Main.allows]
    · simp [finished, dying, Main.allows]
  · intro thread left
    rcases phase with same | ⟨dying, _⟩
    · exact same.trans (valid.left thread left)
    · exact dying

end Valid

theorem insert_active [DecidableEq Call] (drain : CmdQDrain.State Call Data)
    (cmd : Call → SubjectCmd Data) (call : Call) :
    (drain.insert cmd call).this.watcher.active = drain.this.watcher.active := by
  unfold CmdQDrain.State.insert
  rw [CmdQ.watcher_enqueue]

private theorem enqueue_active [DecidableEq Call] {cmd : Call → SubjectCmd Data}
    (drain : CmdQDrain.State Call Data) (call : Call) :
    (drain.enqueue cmd call).this.watcher.active = drain.this.watcher.active := by
  unfold CmdQDrain.State.enqueue
  split
  · exact insert_active drain cmd call
  · rfl

/-- Only `cmd_q_start` and `cmd_q_stop` change whether the watcher is active. -/
theorem drain_active [DecidableEq Call] {cmd : Call → SubjectCmd Data} {early : Bool}
    {drain after : CmdQDrain.State Call Data} {label : CmdQDrain.Label Call}
    (taken : CmdQDrain.Step cmd early drain label after) :
    after.this.watcher.active = drain.this.watcher.active := by
  cases taken with
  | enqueue => exact enqueue_active drain _
  | send | wake | dispatch | finish => rfl
  | get =>
      simp only [CmdQDrain.State.get]
      rw [CmdQ.watcher_get]

private theorem Valid.start (valid : Valid state) (constructed : state.main = .constructed)
    (alone : LoopsAlone { state with app := state.app.start, main := .module }) :
    Valid { state with app := state.app.start, main := .module } := by
  have python := valid.python_of_quiet constructed rfl (by simp)
  have initial : state.app.runPhase = .init := by
    have allowed := valid.phase constructed
    cases phase : state.app.runPhase <;> simp [phase, Main.allows] at allowed ⊢
  refine { valid with
    alone := alone
    counted := valid.counted.start initial
    allows := rfl
    receives := valid.receives.trans (by rw [constructed]; rfl)
    inside := fun _ _ => .inl rfl
    left := ?_
    quiet := fun idle => by cases idle }
  intro thread left
  rw [python thread] at left
  cases left

private theorem Valid.finish (valid : Valid state) (module : state.main = .module)
    (alone : LoopsAlone state.finish) : Valid state.finish := by
  have allowed := valid.phase module
  have started : state.app.runPhase ≠ .init := by
    intro initial
    rw [initial] at allowed
    cases allowed
  obtain ⟨after, died, counted, queue, phase⟩ := valid.counted.die started
  have dying : after.runPhase = .dying := by
    rw [phase, if_neg]
    intro exited
    rw [exited] at allowed
    cases allowed
  have shape : state.finish = { state with app := after, main := .finished } := by
    simp [State.finish, died]
  rw [shape] at alone ⊢
  refine { valid with
    alone := alone
    counted := counted
    allows := by rw [dying]; rfl
    receives := by rw [queue, valid.receives, module]; rfl
    inside := fun _ _ => .inr rfl
    left := fun _ _ => dying
    quiet := fun _ elsewhere => absurd rfl elsewhere }

private theorem Valid.stop (valid : Valid state) (finished : state.main = .finished)
    (nobody : ∀ thread, (state.place thread).inRun = false) (alone : LoopsAlone state.stop) :
    Valid state.stop := by
  have unlooped : state.app.pythonThreadState = none := by
    cases tstate : state.app.pythonThreadState with
    | none => rfl
    | some owner =>
        have inside := Place.inRun_of_stored ((valid.alone.stored owner).mp tstate)
        rw [nobody owner] at inside
        cases inside
  have active : state.app.cmdQ.watcher.active = true := by
    rw [valid.receives, finished]
    rfl
  obtain ⟨after, stopped, counted, phase, inactive⟩ := valid.counted.stop unlooped active
  have shape : state.stop = { state with app := after, main := .stopped } := by
    simp [State.stop, stopped]
  have dying := valid.phase finished
  rw [shape] at alone ⊢
  refine { valid with
    alone := alone
    counted := counted
    allows := by rw [phase]; exact dying
    receives := inactive
    inside := ?_
    left := ?_
    quiet := fun idle => by cases idle }
  · intro thread inside
    rw [nobody thread] at inside
    cases inside
  · intro thread left
    have inside := Place.inRun_of_left left
    rw [nobody thread] at inside
    cases inside

private theorem Valid.finalize (valid : Valid state) (stopped : state.main = .stopped)
    (python : ∀ thread, state.place thread = .python)
    (alone : LoopsAlone { state with app := state.app.exit, main := .finalized, gil := none }) :
    Valid { state with app := state.app.exit, main := .finalized, gil := none } := by
  refine { valid with
    alone := alone
    counted := valid.counted.stopSignals rfl
    allows := rfl
    receives := valid.receives.trans (by rw [stopped]; rfl)
    inside := ?_
    left := ?_
    holds := fun _ held => by cases held
    quiet := fun _ _ => python }
  · intro thread inside
    rw [python thread] at inside
    cases inside
  · intro thread left
    rw [python thread] at left
    cases left

private theorem Valid.delete (valid : Valid state) (finalized : state.main = .finalized)
    (alone : LoopsAlone state.delete) : Valid state.delete := by
  have python := valid.python_of_quiet finalized rfl (by simp)
  have inactive : state.app.cmdQ.watcher.active = false := by
    rw [valid.receives, finalized]
    rfl
  have shape : state.delete = { state with main := .deleted } := by
    simp [State.delete, CmdQ.deletable, inactive]
  have exited := valid.phase finalized
  rw [shape] at alone ⊢
  refine { valid with
    alone := alone
    allows := exited
    receives := inactive
    inside := ?_
    quiet := fun _ _ => python }
  intro thread inside
  rw [python thread] at inside
  cases inside

private theorem Valid.terminate (valid : Valid state) {signal : TerminatingSignal}
    (looping : state.place thread = .looping) (active : (state.app.watcher signal).active = true)
    (alone : LoopsAlone (state.terminate signal)) : Valid (state.terminate signal) := by
  obtain ⟨cleared, phase, queue⟩ := valid.counted.clear signal
  have armed := (valid.counted.armed signal).symm.trans active
  have inside := valid.inside thread (by rw [looping]; rfl)
  have running : state.app.runPhase = .run := by
    have allowed := valid.allows
    cases current : state.app.runPhase with
    | run => rfl
    | init => rcases inside with module | finished <;> simp_all [Main.allows]
    | dying | exit =>
        rw [current] at armed
        cases armed
  obtain ⟨after, died, counted, kept, ended⟩ := cleared.die (by rw [phase, running]; simp)
  rw [phase, running] at ended
  have shape : state.terminate signal = { state with app := after } := by
    simp [State.terminate, died]
  rw [shape] at alone ⊢
  exact valid.change counted alone (.inr ⟨ended, inside⟩) (by rw [kept, queue])

variable [DecidableEq Thread]

/-- A step of one thread that the main thread takes no notice of. -/
theorem Valid.move (valid : Valid state) {place : Place Thread Call} (alone : LoopsAlone next)
    (counted : next.app.Counted) (phase : next.app.runPhase = state.app.runPhase)
    (receives : next.app.cmdQ.watcher.active = state.app.cmdQ.watcher.active)
    (main : next.main = state.main)
    (places : next.place = Function.update state.place thread place)
    (inside : place.inRun = true → state.main = .module ∨ state.main = .finished)
    (left : place.left = true → state.app.runPhase = .dying)
    (holds : ∀ other, next.gil = some other →
      next.place other = .python ∨ next.place other = .restored)
    (busy : state.main.interprets = true ∨ state.place thread ≠ .python) : Valid next where
  alone := alone
  counted := counted
  allows := by rw [main, phase]; exact valid.allows
  receives := by rw [main, receives]; exact valid.receives
  inside := by
    rw [places, main]
    exact (Function.forall_update_iff _
      (fun _ (place : Place Thread Call) => place.inRun = true → _ ∨ _)).mpr
        ⟨inside, fun other _ => valid.inside other⟩
  left := by
    rw [places, phase]
    exact (Function.forall_update_iff _
      (fun _ (place : Place Thread Call) => place.left = true → _)).mpr
        ⟨left, fun other _ => valid.left other⟩
  holds := holds
  quiet := by
    rw [main]
    intro idle elsewhere
    rcases busy with interprets | moved
    · rw [interprets] at idle
      cases idle
    · exact absurd (valid.quiet idle elsewhere thread) moved

theorem Valid.holds_same (valid : Valid state) {place : Place Thread Call}
    (before : state.place thread ≠ .python ∧ state.place thread ≠ .restored)
    (places : next.place = Function.update state.place thread place)
    (gil : next.gil = state.gil) :
    ∀ other, next.gil = some other →
      next.place other = .python ∨ next.place other = .restored := by
  intro other holder
  rw [gil] at holder
  have known := valid.holds other holder
  rw [places, Function.update_of_ne]
  · exact known
  · intro same
    subst same
    rcases known with python | restored
    · exact before.1 python
    · exact before.2 restored

variable [DecidableEq Call] {mainThread : Thread} {label : Label Thread Call}

/-- The runs in which threads keep apart. -/
abbrev apart (mainThread : Thread) (Call : Type) [DecidableEq Call] :
    System (State Thread Call) (Label Thread Call) :=
  (system mainThread Call).restrict Apart

/-- Only calls of `application_run` and of `application_dtor` can bring threads
together. -/
theorem apart_step (taken : Step mainThread state label next)
    (elsewhere : ∀ thread, label ≠ .run thread) (stays : label ≠ .stop) :
    (apart mainThread Call).step state label next :=
  ⟨taken, fun thread called => absurd called (elsewhere thread), fun stops => absurd stops stays⟩

theorem apart_run (taken : Step mainThread state (.run thread) next)
    (nobody : ∀ other, state.place other ≠ .saving) :
    (apart mainThread Call).step state (.run thread) next :=
  ⟨taken, fun _ _ _ => nobody, fun stops => by cases stops⟩

theorem apart_stop (finished : state.main = .finished)
    (nobody : ∀ thread, (state.place thread).inRun = false) :
    (apart mainThread Call).step state .stop state.stop := by
  refine ⟨.stop finished, ?_, fun _ => nobody⟩
  exact fun thread called => by cases called

theorem Valid.step (valid : Valid state) (taken : Step mainThread state label next)
    (apart : Apart state label next) : Valid next := by
  have alone : LoopsAlone next := (valid.alone.step_iff taken).mpr apart.1
  cases taken with
  | start constructed => exact valid.start constructed alone
  | finish module => exact valid.finish module alone
  | stop finished => exact valid.stop finished (apart.2 rfl) alone
  | finalize stopped _ python => exact valid.finalize stopped python alone
  | delete finalized => exact valid.delete finalized alone
  | @deliver signal =>
      obtain ⟨counted, phase, queue⟩ := valid.counted.deliver signal
      exact valid.change counted alone (.inl phase) (by rw [queue])
  | acquire interprets free python =>
      refine { valid with alone := alone, holds := ?_ }
      intro other holder
      cases holder
      exact .inl python
  | release =>
      exact { valid with alone := alone, holds := fun _ holder => by cases holder }
  | @run thread interprets holder python =>
      rcases run_cases interprets thread with ⟨running, _, entered⟩ | ⟨_, text, refused⟩
      · rw [entered] at alone ⊢
        refine valid.move alone valid.counted rfl rfl rfl rfl ?_ (by simp [Place.left])
          (fun _ holder => by cases holder) (.inl interprets)
        intro _
        have allowed := valid.allows
        rw [running] at allowed
        cases main : state.main <;> simp [main, Main.allows] at allowed ⊢
      · rw [refused] at alone ⊢
        exact { valid with alone := alone }
  | store saving =>
      refine valid.move alone ⟨valid.counted.activecnt, valid.counted.armed⟩ rfl rfl rfl rfl ?_
        (by simp [Place.left]) (valid.holds_same (by simp [saving]) rfl rfl)
          (.inr (by simp [saving]))
      exact fun _ => valid.inside _ (by rw [saving]; rfl)
  | terminate looping _ active => exact valid.terminate looping active alone
  | drain looping _ drained =>
      exact { valid with
        alone := alone
        counted := ⟨valid.counted.activecnt, valid.counted.armed⟩
        receives := (drain_active drained).trans valid.receives }
  | @leave thread looping waiting unheld =>
      have inside := valid.inside thread (by rw [looping]; rfl)
      refine valid.move alone valid.counted rfl rfl rfl rfl (fun _ => inside) ?_
        (valid.holds_same (by simp [looping]) rfl rfl) (.inr (by simp [looping]))
      intro _
      have allowed := valid.allows
      have unarmed : state.app.runPhase.armed = false := valid.counted.unarmed unheld
      cases phase : state.app.runPhase with
      | dying => rfl
      | init | run =>
          rw [phase] at unarmed
          cases unarmed
      | exit => rcases inside with module | finished <;> simp_all [Main.allows]
  | @restore thread owner interprets free restoring =>
      have own := valid.alone.own thread _ restoring
      cases own
      refine valid.move alone valid.counted rfl rfl rfl rfl
        (fun _ => valid.inside _ (by rw [restoring]; rfl))
        (fun _ => valid.left _ (by rw [restoring]; rfl)) ?_ (.inl interprets)
      intro other holder
      cases holder
      exact .inr (Function.update_self ..)
  | @clear thread restored =>
      refine valid.move alone ⟨valid.counted.activecnt, valid.counted.armed⟩ rfl rfl rfl rfl
        (by simp [Place.inRun]) (by simp [Place.left]) ?_ (.inr (by simp [restored]))
      intro other holder
      by_cases same : other = thread
      · subst same
        exact .inl (Function.update_self ..)
      · have elsewhere : (state.clear thread).place other = state.place other :=
          Function.update_of_ne same ..
        rw [elsewhere]
        exact valid.holds other holder
  | @listen thread interprets holder python =>
      rcases listen_cases interprets thread with ⟨_, entered⟩ | ⟨_, text, refused⟩
      · rw [entered] at alone ⊢
        exact valid.move alone valid.counted rfl rfl rfl rfl (by simp [Place.inRun])
          (by simp [Place.left]) (fun _ holder => by cases holder) (.inl interprets)
      · rw [refused] at alone ⊢
        exact { valid with alone := alone }
  | @check thread call issuing =>
      rcases check_cases state thread call with ⟨_, passed⟩ | ⟨_, refused⟩
      · rw [passed] at alone ⊢
        exact valid.move alone valid.counted rfl rfl rfl rfl (by simp [Place.inRun])
          (by simp [Place.left]) (valid.holds_same (by simp [issuing]) rfl rfl)
          (.inr (by simp [issuing]))
      · rw [refused] at alone ⊢
        exact valid.move alone ⟨valid.counted.activecnt, valid.counted.armed⟩ rfl rfl rfl rfl
          (by simp [Place.inRun]) (by simp [Place.left])
          (valid.holds_same (by simp [issuing]) rfl rfl) (.inr (by simp [issuing]))
  | @enqueue thread call putting =>
      have active : (state.enqueue thread call).app.cmdQ.watcher.active =
          state.app.cmdQ.watcher.active :=
        insert_active state.drain (fun _ => listenCmd) call
      refine valid.move alone ⟨valid.counted.activecnt, valid.counted.armed⟩ rfl active rfl rfl ?_
        ?_ (valid.holds_same (by simp [putting]) rfl rfl) (.inr (by simp [putting]))
      · split <;> simp [Place.inRun]
      · split <;> simp [Place.left]
  | send sending =>
      exact valid.move alone ⟨valid.counted.activecnt, valid.counted.armed⟩ rfl rfl rfl rfl
        (by simp [Place.inRun]) (by simp [Place.left])
        (valid.holds_same (by simp [sending]) rfl rfl) (.inr (by simp [sending]))
  | reacquire interprets free issued =>
      refine valid.move alone valid.counted rfl rfl rfl rfl (by simp [Place.inRun])
        (by simp [Place.left]) ?_ (.inl interprets)
      intro other holder
      cases holder
      exact .inl (Function.update_self ..)

omit [DecidableEq Thread] [DecidableEq Call] in
theorem Valid.fresh (block : Nat → SubjectCmd Data) :
    Valid (.fresh mainThread block : State Thread Call) where
  alone := LoopsAlone.fresh mainThread block
  counted := Application.Counted.ctor block
  allows := rfl
  receives := rfl
  inside _ inside := by cases inside
  left _ left := by cases left
  holds _ _ := .inl rfl
  quiet _ _ _ := rfl

theorem valid (reachable : (apart mainThread Call).Reachable state) :
    Valid state := by
  refine reachable.invariant Valid ?_ ?_
  · intro state starts
    obtain ⟨block, rfl⟩ := starts
    exact Valid.fresh block
  · intro state label next valid taken
    exact valid.step taken.1 taken.2

omit [DecidableEq Thread] [DecidableEq Call] in
private theorem die_code {app after : Application Thread} (died : app.die = some after) :
    app.runPhase.code ≤ after.runPhase.code := by
  cases phase : app.runPhase <;> simp [Application.die, phase] at died <;> subst died <;>
    simp [phase, Application.stopSignals, RunPhase.code]

theorem Valid.code_le (valid : Valid state) (taken : Step mainThread state label next) :
    state.app.runPhase.code ≤ next.app.runPhase.code := by
  cases taken with
  | start constructed =>
      have allowed := valid.phase constructed
      have initial : state.app.runPhase = .init := of_decide_eq_true allowed
      rw [initial]
      show (0 : Int) ≤ 100
      decide
  | finish =>
      unfold State.finish
      cases died : state.app.die with
      | none => exact Int.le_refl _
      | some after => exact die_code died
  | stop =>
      unfold State.stop
      cases stopped : state.app.stop with
      | none => exact Int.le_refl _
      | some after =>
          obtain rfl := Application.stop_shape stopped
          exact Int.le_refl _
  | finalize =>
      show state.app.runPhase.code ≤ 1000
      cases state.app.runPhase <;> decide
  | delete =>
      unfold State.delete
      split <;> exact Int.le_refl _
  | @deliver signal =>
      have same := (valid.counted.deliver signal).2.1
      exact Int.le_of_eq (congrArg RunPhase.code same.symm)
  | @run thread interprets =>
      rcases run_cases interprets thread with ⟨_, _, entered⟩ | ⟨_, text, refused⟩
      · rw [entered]
        exact Int.le_refl _
      · rw [refused]
        exact Int.le_refl _
  | @listen thread interprets =>
      rcases listen_cases interprets thread with ⟨_, entered⟩ | ⟨_, text, refused⟩
      · rw [entered]
        exact Int.le_refl _
      · rw [refused]
        exact Int.le_refl _
  | @terminate thread signal =>
      unfold State.terminate
      have same := (valid.counted.clear signal).2.1
      cases died : (state.app.clear signal).die with
      | none => exact Int.le_refl _
      | some after => exact same ▸ die_code died
  | check =>
      rcases check_cases state _ _ with ⟨_, passed⟩ | ⟨_, refused⟩
      · rw [passed]
        exact Int.le_refl _
      · rw [refused]
        exact Int.le_refl _
  | acquire | release | store | drain | leave | restore | clear | enqueue | send | reacquire =>
      exact Int.le_refl _

/-- What a maintainer may rely on as long as the threads keep apart: no assert
fails, `application_run` ends after a terminating signal only, the loop runs
without the interpreter lock and with the stored thread state, no phase comes
back, and nothing is left when the application is gone. -/
structure LifeCycle (mainThread : Thread) (state : State Thread Call) : Prop where
  notAborted : state.main ≠ .aborted
  alone : LoopsAlone state
  activecnt : state.app.mainLoop.activecnt = state.app.references
  armed : ∀ signal, (state.app.watcher signal).active = true ↔
    state.app.runPhase = .init ∨ state.app.runPhase = .run
  returns : ∀ thread, (state.place thread).left = true → state.app.runPhase = .dying
  holds : ∀ thread, state.gil = some thread →
    state.place thread = .python ∨ state.place thread = .restored
  deleted : state.main = .deleted → state.app.mainLoop.activecnt = 0 ∧
    state.app.cmdQ.watcher.active = false ∧ ∀ thread, state.place thread = .python
  ordered : ∀ label next, Step mainThread state label next →
    state.app.runPhase.code ≤ next.app.runPhase.code

theorem lifeCycle (mainThread : Thread) (state : State Thread Call)
    (reachable : (apart mainThread Call).Reachable state) :
    LifeCycle mainThread state := by
  have valid := valid reachable
  refine {
    notAborted := ?_
    alone := valid.alone
    activecnt := valid.counted.activecnt
    armed := ?_
    returns := valid.left
    holds := valid.holds
    deleted := ?_
    ordered := fun _ _ taken => valid.code_le taken }
  · intro aborted
    have allowed := valid.phase aborted
    cases allowed
  · intro signal
    rw [valid.counted.armed signal]
    cases state.app.runPhase <;> decide
  · intro deleted
    have exited : state.app.runPhase = .exit := of_decide_eq_true (valid.phase deleted)
    have inactive : ∀ signal, (state.app.watcher signal).active = false := by
      intro signal
      rw [valid.counted.armed, exited]
      rfl
    refine ⟨?_, ?_, valid.python_of_quiet deleted rfl (by simp)⟩
    · rw [valid.counted.activecnt, Application.references_of_inactive inactive]
    · rw [valid.receives, deleted]
      rfl

/-- A whole run: the module calls `application_run`, another thread hands a listen
command over, and a signal ends the loop. -/
theorem lifeCycle_deleted :
    ∃ state : State Bool Nat, state.main = .deleted ∧ state.dispatched = [listenCmd] ∧
      LifeCycle false state := by
  have fresh : (apart false Nat).Reachable (.fresh false fun _ => listenCmd) := .start ⟨_, rfl⟩
  have started := fresh.step (apart_step (.start rfl) (by simp) (by simp))
  have entered := started.step
    (apart_run (@Step.run _ _ _ _ _ _ false rfl rfl rfl) fun other saving => by cases saving)
  have looping := entered.step
    (apart_step (@Step.store _ _ _ _ _ _ false rfl) (by simp) (by simp))
  have acquired := looping.step
    (apart_step (@Step.acquire _ _ _ _ _ _ true rfl rfl rfl) (by simp) (by simp))
  have issuing := acquired.step
    (apart_step (@Step.listen _ _ _ _ _ _ true rfl rfl rfl) (by simp) (by simp))
  have checked := issuing.step (apart_step
    (@Step.check _ _ _ _ _ _ true 7 rfl ⟨rfl, fun other => by cases other <;> nofun⟩)
    (by simp) (by simp))
  have enqueued := checked.step
    (apart_step (@Step.enqueue _ _ _ _ _ _ true 7 rfl) (by simp) (by simp))
  have sent := enqueued.step
    (apart_step (@Step.send _ _ _ _ _ _ true 7 rfl) (by simp) (by simp))
  have returned := (sent.step
    (apart_step (@Step.reacquire _ _ _ _ _ _ true 7 true rfl rfl rfl) (by simp) (by simp))).step
    (apart_step (@Step.release _ _ _ _ _ _ true rfl rfl rfl) (by simp) (by simp))
  have woken := returned.step (apart_step
    (@Step.drain _ _ _ _ _ _ false .wake _ rfl (.inl rfl) (.wake rfl rfl rfl))
    (by simp) (by simp))
  have got := woken.step (apart_step
    (@Step.drain _ _ _ _ _ _ false .get _ rfl (.inr (.inl rfl)) (.get rfl))
    (by simp) (by simp))
  have dispatched := got.step (apart_step
    (@Step.drain _ _ _ _ _ _ false .dispatch _ rfl (.inr (.inr (.inl rfl))) (.dispatch rfl))
    (by simp) (by simp))
  have drained := dispatched.step (apart_step
    (@Step.drain _ _ _ _ _ _ false .finish _ rfl (.inr (.inr (.inr rfl))) (.finish rfl))
    (by simp) (by simp))
  have signalled := drained.step
    (apart_step (@Step.deliver _ _ _ _ _ _ .sigint) (by simp) (by simp))
  have dying := signalled.step
    (apart_step (@Step.terminate _ _ _ _ _ _ false .sigint rfl rfl rfl rfl) (by simp) (by simp))
  have left := dying.step
    (apart_step (@Step.leave _ _ _ _ _ _ false rfl rfl rfl) (by simp) (by simp))
  have restored := left.step
    (apart_step (@Step.restore _ _ _ _ _ _ false false rfl rfl rfl) (by simp) (by simp))
  have cleared := restored.step
    (apart_step (@Step.clear _ _ _ _ _ _ false rfl) (by simp) (by simp))
  have finished := cleared.step (apart_step (.finish rfl rfl rfl) (by simp) (by simp))
  have stopped := finished.step (apart_stop rfl fun thread => by cases thread <;> rfl)
  have finalized := stopped.step
    (apart_step (.finalize rfl rfl fun thread => by cases thread <;> rfl) (by simp) (by simp))
  have deleted := finalized.step (apart_step (.delete rfl) (by simp) (by simp))
  exact ⟨_, rfl, rfl, lifeCycle false _ deleted⟩

end ApplicationRun

end Striga.Singlev
