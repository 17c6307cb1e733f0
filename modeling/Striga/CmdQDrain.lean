import Striga.CmdQCalls

/-! One started `cmd_q` with any number of calls of `cmd_q_put`, from any thread,
and the drain of the loop thread that `_event_loop_on_cmdq_ready` and
`_application_on_cmdq_ready` have in common. A put is two steps, its critical
section and its `ev_async_send`; the loop thread may put while it dispatches. -/

set_option autoImplicit false

namespace Striga.CmdQDrain

open Lib

inductive PutPhase where
  | idle
  | sending
  | returned (result : Bool)
  deriving DecidableEq, Repr

/-- The loop thread: in the loop, about to call `cmd_q_get`, or with a command
and the `qsize` that came with it, before or during its dispatch. -/
inductive Consumer (Subject : Type) where
  | waiting
  | getting
  | holding (cmd : SubjectCmd Subject) (qsize : Int32)
  | dispatching (cmd : SubjectCmd Subject) (qsize : Int32)

namespace Consumer

variable {Subject : Type}

def hand : Consumer Subject → List (SubjectCmd Subject)
  | .holding cmd _ => [cmd]
  | _ => []

/-- With `early` the drain stops once a command came with a `qsize` of zero. -/
def afterDispatch (early : Bool) (qsize : Int32) : Consumer Subject :=
  if early && qsize == 0 then .waiting else .getting

@[simp] theorem hand_afterDispatch (early : Bool) (qsize : Int32) :
    (afterDispatch early qsize : Consumer Subject).hand = [] := by
  unfold afterDispatch
  split
  · rfl
  · rfl

/-- The drain in progress is going to call `cmd_q_get` again. -/
def WillGet (early : Bool) : Consumer Subject → Prop
  | .waiting => False
  | .getting => True
  | .holding _ qsize | .dispatching _ qsize => (early && qsize == 0) = false

end Consumer

structure State (Call Subject : Type) where
  this : CmdQ Subject
  phase : Call → PutPhase
  consumer : Consumer Subject
  accepted : List Call
  dispatched : List (SubjectCmd Subject)

inductive Label (Call : Type) where
  | enqueue (call : Call)
  | send (call : Call)
  | wake
  | get
  | dispatch
  | finish

variable {Call Subject : Type} [DecidableEq Call]

def State.fresh (loop : EvLoop) (size : UInt32) (block : Nat → SubjectCmd Subject) :
    State Call Subject :=
  ⟨((CmdQ.new size block).start loop).2, fun _ => .idle, .waiting, [], []⟩

def State.refuse (state : State Call Subject) (call : Call) : State Call Subject :=
  { state with phase := Function.update state.phase call (.returned false) }

/-- The critical section of `cmd_q_put`. -/
def State.insert (state : State Call Subject) (cmd : Call → SubjectCmd Subject) (call : Call) :
    State Call Subject :=
  let (accepted, this) := state.this.enqueue (cmd call)
  { state with
    this := this
    phase := Function.update state.phase call (if accepted then .sending else .returned false)
    accepted := if accepted then state.accepted ++ [call] else state.accepted }

/-- `cmd_q_put` up to the end of its critical section. The check in front of it is
outside of the mutex, but of a queue that stays started it tells the same at any
time. -/
def State.enqueue (state : State Call Subject) (cmd : Call → SubjectCmd Subject) (call : Call) :
    State Call Subject :=
  if state.this.watcher.active then state.insert cmd call else state.refuse call

def State.get (state : State Call Subject) : State Call Subject :=
  match state.this.get with
  | (qsize, outCmd, this) =>
      { state with
        this := this
        consumer :=
          match outCmd with
          | some cmd => if qsize < 0 then .waiting else .holding cmd qsize
          | none => .waiting }

/-- One element of `Call` stands for one call of `cmd_q_put`; `cmd` gives the
command it passes. -/
inductive Step (cmd : Call → SubjectCmd Subject) (early : Bool) :
    State Call Subject → Label Call → State Call Subject → Prop where
  | enqueue {state call} :
      state.phase call = .idle →
      Step cmd early state (.enqueue call) (state.enqueue cmd call)
  | send {state call} :
      state.phase call = .sending →
      Step cmd early state (.send call)
        { state with
          this := state.this.send
          phase := Function.update state.phase call (.returned true) }
  | wake {state} :
      state.consumer = .waiting → state.this.watcher.active = true →
      state.this.watcher.sent = true →
      Step cmd early state .wake
        { state with
          this := { state.this with watcher := state.this.watcher.clear }
          consumer := .getting }
  | get {state} :
      state.consumer = .getting →
      Step cmd early state .get state.get
  | dispatch {state command qsize} :
      state.consumer = .holding command qsize →
      Step cmd early state .dispatch
        { state with
          consumer := .dispatching command qsize
          dispatched := state.dispatched ++ [command] }
  | finish {state command qsize} :
      state.consumer = .dispatching command qsize →
      Step cmd early state .finish { state with consumer := .afterDispatch early qsize }

def system (cmd : Call → SubjectCmd Subject) (size : UInt32) (early : Bool) :
    System (State Call Subject) (Label Call) where
  initial state := ∃ loop block, state = .fresh loop size block
  step := Step cmd early

variable {cmd : Call → SubjectCmd Subject} {size : UInt32} {early : Bool}
  {state : State Call Subject}

theorem active (reachable : (system cmd size early).Reachable state) :
    state.this.watcher.active = true := by
  refine reachable.invariant (fun state => state.this.watcher.active = true) ?_ ?_
  · intro state starts
    obtain ⟨loop, block, rfl⟩ := starts
    rfl
  · intro state label next active taken
    cases taken with
    | enqueue idle =>
        simp only [State.enqueue, active, if_true, State.insert]
        rwa [CmdQ.watcher_enqueue]
    | send | wake | dispatch | finish => exact active
    | get getting =>
        simp only [State.get]
        rwa [CmdQ.watcher_get]

theorem enqueue_of_active (active : state.this.watcher.active = true)
    (cmd : Call → SubjectCmd Subject) (call : Call) :
    state.enqueue cmd call = state.insert cmd call := if_pos active

theorem insert_cases (valid : state.this.WellFormed) (cmd : Call → SubjectCmd Subject)
    (call : Call) :
    state.insert cmd call = state.refuse call ∨
      ∃ after, after.pending = state.this.pending ++ [cmd call] ∧
        state.insert cmd call = { state with
          this := after
          phase := Function.update state.phase call .sending
          accepted := state.accepted ++ [call] } := by
  simp only [State.insert]
  rcases valid.enqueue_cases (cmd call) with ⟨_, refused⟩ | ⟨_, after, accepted⟩
  · exact .inl (by simp [refused, State.refuse])
  · exact .inr ⟨after, valid.pending_enqueue accepted, by simp [accepted]⟩

/-- What `cmd_q_put` does to a started queue up to the end of its critical section. -/
theorem enqueue_cases (active : state.this.watcher.active = true)
    (valid : state.this.WellFormed) (call : Call) :
    state.enqueue cmd call =
        { state with phase := Function.update state.phase call (.returned false) } ∨
      ∃ after, after.pending = state.this.pending ++ [cmd call] ∧
        state.enqueue cmd call = { state with
          this := after
          phase := Function.update state.phase call .sending
          accepted := state.accepted ++ [call] } := by
  rw [enqueue_of_active active]
  exact insert_cases valid cmd call

structure Matches (cmd : Call → SubjectCmd Subject) (state : State Call Subject)
    (history : History (SubjectCmd Subject)) : Prop where
  queue : state.this.Represents history.queue
  accepted : history.accepted = state.accepted.map cmd
  removed : history.removed = state.dispatched ++ state.consumer.hand

theorem Matches.insert {history : History (SubjectCmd Subject)}
    (same : Matches cmd state history) (call : Call) :
    Matches cmd (state.insert cmd call) (history.move (.offer (cmd call))) := by
  obtain ⟨result, represents⟩ := same.queue.enqueue (cmd call)
  simp only [State.insert]
  constructor
  · exact represents
  · simp only [History.move, ← result, same.accepted]
    split <;> simp
  · exact same.removed

omit [DecidableEq Call] in
/-- What the get of a drain does: with nothing pending it ends the drain, and
otherwise the drain holds the oldest command, with the number of the others. -/
theorem get_cases (valid : state.this.WellFormed) (small : state.this.size.toNat ≤ 2 ^ 31) :
    (state.this.pending = [] ∧ state.get = { state with consumer := .waiting }) ∨
      ∃ qsize outCmd after, state.this.get = (qsize, some outCmd, after) ∧
        state.this.pending = outCmd :: after.pending ∧ qsize.toInt = after.pending.length ∧
        state.get = { state with this := after, consumer := .holding outCmd qsize } := by
  rcases valid.get_cases small with ⟨idle, nothing⟩ |
    ⟨qsize, outCmd, after, removed, shape, counted⟩
  · refine .inl ⟨idle, ?_⟩
    simp only [State.get, nothing]
  · refine .inr ⟨qsize, outCmd, after, removed, shape, counted, ?_⟩
    have nonnegative : ¬qsize < 0 := by
      rw [Int32.lt_iff_toInt_lt, counted]
      simp
    simp only [State.get, removed, if_neg nonnegative]

omit [DecidableEq Call] in
theorem Matches.get {history : History (SubjectCmd Subject)} (same : Matches cmd state history)
    (small : state.this.size.toNat ≤ 2 ^ 31) (getting : state.consumer = .getting) :
    Matches cmd state.get (history.move .poll) := by
  obtain ⟨result, represents⟩ := same.queue.get
  have removed : history.removed = state.dispatched := by
    simpa [getting, Consumer.hand] using same.removed
  rcases get_cases same.queue.bounded small with
    ⟨idle, ended⟩ | ⟨qsize, outCmd, after, got, _, _, held⟩
  · have nothing : history.queue.items = [] := same.queue.items_eq.trans idle
    rw [ended, History.move, BoundedFifo.poll_empty nothing]
    exact ⟨same.queue, same.accepted, by simp [removed, Consumer.hand]⟩
  · rw [got] at result represents
    rw [held]
    exact ⟨represents, same.accepted, by simp [History.move, ← result, removed, Consumer.hand]⟩

theorem refines_history (positive : 0 < size) (small : size.toNat ≤ 2 ^ 31)
    (reachable : (system cmd size early).Reachable state) :
    ∃ history, (History.system (SubjectCmd Subject) (size.toNat - 1)).Reachable history ∧
      Matches cmd state history := by
  induction reachable with
  | start starts =>
      obtain ⟨loop, block, rfl⟩ := starts
      exact ⟨_, .start rfl, Ring.Machine.Represents.empty positive, rfl, rfl⟩
  | step earlier taken ih =>
      obtain ⟨history, reached, same⟩ := ih
      have sizeSame := Ring.Machine.Represents.size_eq positive same.queue
        (History.capacity_eq reached)
      cases taken with
      | enqueue idle =>
          rw [enqueue_of_active (active earlier)]
          exact ⟨_, reached.step rfl, same.insert _⟩
      | get getting =>
          exact ⟨_, reached.step rfl, same.get (sizeSame ▸ small) getting⟩
      | send => exact ⟨history, reached, same.queue, same.accepted, same.removed⟩
      | wake waiting =>
          refine ⟨history, reached, same.queue, same.accepted, ?_⟩
          simpa [waiting, Consumer.hand] using same.removed
      | dispatch holding =>
          refine ⟨history, reached, same.queue, same.accepted, ?_⟩
          simpa [holding, Consumer.hand] using same.removed
      | finish dispatching =>
          refine ⟨history, reached, same.queue, same.accepted, ?_⟩
          have removed : history.removed = _ := same.removed
          rw [dispatching] at removed
          rw [removed, Consumer.hand_afterDispatch]
          rfl

def Covered (early : Bool) (state : State Call Subject) : Prop :=
  state.this.pending ≠ [] →
    (state.this.watcher.active = true ∧ state.this.watcher.sent = true) ∨
      (∃ call, state.phase call = .sending) ∨ state.consumer.WillGet early

/-- A drain that ends after a command with a `qsize` of zero leaves behind only
what was put later, and each such put has its own send. -/
theorem covered (positive : 0 < size) (small : size.toNat ≤ 2 ^ 31)
    (reachable : (system cmd size early).Reachable state) : Covered early state := by
  induction reachable with
  | start starts =>
      obtain ⟨loop, block, rfl⟩ := starts
      intro pending
      exact absurd (Ring.Machine.Represents.empty positive).items.symm pending
  | @step state label next earlier taken covered =>
      have active := active earlier
      obtain ⟨history, reached, same⟩ := refines_history positive small earlier
      have sizeSame := Ring.Machine.Represents.size_eq positive same.queue
        (History.capacity_eq reached)
      cases taken with
      | @enqueue call idle =>
          intro pending
          rw [enqueue_of_active active] at pending ⊢
          simp only [State.insert] at pending ⊢
          rcases CmdQ.WellFormed.enqueue_cases same.queue.bounded (cmd call) with
            ⟨_, refused⟩ | ⟨_, after, accepted⟩
          · rw [refused] at pending ⊢
            rcases covered pending with sent | ⟨other, sending⟩ | more
            · exact .inl sent
            · have differs : other ≠ call := by
                intro equal
                rw [equal, idle] at sending
                cases sending
              exact .inr (.inl ⟨other, by simpa [differs] using sending⟩)
            · exact .inr (.inr more)
          · rw [accepted]
            exact .inr (.inl ⟨call, by simp⟩)
      | send sending => exact fun _ => .inl ⟨active, rfl⟩
      | wake waiting => exact fun _ => .inr (.inr trivial)
      | get getting =>
          intro pending
          rcases get_cases same.queue.bounded (sizeSame ▸ small) with
            ⟨idle, ended⟩ | ⟨qsize, outCmd, after, _, _, counted, held⟩
          · rw [ended] at pending
            exact absurd idle pending
          · rw [held] at pending ⊢
            refine .inr (.inr ?_)
            have more : qsize ≠ 0 := by
              intro none
              rw [none] at counted
              exact pending (List.length_eq_zero_iff.mp (by simpa using counted.symm))
            simp [Consumer.WillGet, more]
      | @dispatch command qsize holding =>
          intro pending
          have before := covered pending
          rw [holding] at before
          exact before
      | @finish command qsize dispatching =>
          intro pending
          have before := covered pending
          rw [dispatching] at before
          rcases before with sent | sending | more
          · exact .inl sent
          · exact .inr (.inl sending)
          · refine .inr (.inr ?_)
            simp only [Consumer.WillGet] at more
            simp [Consumer.afterDispatch, more, Consumer.WillGet]

/-- The state with another watcher and another consumer. -/
def State.beside (state : State Call Subject) (watcher : EvAsync)
    (consumer : Consumer Subject) : State Call Subject :=
  { state with this := { state.this with watcher := watcher }, consumer := consumer }

/-- A drain that never ends early, beside one that does: where the one has gone
back to the loop, the other may still be about to call `cmd_q_get`. -/
structure Outlasts (state : State Call Subject) (watcher : EvAsync)
    (consumer : Consumer Subject) : Prop where
  active : watcher.active = true
  alike : consumer = state.consumer ∨ consumer = .getting ∧ state.consumer = .waiting
  idle : consumer = .waiting → watcher = state.this.watcher

private theorem enqueue_beside (active : state.this.watcher.active = true) {watcher : EvAsync}
    (alsoActive : watcher.active = true) (consumer : Consumer Subject) (call : Call) :
    (state.beside watcher consumer).enqueue cmd call =
      (state.enqueue cmd call).beside watcher consumer := by
  have results := CmdQ.enqueue_rewatch state.this watcher (cmd call)
  simp only [State.enqueue, State.insert, State.beside, active, alsoActive, if_true, results]

omit [DecidableEq Call] in
private theorem get_beside (watcher : EvAsync) (consumer : Consumer Subject) :
    (state.beside watcher consumer).get = state.get.beside watcher state.get.consumer := by
  simp only [State.get, State.beside, CmdQ.get_rewatch]

theorem Outlasts.enqueue {watcher : EvAsync} {consumer : Consumer Subject}
    (outlasts : Outlasts state watcher consumer) (active : state.this.watcher.active = true)
    (call : Call) : Outlasts (state.enqueue cmd call) watcher consumer := by
  obtain ⟨alsoActive, consumers, watchers⟩ := outlasts
  rw [enqueue_of_active active]
  simp only [State.insert]
  exact ⟨alsoActive, consumers, by simpa using watchers⟩

omit [DecidableEq Call] in
/-- Apart from the wait that only one of them has begun, both drains are at the
same point. -/
theorem Outlasts.consumer_eq {watcher : EvAsync} {consumer point : Consumer Subject}
    (outlasts : Outlasts state watcher consumer) (busy : state.consumer = point)
    (notWaiting : point ≠ .waiting) : consumer = point := by
  rcases outlasts.alike with alike | ⟨_, waiting⟩
  · exact alike.trans busy
  · exact absurd (busy.symm.trans waiting) notWaiting

/-- Whatever a drain that may end early dispatches, one that may not dispatches
too, with the same calls in the same order. -/
private theorem outlasted (positive : 0 < size) (small : size.toNat ≤ 2 ^ 31)
    (reachable : (system cmd size true).Reachable state) :
    ∃ watcher consumer, (system cmd size false).Reachable (state.beside watcher consumer) ∧
      Outlasts state watcher consumer := by
  induction reachable with
  | @start state starts =>
      obtain ⟨loop, block, rfl⟩ := starts
      exact ⟨_, _, .start ⟨loop, block, rfl⟩, rfl, .inl rfl, fun _ => rfl⟩
  | @step state label next earlier taken ih =>
      obtain ⟨watcher, consumer, reached, outlasts⟩ := ih
      have active := active earlier
      obtain ⟨history, before, same⟩ := refines_history positive small earlier
      have sizeSame := Ring.Machine.Represents.size_eq positive same.queue
        (History.capacity_eq before)
      cases taken with
      | @enqueue call idle =>
          refine ⟨watcher, consumer, ?_, outlasts.enqueue active call⟩
          rw [← enqueue_beside active outlasts.active]
          exact reached.step (.enqueue idle)
      | @send call sending =>
          refine ⟨watcher.send, consumer, reached.step (.send sending), outlasts.active,
            outlasts.alike, ?_⟩
          intro waiting
          rw [outlasts.idle waiting]
          rfl
      | wake waiting _ wasSent =>
          rcases outlasts.alike with alike | ⟨alike, _⟩
          · have idle : consumer = .waiting := alike.trans waiting
            have watchers := outlasts.idle idle
            exact ⟨watcher.clear, .getting,
              reached.step (.wake idle outlasts.active (watchers ▸ wasSent)),
              outlasts.active, .inl rfl, by simp⟩
          · exact ⟨watcher, .getting, alike ▸ reached, outlasts.active, .inl rfl, by simp⟩
      | get getting =>
          have alike := outlasts.consumer_eq getting (by simp)
          rcases get_cases same.queue.bounded (sizeSame ▸ small) with
            ⟨idle, ended⟩ | ⟨qsize, outCmd, after, _, _, _, held⟩
          · rw [ended]
            exact ⟨watcher, .getting, alike ▸ reached, outlasts.active, .inr ⟨rfl, rfl⟩, by simp⟩
          · have taken := reached.step (.get alike)
            rw [get_beside] at taken
            refine ⟨watcher, state.get.consumer, taken, outlasts.active, .inl rfl, ?_⟩
            rw [held]
            simp
      | @dispatch command qsize holding =>
          have alike := outlasts.consumer_eq holding (by simp)
          exact ⟨watcher, .dispatching command qsize, reached.step (.dispatch alike),
            outlasts.active, .inl rfl, by simp⟩
      | @finish command qsize dispatching =>
          have alike := outlasts.consumer_eq dispatching (by simp)
          refine ⟨watcher, .getting, reached.step (.finish alike), outlasts.active, ?_, by simp⟩
          unfold Consumer.afterDispatch
          split
          · exact .inr ⟨rfl, rfl⟩
          · exact .inl rfl

theorem accepted_eq (positive : 0 < size) (small : size.toNat ≤ 2 ^ 31)
    (reachable : (system cmd size early).Reachable state) :
    state.accepted.map cmd = state.dispatched ++ state.consumer.hand ++ state.this.pending := by
  obtain ⟨history, reached, same⟩ := refines_history positive small reachable
  rw [← same.accepted, History.accepted_eq reached, same.removed, same.queue.items_eq]

/-- Pending commands are never left to themselves, and what is dispatched is what
was accepted, in that order, as by a drain that goes on until nothing is pending. -/
structure StrandsNothing (cmd : Call → SubjectCmd Subject) (size : UInt32)
    (state : State Call Subject) : Prop where
  covered : Covered true state
  accepted_eq : state.accepted.map cmd =
    state.dispatched ++ state.consumer.hand ++ state.this.pending
  full_drain : ∃ full, (system cmd size false).Reachable full ∧
    full.accepted = state.accepted ∧ full.dispatched = state.dispatched
  full_drains_alike : ∀ full, (system cmd size false).Reachable full →
    full.accepted = state.accepted →
    full.dispatched ++ full.consumer.hand ++ full.this.pending =
      state.dispatched ++ state.consumer.hand ++ state.this.pending

theorem earlyDrainStrandsNothing (size : UInt32) (positive : 0 < size)
    (small : size.toNat ≤ 2 ^ 31) (cmd : Call → SubjectCmd Subject) (state : State Call Subject)
    (reachable : (system cmd size true).Reachable state) : StrandsNothing cmd size state where
  covered := covered positive small reachable
  accepted_eq := accepted_eq positive small reachable
  full_drain := by
    obtain ⟨watcher, consumer, reached, _⟩ := outlasted positive small reachable
    exact ⟨_, reached, rfl, rfl⟩
  full_drains_alike := by
    intro full reached same
    rw [← accepted_eq positive small reached, same, accepted_eq positive small reachable]

def numbered (call : Nat) : SubjectCmd Nat := ⟨0, call⟩

/-- The drain goes back to the loop although another command has come meanwhile. -/
theorem earlyDrainStrandsNothing_meanwhile : ∃ state,
    StrandsNothing numbered 128 state ∧ state.dispatched = [⟨0, 7⟩] ∧
      state.this.pending = [⟨0, 8⟩] ∧ state.this.watcher.sent = true := by
  have fresh : (system numbered 128 true).Reachable (.fresh ⟨0⟩ 128 fun _ => ⟨0, 0⟩) :=
    .start ⟨⟨0⟩, fun _ => ⟨0, 0⟩, rfl⟩
  have enqueued := fresh.step (@Step.enqueue _ _ _ numbered true _ 7 rfl)
  have sent := enqueued.step (@Step.send _ _ _ numbered true _ 7 rfl)
  have held := (sent.step (.wake rfl rfl rfl)).step (.get rfl)
  have meanwhile := held.step (@Step.enqueue _ _ _ numbered true _ 8 rfl)
  have dispatched := meanwhile.step (@Step.dispatch _ _ _ numbered true _ ⟨0, 7⟩ 0 rfl)
  have waiting := dispatched.step (@Step.finish _ _ _ numbered true _ ⟨0, 7⟩ 0 rfl)
  have last := waiting.step (@Step.send _ _ _ numbered true _ 8 rfl)
  exact ⟨_, earlyDrainStrandsNothing 128 (by decide) (by decide) numbered _ last, rfl, by decide,
    rfl⟩

end Striga.CmdQDrain
