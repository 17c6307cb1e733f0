import Striga.Singlev.ApplicationLifeCycle

/-! What becomes of the commands that `application_listen` of `pysevapi.c` puts
into the queue of a singlev application, from any thread and at any time. -/

set_option autoImplicit false

namespace Striga.Singlev.ApplicationRun

open Lib

variable {Thread Call : Type}

/-- How far the call of `cmd_q_put` that a thread is on the way with has come. -/
def Place.Agrees (phase : Call → CmdQDrain.PutPhase) : Place Thread Call → Prop
  | .putting call => phase call = .idle
  | .sending call => phase call = .sending
  | .issued call result => phase call = .returned result
  | _ => True

theorem Place.Agrees.congr {place : Place Thread Call} {phase after : Call → CmdQDrain.PutPhase}
    (agrees : place.Agrees phase)
    (same : ∀ call, place.call? = some call → after call = phase call) :
    place.Agrees after := by
  cases place with
  | putting call | sending call | issued call => exact (same call rfl).trans agrees
  | python | saving | looping | restoring | restored | issuing => trivial

theorem Place.agrees_of_none {place : Place Thread Call} (none : place.call? = Option.none)
    (phase : Call → CmdQDrain.PutPhase) : place.Agrees phase := by
  cases place with
  | putting | sending | issued => cases none
  | python | saving | looping | restoring | restored | issuing => trivial

variable [DecidableEq Thread] [DecidableEq Call] {mainThread : Thread}
  {state next : State Thread Call} {label : Label Thread Call}

/-- The queue with its producers and its drain, while it is started. -/
abbrev traffic (Call : Type) [DecidableEq Call] :
    System (CmdQDrain.State Call Data) (CmdQDrain.Label Call) :=
  CmdQDrain.system (fun _ => listenCmd) 128 true

/-- The queue stands for an abstract one that has had the same traffic. -/
def Kept (drain : CmdQDrain.State Call Data) : Prop :=
  ∃ history, (History.system (SubjectCmd Data) (UInt32.toNat 128 - 1)).Reachable history ∧
    CmdQDrain.Matches (fun _ => listenCmd) drain history

/-- A started queue is where its traffic has brought it. A stopped one has nothing
taken from it any more, but may still get what is on its way. -/
structure Served (state : State Thread Call) : Prop where
  started : state.app.cmdQ.watcher.active = true → (traffic Call).Reachable state.drain
  stopped : state.app.cmdQ.watcher.active = false → Kept state.drain
  looping : state.consumer ≠ .waiting → ∃ thread, state.place thread = .looping
  recorded : ∀ call, call ∈ state.accepted ↔
    state.phase call = .sending ∨ state.phase call = .returned true
  nodup : state.accepted.Nodup
  agrees : ∀ thread, (state.place thread).Agrees state.phase
  owner : ∀ first second call, (state.place first).call? = some call →
    (state.place second).call? = some call → first = second

namespace Served

omit [DecidableEq Thread] in
private theorem kept (served : Served state) : Kept state.drain := by
  cases active : state.app.cmdQ.watcher.active with
  | true => exact CmdQDrain.refines_history (by decide) (by decide) (served.started active)
  | false => exact served.stopped active

omit [DecidableEq Thread] in
private theorem congr (served : Served state) (drain : next.drain = state.drain)
    (places : next.place = state.place) : Served next := by
  have queue : next.app.cmdQ = state.app.cmdQ := congrArg CmdQDrain.State.this drain
  have phase : next.phase = state.phase := congrArg CmdQDrain.State.phase drain
  have consumer : next.consumer = state.consumer := congrArg CmdQDrain.State.consumer drain
  have accepted : next.accepted = state.accepted := congrArg CmdQDrain.State.accepted drain
  obtain ⟨started, stopped, looping, recorded, nodup, agrees, owner⟩ := served
  constructor
  · rwa [queue, drain]
  · rwa [queue, drain]
  · rwa [consumer, places]
  · rwa [accepted, phase]
  · rwa [accepted]
  · rwa [places, phase]
  · rwa [places]

/-- A thread goes on without the queue. -/
private theorem move (served : Served state) {thread : Thread} {place : Place Thread Call}
    (elsewhere : place.call? = none)
    (kept : state.place thread = .looping → state.consumer = .waiting) :
    Served (state.moveTo thread place) := by
  have others : ∀ other call, ((state.moveTo thread place).place other).call? = some call →
      (state.place other).call? = some call := by
    intro other call busy
    by_cases same : other = thread
    · subst same
      rw [State.moveTo_self, elsewhere] at busy
      cases busy
    · rwa [State.moveTo_of_ne same] at busy
  refine { served with looping := ?_, agrees := ?_, owner := ?_ }
  · intro busy
    obtain ⟨other, looping⟩ := served.looping busy
    refine ⟨other, ?_⟩
    rw [State.moveTo_of_ne]
    · exact looping
    · intro same
      subst same
      exact busy (kept looping)
  · intro other
    by_cases same : other = thread
    · subst same
      rw [State.moveTo_self]
      exact Place.agrees_of_none elsewhere state.phase
    · rw [State.moveTo_of_ne same]
      exact served.agrees other
  · intro first second call left right
    exact served.owner first second call (others first call left) (others second call right)

omit [DecidableEq Thread] in
/-- No other thread is on the way with the call of a thread in `cmd_q_put`. -/
private theorem free (served : Served state) {thread : Thread} {call : Call}
    (busy : state.Unused call ∨ (state.place thread).call? = some call) :
    ∀ other, other ≠ thread → (state.place other).call? ≠ some call := by
  intro other differs same
  rcases busy with ⟨idle, nobody⟩ | own
  · have agrees := served.agrees other
    cases place : state.place other with
    | putting first =>
        rw [place] at same
        cases same
        exact nobody other place
    | sending first | issued first =>
        rw [place] at same agrees
        cases same
        cases idle.symm.trans agrees
    | python | saving | looping | restoring | restored | issuing =>
        rw [place] at same
        cases same
  · exact differs (served.owner other thread call same own)

/-- A thread gets on with its call of `cmd_q_put`. -/
private theorem progress (served : Served state) {thread : Thread} {call : Call}
    {drain : CmdQDrain.State Call Data} {place : Place Thread Call}
    (busy : state.Unused call ∨ (state.place thread).call? = some call)
    (moving : state.place thread ≠ .looping)
    (started : drain.this.watcher.active = true → (traffic Call).Reachable drain)
    (stopped : drain.this.watcher.active = false → Kept drain)
    (consumer : drain.consumer = state.consumer)
    (phases : ∀ other, other ≠ call → drain.phase other = state.phase other)
    (own : place.call? = some call) (agrees : place.Agrees drain.phase)
    (recorded : ∀ other, other ∈ drain.accepted ↔
      if other = call then drain.phase call = .sending ∨ drain.phase call = .returned true
      else other ∈ state.accepted)
    (nodup : drain.accepted.Nodup) : Served ((state.withDrain drain).moveTo thread place) := by
  have free := served.free busy
  have elsewhere {other : Thread} (differs : other ≠ thread) :
      ((state.withDrain drain).moveTo thread place).place other = state.place other :=
    State.moveTo_of_ne differs place
  have here : ((state.withDrain drain).moveTo thread place).place thread = place :=
    State.moveTo_self place
  constructor
  · exact started
  · exact stopped
  · intro waiting
    obtain ⟨other, looping⟩ := served.looping (consumer ▸ waiting)
    refine ⟨other, (elsewhere ?_).trans looping⟩
    intro same
    exact moving (same ▸ looping)
  · intro other
    show other ∈ drain.accepted ↔ drain.phase other = .sending ∨ drain.phase other = .returned true
    rw [recorded]
    by_cases same : other = call
    · rw [if_pos same, same]
    · rw [if_neg same, phases other same]
      exact served.recorded other
  · exact nodup
  · intro other
    show (((state.withDrain drain).moveTo thread place).place other).Agrees drain.phase
    by_cases same : other = thread
    · rw [same, here]
      exact agrees
    · rw [elsewhere same]
      refine (served.agrees other).congr fun different begun => phases different ?_
      exact fun equal => free other same (equal ▸ begun)
  · have alone : ∀ other different,
        (((state.withDrain drain).moveTo thread place).place other).call? = some different →
        (other = thread ∧ different = call) ∨
          (other ≠ thread ∧ different ≠ call ∧ (state.place other).call? = some different) := by
      intro other different begun
      by_cases same : other = thread
      · rw [same, here, own] at begun
        exact .inl ⟨same, (Option.some.inj begun).symm⟩
      · rw [elsewhere same] at begun
        exact .inr ⟨same, fun equal => free other same (equal ▸ begun), begun⟩
    intro first second different left right
    rcases alone first different left with ⟨firstSame, leftSame⟩ | ⟨_, leftDiffers, left⟩
    · rcases alone second different right with ⟨secondSame, _⟩ | ⟨_, rightDiffers, _⟩
      · exact firstSame.trans secondSame.symm
      · exact absurd leftSame rightDiffers
    · rcases alone second different right with ⟨_, rightSame⟩ | ⟨_, _, right⟩
      · exact absurd rightSame leftDiffers
      · exact served.owner first second different left right

omit [DecidableEq Thread] in
private theorem not_accepted (served : Served state) {call : Call}
    (idle : state.phase call = .idle) :
    call ∉ state.accepted := by
  rw [served.recorded, idle]
  simp

/-- A queue that is full, or that `cmd_q_put` finds stopped. -/
private theorem refuse (served : Served state) {thread : Thread} {call : Call}
    (busy : state.Unused call ∨ (state.place thread).call? = some call)
    (idle : state.phase call = .idle) (moving : state.place thread ≠ .looping)
    (started : state.app.cmdQ.watcher.active = true →
      (traffic Call).Reachable (state.drain.refuse call)) :
    Served ((state.withDrain (state.drain.refuse call)).moveTo thread (.issued call false)) := by
  have refused : (state.drain.refuse call).phase call = .returned false :=
    Function.update_self ..
  refine served.progress busy moving started ?_ rfl ?_ rfl refused ?_ served.nodup
  · intro inactive
    obtain ⟨history, reached, same⟩ := served.stopped inactive
    exact ⟨history, reached, same.queue, same.accepted, same.removed⟩
  · intro other differs
    exact Function.update_of_ne differs ..
  · intro other
    show other ∈ state.accepted ↔ _
    by_cases same : other = call
    · rw [if_pos same, refused, same]
      simp [served.not_accepted idle]
    · rw [if_neg same]

/-- The check of `cmd_q_put`, which a stopped queue does not pass. -/
private theorem check (served : Served state) {thread : Thread} {call : Call}
    (issuing : state.place thread = .issuing) (unused : state.Unused call) :
    Served (state.check thread call) := by
  have moving : state.place thread ≠ .looping := by simp [issuing]
  rcases check_cases state thread call with ⟨active, passed⟩ | ⟨inactive, refused⟩
  · rw [passed]
    refine @progress _ _ _ _ _ served thread call state.drain (.putting call) (.inl unused) moving
      served.started served.stopped rfl (fun _ _ => rfl) rfl unused.1 ?_ served.nodup
    intro other
    by_cases same : other = call
    · rw [if_pos same, same]
      exact served.recorded call
    · rw [if_neg same]
      rfl
  · rw [refused]
    refine served.refuse (.inl unused) unused.1 moving ?_
    intro active
    cases inactive.symm.trans active

/-- The critical section of `cmd_q_put`, of a started queue or behind
`cmd_q_stop`. -/
private theorem enqueue (served : Served state) {thread : Thread} {call : Call}
    (putting : state.place thread = .putting call) : Served (state.enqueue thread call) := by
  have moving : state.place thread ≠ .looping := by simp [putting]
  have own : (state.place thread).call? = some call := by rw [putting]; rfl
  have idle : state.phase call = .idle := by
    have agrees := served.agrees thread
    rwa [putting] at agrees
  have reached : state.app.cmdQ.watcher.active = true →
      (traffic Call).Reachable (state.drain.insert (fun _ => listenCmd) call) := by
    intro active
    rw [← CmdQDrain.enqueue_of_active active]
    exact (served.started active).step (.enqueue idle)
  obtain ⟨history, before, same⟩ := served.kept
  rcases CmdQDrain.insert_cases same.queue.bounded (fun _ => listenCmd) call with
    refused | ⟨after, appended, accepted⟩
  · have shape : state.enqueue thread call =
        (state.withDrain (state.drain.refuse call)).moveTo thread (.issued call false) := by
      simp [State.enqueue, refused, CmdQDrain.State.refuse]
    rw [shape]
    exact served.refuse (.inr own) idle moving fun active => refused ▸ reached active
  · have shape : state.enqueue thread call =
        (state.withDrain (state.drain.insert (fun _ => listenCmd) call)).moveTo thread
          (.sending call) := by
      simp [State.enqueue, accepted]
    have active := insert_active state.drain (fun _ => listenCmd) call
    have sending : (state.drain.insert (fun _ => listenCmd) call).phase call = .sending := by
      simp [accepted]
    rw [shape]
    refine served.progress (.inr own) moving ?_ ?_ ?_ ?_ rfl sending ?_ ?_
    · exact fun kept => reached (active.symm.trans kept)
    · exact fun _ => ⟨_, before.step rfl, same.insert call⟩
    · rw [accepted]
      rfl
    · intro other differs
      rw [accepted]
      exact Function.update_of_ne differs ..
    · intro other
      rw [sending, accepted]
      by_cases same : other = call
      · simp [same, State.drain]
      · simp [same, State.drain]
    · rw [accepted]
      exact List.nodup_append.mpr ⟨served.nodup, by simp, by
        intro other member last single equal
        rw [List.mem_singleton.mp single] at equal
        exact served.not_accepted idle (equal ▸ member)⟩

private theorem send (served : Served state) {thread : Thread} {call : Call}
    (sending : state.place thread = .sending call) : Served (state.send thread call) := by
  have own : (state.place thread).call? = some call := by rw [sending]; rfl
  have phase : state.phase call = .sending := by
    have agrees := served.agrees thread
    rwa [sending] at agrees
  have returned : Function.update state.phase call (.returned true) call = .returned true :=
    Function.update_self ..
  refine served.progress (.inr own) (by simp [sending]) ?_ ?_ rfl ?_ rfl returned ?_ served.nodup
  · exact fun active => (served.started active).step (.send phase)
  · intro inactive
    obtain ⟨history, reached, same⟩ := served.stopped inactive
    exact ⟨history, reached, same.queue, same.accepted, same.removed⟩
  · intro other differs
    exact Function.update_of_ne differs ..
  · intro other
    show other ∈ state.accepted ↔ _
    by_cases same : other = call
    · rw [if_pos same, same, served.recorded, phase]
      simp
    · rw [if_neg same]

omit [DecidableEq Thread] in
private theorem drain (served : Served state) {thread : Thread} {label : CmdQDrain.Label Call}
    {drain : CmdQDrain.State Call Data} (active : state.app.cmdQ.watcher.active = true)
    (looping : state.place thread = .looping)
    (drains : label = .wake ∨ label = .get ∨ label = .dispatch ∨ label = .finish)
    (taken : CmdQDrain.Step (fun _ => listenCmd) true state.drain label drain) :
    Served (state.withDrain drain) := by
  have frame : drain.phase = state.phase ∧ drain.accepted = state.accepted := by
    cases taken with
    | enqueue | send => simp at drains
    | wake | dispatch | finish => exact ⟨rfl, rfl⟩
    | get =>
        unfold CmdQDrain.State.get
        exact ⟨rfl, rfl⟩
  obtain ⟨phase, accepted⟩ := frame
  have still : drain.this.watcher.active = true := (drain_active taken).trans active
  constructor
  · exact fun _ => (served.started active).step taken
  · intro inactive
    rw [show drain.this.watcher.active = false from inactive] at still
    cases still
  · exact fun _ => ⟨thread, looping⟩
  · simpa [State.withDrain, phase, accepted] using served.recorded
  · simpa [State.withDrain, accepted] using served.nodup
  · simpa [State.withDrain, phase] using served.agrees
  · exact served.owner

omit [DecidableEq Thread] in
theorem stop (served : Served state) {app : Application Thread}
    (stopped : state.app.stop = some app) {main : Main} :
    Served { state with app := app, main := main } := by
  obtain rfl := Application.stop_shape stopped
  refine { served with started := ?_, stopped := ?_ }
  · intro again
    have inactive := EvAsync.stop_active state.app.mainLoop.ref state.app.cmdQ.watcher
    cases again.symm.trans inactive
  · intro _
    obtain ⟨history, reached, same⟩ := served.kept
    exact ⟨history, reached, same.queue, same.accepted, same.removed⟩

end Served

theorem Served.step (served : Served state) (valid : Valid state)
    (taken : Step mainThread state label next) : Served next := by
  cases taken with
  | start => exact served.congr rfl rfl
  | finish => exact served.congr (frame_finish state).drain (frame_finish state).place
  | stop finished =>
      unfold State.stop
      cases stopped : state.app.stop with
      | none => exact served.congr rfl rfl
      | some app => exact served.stop stopped
  | finalize => exact served.congr rfl rfl
  | delete => exact served.congr (frame_delete state).drain (frame_delete state).place
  | @deliver signal =>
      exact served.congr (frame_deliver state signal).drain (frame_deliver state signal).place
  | acquire | release => exact served.congr rfl rfl
  | @run thread interprets holder python =>
      rcases run_cases interprets thread with ⟨_, _, entered⟩ | ⟨_, text, refused⟩
      · rw [entered]
        have moved : Served (state.moveTo thread .saving) := served.move rfl (by simp [python])
        exact moved.congr rfl rfl
      · rw [refused]
        exact served.congr rfl rfl
  | @store thread saving =>
      have moved : Served (state.moveTo thread .looping) := served.move rfl (by simp [saving])
      exact moved.congr rfl rfl
  | @terminate thread signal =>
      exact served.congr (frame_terminate state signal).drain (frame_terminate state signal).place
  | drain looping drains drained =>
      have inside := valid.inside _ (by rw [looping]; rfl)
      exact served.drain (valid.receives.trans
        (by rcases inside with main | main <;> rw [main] <;> rfl))
        looping drains drained
  | leave looping waiting =>
      exact served.move rfl fun _ => waiting
  | @restore thread owner _ _ restoring =>
      have moved : Served (state.moveTo thread .restored) := served.move rfl (by simp [restoring])
      exact moved.congr rfl rfl
  | @clear thread restored =>
      have moved : Served (state.moveTo thread .python) := served.move rfl (by simp [restored])
      exact moved.congr rfl rfl
  | @listen thread interprets holder python =>
      rcases listen_cases interprets thread with ⟨_, entered⟩ | ⟨_, text, refused⟩
      · rw [entered]
        have moved : Served (state.moveTo thread .issuing) := served.move rfl (by simp [python])
        exact moved.congr rfl rfl
      · rw [refused]
        exact served.congr rfl rfl
  | check issuing unused => exact served.check issuing unused
  | enqueue putting => exact served.enqueue putting
  | send sending => exact served.send sending
  | @reacquire thread call result _ _ issued =>
      have moved : Served (state.moveTo thread .python) := served.move rfl (by simp [issued])
      exact moved.congr rfl rfl

omit [DecidableEq Thread] in
theorem Served.accepted_eq (served : Served state) :
    state.accepted.map (fun _ => listenCmd) =
      state.dispatched ++ state.consumer.hand ++ state.app.cmdQ.pending := by
  obtain ⟨history, reached, same⟩ := served.kept
  have total := History.accepted_eq reached
  rwa [same.accepted, same.removed, same.queue.items_eq] at total

theorem served (reachable : (apart mainThread Call).Reachable state) :
    Served state := by
  induction reachable with
  | start starts =>
      obtain ⟨block, rfl⟩ := starts
      exact {
        started := fun _ => .start ⟨⟨0⟩, block, rfl⟩
        stopped := fun inactive => by cases inactive
        looping := fun busy => absurd rfl busy
        recorded := fun _ => by simp [State.fresh]
        nodup := List.nodup_nil
        agrees := fun _ => trivial
        owner := fun _ _ _ begun => by cases begun }
  | step earlier taken ih => exact ih.step (valid earlier) taken.1

/-- The application is at or behind `cmd_q_stop`. -/
def Main.closed : Main → Bool
  | .stopped | .finalized | .deleted => true
  | _ => false

/-- What is put into a queue behind `cmd_q_stop` had passed the check of
`cmd_q_put` in front of it, and nobody takes it out again. -/
structure Closed (earlier state : State Thread Call) : Prop where
  closed : state.main.closed = true
  dispatched : state.dispatched = earlier.dispatched
  late : ∃ late, state.accepted = earlier.accepted ++ late ∧
    ∀ call ∈ late, ∃ thread, earlier.place thread = .putting call
  putting : ∀ thread call, state.place thread = .putting call →
    earlier.place thread = .putting call

namespace Closed

variable {earlier : State Thread Call}

omit [DecidableEq Thread] [DecidableEq Call] in
private theorem refl (closed : state.main.closed = true) : Closed state state :=
  ⟨closed, rfl, ⟨[], (List.append_nil _).symm, fun _ none => nomatch none⟩, fun _ _ same => same⟩

omit [DecidableEq Thread] [DecidableEq Call] in
/-- A step that the queue takes no notice of. -/
private theorem same (shut : Closed earlier state) (closed : next.main.closed = true)
    (accepted : next.accepted = state.accepted) (dispatched : next.dispatched = state.dispatched)
    (putting : ∀ thread call, next.place thread = .putting call →
      state.place thread = .putting call) : Closed earlier next where
  closed := closed
  dispatched := dispatched.trans shut.dispatched
  late := accepted ▸ shut.late
  putting thread call place := shut.putting thread call (putting thread call place)

omit [DecidableEq Call] in
/-- A thread that moves on does not pass the check. -/
private theorem move (shut : Closed earlier state) {thread : Thread} {place : Place Thread Call}
    (elsewhere : ∀ call, place ≠ .putting call) (closed : next.main.closed = true)
    (accepted : next.accepted = state.accepted) (dispatched : next.dispatched = state.dispatched)
    (places : next.place = Function.update state.place thread place) : Closed earlier next := by
  refine shut.same closed accepted dispatched ?_
  intro other call putting
  rw [places] at putting
  by_cases same : other = thread
  · rw [same, Function.update_self] at putting
    exact absurd putting (elsewhere call)
  · rwa [Function.update_of_ne same] at putting

/-- A put that had passed the check. -/
private theorem enqueue (shut : Closed earlier state) {thread : Thread} {call : Call}
    (kept : Kept state.drain) (putting : state.place thread = .putting call) :
    Closed earlier (state.enqueue thread call) := by
  obtain ⟨history, _, same⟩ := kept
  rcases CmdQDrain.insert_cases same.queue.bounded (fun _ => listenCmd) call with
    refused | ⟨after, appended, accepted⟩
  · refine shut.move ?_ shut.closed ?_ ?_ rfl
    · intro other
      split <;> simp
    · exact congrArg CmdQDrain.State.accepted refused
    · exact congrArg CmdQDrain.State.dispatched refused
  · have added : (state.enqueue thread call).accepted = state.accepted ++ [call] :=
      congrArg CmdQDrain.State.accepted accepted
    have moved := @move _ _ _ state { state.enqueue thread call with accepted := state.accepted }
      earlier shut thread _ ?_ shut.closed rfl (congrArg CmdQDrain.State.dispatched accepted) rfl
    · refine ⟨shut.closed, moved.dispatched, ?_, moved.putting⟩
      obtain ⟨late, before, passed⟩ := shut.late
      refine ⟨late ++ [call], ?_, ?_⟩
      · rw [added, before, List.append_assoc]
      · intro other member
        rcases List.mem_append.mp member with earlier' | last
        · exact passed other earlier'
        · rw [List.mem_singleton.mp last]
          exact ⟨thread, shut.putting thread call putting⟩
    · intro other
      split <;> simp

end Closed

theorem Closed.step {earlier : State Thread Call} (shut : Closed earlier state)
    (valid : Valid state) (served : Served state) (taken : Step mainThread state label next) :
    Closed earlier next := by
  have closed := shut.closed
  have other {main : Main} (open' : main.closed = false) : state.main ≠ main := by
    intro place
    rw [place, open'] at closed
    cases closed
  have outside {thread : Thread} {place : Place Thread Call} (inside : place.inRun = true) :
      state.place thread ≠ place := by
    intro same
    rcases valid.inside thread (same ▸ inside) with module | finished
    · exact other rfl module
    · exact other rfl finished
  have inactive : state.app.cmdQ.watcher.active = false := by
    rw [valid.receives]
    cases place : state.main with
    | stopped | finalized | deleted | aborted => rfl
    | constructed | module | finished => exact absurd place (other rfl)
  cases taken with
  | start constructed => exact absurd constructed (other rfl)
  | finish module => exact absurd module (other rfl)
  | stop finished => exact absurd finished (other rfl)
  | finalize => exact shut.same rfl rfl rfl fun _ _ same => same
  | delete =>
      have shape : state.delete = { state with main := .deleted } := by
        simp [State.delete, CmdQ.deletable, inactive]
      rw [shape]
      exact shut.same rfl rfl rfl fun _ _ same => same
  | deliver | acquire | release => exact shut.same closed rfl rfl fun _ _ same => same
  | restore | clear | reacquire | send => exact shut.move (by simp) closed rfl rfl rfl
  | @run thread interprets =>
      rcases run_cases interprets thread with ⟨_, _, entered⟩ | ⟨_, text, refused⟩
      · rw [entered]
        exact shut.move (by simp) closed rfl rfl rfl
      · rw [refused]
        exact shut.same closed rfl rfl fun _ _ same => same
  | @listen thread interprets =>
      rcases listen_cases interprets thread with ⟨_, entered⟩ | ⟨_, text, refused⟩
      · rw [entered]
        exact shut.move (by simp) closed rfl rfl rfl
      · rw [refused]
        exact shut.same closed rfl rfl fun _ _ same => same
  | store saving => exact absurd saving (outside rfl)
  | terminate looping | drain looping | leave looping => exact absurd looping (outside rfl)
  | @check thread call =>
      rcases check_cases state thread call with ⟨active, _⟩ | ⟨_, refused⟩
      · cases inactive.symm.trans active
      · rw [refused]
        exact shut.move (by simp) closed rfl rfl rfl
  | enqueue putting => exact shut.enqueue served.kept putting

/-- Every command that was accepted is dispatched, in the order of acceptance and
not twice, or is still there when the queue is deleted; while the queue is started
none is left without a wake-up. A call tells Python whether its command was
accepted. Once `application_dtor` has stopped the queue nothing more is
dispatched, and only a call that had passed the check of `cmd_q_put` is still
accepted. -/
structure KeepsCommands (mainThread : Thread) (state : State Thread Call) : Prop where
  accepted_eq : state.accepted.map (fun _ => listenCmd) =
    state.dispatched ++ state.consumer.hand ++ state.app.cmdQ.pending
  nodup : state.accepted.Nodup
  covered : state.main.receives = true → CmdQDrain.Covered true state.drain
  told : ∀ thread call result, state.place thread = .issued call result →
    (result = true ↔ call ∈ state.accepted)
  closed : state.main.closed = true → ∀ last,
    (apart mainThread Call).Leads state last →
    last.dispatched = state.dispatched ∧ ∃ late, last.accepted = state.accepted ++ late ∧
      ∀ call ∈ late, ∃ thread, state.place thread = .putting call

theorem keepsCommands (mainThread : Thread) (state : State Thread Call)
    (reachable : (apart mainThread Call).Reachable state) :
    KeepsCommands mainThread state := by
  have served := served reachable
  have valid := valid reachable
  refine {
    accepted_eq := served.accepted_eq
    nodup := served.nodup
    covered := ?_
    told := ?_
    closed := ?_ }
  · intro receives
    exact CmdQDrain.covered (by decide) (by decide)
      (served.started (valid.receives.trans receives))
  · intro thread call result issued
    have agrees := served.agrees thread
    rw [issued] at agrees
    rw [served.recorded, show state.phase call = .returned result from agrees]
    simp
  · intro closed last leads
    have kept := leads.invariant
      (fun between => Valid between ∧ Served between ∧ Closed state between)
      ⟨valid, served, .refl closed⟩ fun before label next holds taken =>
        ⟨holds.1.step taken.1 taken.2, holds.2.1.step holds.1 taken.1,
          holds.2.2.step holds.1 holds.2.1 taken.1⟩
    exact ⟨kept.2.2.dispatched, kept.2.2.late⟩

/-- A thread that has passed the check in front of `cmd_q_stop` puts its command
into the stopped queue and is told so. -/
theorem keepsCommands_late : ∃ state : State Bool Nat,
    state.main = .stopped ∧ KeepsCommands false state ∧ state.accepted = [7] ∧
      state.place true = .issued 7 true ∧ state.app.cmdQ.pending = [listenCmd] := by
  have fresh : (apart false Nat).Reachable (.fresh false fun _ => listenCmd) := .start ⟨_, rfl⟩
  have started := fresh.step (apart_step (.start rfl) (by simp) (by simp))
  have released := started.step (apart_step (.release rfl rfl rfl) (by simp) (by simp))
  have acquired := released.step
    (apart_step (@Step.acquire _ _ _ _ _ _ true rfl rfl rfl) (by simp) (by simp))
  have issuing := acquired.step
    (apart_step (@Step.listen _ _ _ _ _ _ true rfl rfl rfl) (by simp) (by simp))
  have checked := issuing.step (apart_step
    (@Step.check _ _ _ _ _ _ true 7 rfl ⟨rfl, fun other => by cases other <;> nofun⟩)
    (by simp) (by simp))
  have returned := checked.step
    (apart_step (@Step.acquire _ _ _ _ _ _ false rfl rfl rfl) (by simp) (by simp))
  have ended := returned.step (apart_step (.finish rfl rfl rfl) (by simp) (by simp))
  have stopped := ended.step (apart_stop rfl fun thread => by cases thread <;> rfl)
  have enqueued := stopped.step
    (apart_step (@Step.enqueue _ _ _ _ _ _ true 7 rfl) (by simp) (by simp))
  have sent := enqueued.step
    (apart_step (@Step.send _ _ _ _ _ _ true 7 rfl) (by simp) (by simp))
  exact ⟨_, rfl, keepsCommands false _ sent, rfl, rfl, by decide⟩

end Striga.Singlev.ApplicationRun
