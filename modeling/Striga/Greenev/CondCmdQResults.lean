import Striga.Greenev.CondCmdQCalls

/-! The result of a call on `cond_cmd_q` against what the call has done to the
queue. -/

set_option autoImplicit false

namespace Striga.Greenev.CondCmdQ

variable {Arg : Type}

/-- A call of one of the four operations. -/
inductive Request (Arg : Type) where
  | put (newCmd : Cmd Arg)
  | timedPut (newCmd : Cmd Arg) (timeoutMs : UInt32)
  | get
  | timedGet (timeoutMs : UInt32)

/-- The loop goes on until the queue lets the call pass, with no failure. -/
inductive Passes (blocks : CondCmdQ Arg → Bool) : List (Wait Arg) → CondCmdQ Arg → Prop where
  | now {waits : List (Wait Arg)} {this : CondCmdQ Arg} :
      blocks this = false → Passes blocks waits this
  | wait {wait : Wait Arg} {waits : List (Wait Arg)} {this : CondCmdQ Arg} :
      blocks this = true → wait.err = 0 → Passes blocks waits wait.queue →
        Passes blocks (wait :: waits) this

namespace Request

def call : Request Arg → CondCmdQ Arg → Pthread Arg → Outcome Arg
  | .put newCmd => CondCmdQ.put newCmd
  | .timedPut newCmd timeoutMs => CondCmdQ.timedPut newCmd timeoutMs
  | .get => CondCmdQ.get
  | .timedGet timeoutMs => CondCmdQ.timedGet timeoutMs

def blocks : Request Arg → CondCmdQ Arg → Bool
  | .put _ | .timedPut _ _ => full
  | .get | .timedGet _ => empty

def timeoutMs : Request Arg → Option UInt32
  | .put _ | .get => none
  | .timedPut _ timeoutMs | .timedGet timeoutMs => some timeoutMs

/-- The queue at the point where the call has stopped waiting. -/
def found (request : Request Arg) (this : CondCmdQ Arg) (pthread : Pthread Arg) : CondCmdQ Arg :=
  if pthread.lock ≠ 0 then this
  else (waitWhile request.blocks request.timeoutMs pthread.waits ⟨0, 0⟩ this).queue

/-- The command is behind those that were pending, or the first of them has come
out. -/
def Done (request : Request Arg) (found : CondCmdQ Arg) (cmdOut : Option (Cmd Arg))
    (queue : CondCmdQ Arg) : Prop :=
  match request with
  | .put newCmd | .timedPut newCmd _ => queue.pending = found.pending ++ [newCmd]
  | .get | .timedGet _ => ∃ cmd, cmdOut = some cmd ∧ found.pending = cmd :: queue.pending

def TellsChange (request : Request Arg) (this : CondCmdQ Arg) (pthread : Pthread Arg) : Prop :=
  ∀ deadlines result cmdOut queue,
    request.call this pthread = .returned deadlines result cmdOut queue →
      (result = 1 ↔ request.Done (request.found this pthread) cmdOut queue) ∧
        (result ≠ 1 →
          queue.qHead = (request.found this pthread).qHead ∧
            queue.qTail = (request.found this pthread).qTail ∧
              queue.pending = (request.found this pthread).pending)

def error : Request Arg → Int
  | .put _ | .get => 0
  | .timedPut _ _ | .timedGet _ => -1

def failed : Request Arg → Int → Int → Int
  | .put _ | .get => fun _ _ => 0
  | .timedPut _ _ | .timedGet _ => timedFailure

def change : Request Arg → CondCmdQ Arg → Option (Cmd Arg) × CondCmdQ Arg
  | .put newCmd | .timedPut newCmd _ => fun this => (none, this.putInternal newCmd)
  | .get | .timedGet _ => fun this => (some this.getInternal.1, this.getInternal.2)

theorem call_eq (request : Request Arg) (this : CondCmdQ Arg) (pthread : Pthread Arg) :
    request.call this pthread =
      operate request.error request.failed request.blocks request.timeoutMs request.change
        this pthread := by
  cases request <;> rfl

private theorem error_ne_one (request : Request Arg) : request.error ≠ 1 := by
  cases request with
  | put _ | get => exact Int.zero_ne_one
  | timedPut _ _ | timedGet _ =>
    show (-1 : Int) ≠ 1
    decide

private theorem failed_ne_one (request : Request Arg) (err unlock : Int) :
    request.failed err unlock ≠ 1 := by
  cases request with
  | put _ | get => exact Int.zero_ne_one
  | timedPut _ _ | timedGet _ =>
    show timedFailure err unlock ≠ 1
    unfold timedFailure
    split <;> split <;> decide

/-- A queue with the same commands is no queue after the change. -/
private theorem not_done {request : Request Arg} {found queue : CondCmdQ Arg}
    {cmdOut : Option (Cmd Arg)}
    (same : queue.pending = found.pending) : ¬ request.Done found cmdOut queue := by
  intro done
  have lengths := congrArg List.length same
  cases request with
  | put newCmd | timedPut newCmd _ =>
    have longer := congrArg List.length (show queue.pending = found.pending ++ [newCmd] from done)
    rw [List.length_append, List.length_singleton] at longer
    omega
  | get | timedGet _ =>
    obtain ⟨cmd, -, removed⟩ := done
    have shorter := congrArg List.length removed
    rw [List.length_cons] at shorter
    omega

private theorem done_change {request : Request Arg} {found : CondCmdQ Arg}
    (valid : found.WellFormed) (passes : request.blocks found = false) :
    request.Done found (request.change found).1 (request.change found).2 := by
  cases request with
  | put newCmd | timedPut newCmd _ => exact valid.pending_putInternal passes newCmd
  | get | timedGet _ => exact ⟨_, rfl, valid.pending_getInternal passes⟩

end Request

private theorem wellFormed_of_asserts {this : CondCmdQ Arg} (asserted : this.asserts = true) :
    this.WellFormed := by
  simp only [asserts, Bool.and_eq_true, decide_eq_true_eq] at asserted
  exact ⟨asserted.1, asserted.2⟩

theorem Passes.waitWhile {blocks : CondCmdQ Arg → Bool} {waits : List (Wait Arg)}
    {this : CondCmdQ Arg} (passes : Passes blocks waits this) (valid : this.WellFormed)
    (timeoutMs : Option UInt32) (ts : Timespec) :
    (waitWhile blocks timeoutMs waits ts this).err = some 0 ∧
      blocks (waitWhile blocks timeoutMs waits ts this).queue = false ∧
        (waitWhile blocks timeoutMs waits ts this).queue.WellFormed := by
  induction passes generalizing ts with
  | @now waits this free => cases waits <;> simp [CondCmdQ.waitWhile, free, valid]
  | @wait wait waits this blocked succeeds passes ih =>
    rw [CondCmdQ.waitWhile, if_pos blocked, if_neg (not_not.mpr succeeds)]
    exact ih wait.valid _

private theorem passes_of_waitWhile {blocks : CondCmdQ Arg → Bool} {timeoutMs : Option UInt32}
    {waits : List (Wait Arg)} {ts : Timespec} {this : CondCmdQ Arg}
    (done : (waitWhile blocks timeoutMs waits ts this).err = some 0) :
    Passes blocks waits this := by
  induction waits generalizing ts this with
  | nil =>
    cases blocked : blocks this with
    | false => exact .now blocked
    | true => simp [waitWhile, blocked] at done
  | cons wait waits ih =>
    cases blocked : blocks this with
    | false => exact .now blocked
    | true =>
      rw [waitWhile, if_pos blocked] at done
      by_cases succeeds : wait.err = 0
      · rw [if_neg (not_not.mpr succeeds)] at done
        exact .wait blocked succeeds (ih done)
      · rw [if_pos succeeds] at done
        exact absurd (Option.some.inj done) succeeds

namespace Request

section Call

variable {request : Request Arg} {this : CondCmdQ Arg} {pthread : Pthread Arg}

/-- Where the loop of a call stops. -/
def waited (request : Request Arg) (this : CondCmdQ Arg) (pthread : Pthread Arg) : Waited Arg :=
  waitWhile request.blocks request.timeoutMs pthread.waits ⟨0, 0⟩ this

private theorem found_locked (locked : pthread.lock = 0) :
    request.found this pthread = (request.waited this pthread).queue :=
  if_neg (not_not.mpr locked)

private theorem call_not_locked (asserted : this.asserts = true) (notLocked : pthread.lock ≠ 0) :
    request.call this pthread = .returned [] request.error none this := by
  rw [call_eq, operate, if_pos asserted, if_pos notLocked]

private theorem call_waiting (asserted : this.asserts = true) (locked : pthread.lock = 0)
    (stopped : (request.waited this pthread).err = none) :
    request.call this pthread = .waiting (request.waited this pthread).deadlines := by
  unfold waited at stopped ⊢
  rw [call_eq, operate, if_pos asserted, if_neg (not_not.mpr locked)]
  simp only [stopped]

private theorem call_wait_failed (asserted : this.asserts = true) (locked : pthread.lock = 0)
    {err : Int} (stopped : (request.waited this pthread).err = some err) (fails : err ≠ 0) :
    request.call this pthread =
      .returned (request.waited this pthread).deadlines (request.failed err pthread.unlock) none
        (request.waited this pthread).queue := by
  unfold waited at stopped ⊢
  rw [call_eq, operate, if_pos asserted, if_neg (not_not.mpr locked)]
  simp only [stopped, if_pos fails]

private theorem call_passed (asserted : this.asserts = true) (locked : pthread.lock = 0)
    (stopped : (request.waited this pthread).err = some 0) :
    request.call this pthread =
      .returned (request.waited this pthread).deadlines
        (if pthread.unlock ≠ 0 then request.error else 1)
        (request.change (request.waited this pthread).queue).1
        (request.change (request.waited this pthread).queue).2 := by
  unfold waited at stopped ⊢
  rw [call_eq, operate, if_pos asserted, if_neg (not_not.mpr locked)]
  simp only [stopped, ne_eq, not_true, if_false]

private theorem asserts_of_returned {deadlines : List Timespec} {result : Int}
    {cmdOut : Option (Cmd Arg)} {queue : CondCmdQ Arg}
    (returned : request.call this pthread = .returned deadlines result cmdOut queue) :
    this.asserts = true := by
  rw [call_eq, operate] at returned
  split at returned
  · assumption
  · cases returned

/-- A call that comes back has failed and left the queue as it found it, or it
has passed and changed the queue. -/
inductive Ends (request : Request Arg) (this : CondCmdQ Arg) (pthread : Pthread Arg) :
    Int → Option (Cmd Arg) → CondCmdQ Arg → Prop where
  | failed {result : Int} :
      ¬ (pthread.lock = 0 ∧ Passes request.blocks pthread.waits this) → result ≠ 1 →
        Ends request this pthread result none (request.found this pthread)
  | passed {result : Int} {cmdOut : Option (Cmd Arg)} {queue : CondCmdQ Arg} :
      pthread.lock = 0 → Passes request.blocks pthread.waits this →
        (result = 1 ↔ pthread.unlock = 0) →
          request.Done (request.found this pthread) cmdOut queue →
            Ends request this pthread result cmdOut queue

private theorem ends_not_locked (notLocked : pthread.lock ≠ 0) :
    Ends request this pthread request.error none this := by
  have same : request.found this pthread = this := if_pos notLocked
  have failed := @Ends.failed _ request this pthread request.error
    (fun both => notLocked both.1) request.error_ne_one
  rw [same] at failed
  exact failed

private theorem ends_wait_failed (valid : this.WellFormed) (locked : pthread.lock = 0) {err : Int}
    (stopped : (request.waited this pthread).err = some err) (fails : err ≠ 0) :
    Ends request this pthread (request.failed err pthread.unlock) none
      (request.waited this pthread).queue := by
  rw [← found_locked locked]
  apply Ends.failed
  · intro both
    have passed := (both.2.waitWhile valid request.timeoutMs ⟨0, 0⟩).1
    exact fails (Option.some.inj (stopped.symm.trans passed))
  · exact request.failed_ne_one err pthread.unlock

private theorem ends_passed (valid : this.WellFormed) (locked : pthread.lock = 0)
    (stopped : (request.waited this pthread).err = some 0) :
    Ends request this pthread (if pthread.unlock ≠ 0 then request.error else 1)
      (request.change (request.waited this pthread).queue).1
      (request.change (request.waited this pthread).queue).2 := by
  have passes := passes_of_waitWhile stopped
  obtain ⟨-, free, validFound⟩ := passes.waitWhile valid request.timeoutMs ⟨0, 0⟩
  apply Ends.passed locked passes
  · by_cases unlocked : pthread.unlock = 0
    · simp [unlocked]
    · simp [unlocked, error_ne_one]
  · rw [found_locked locked]
    exact done_change validFound free

private theorem ends {deadlines : List Timespec} {result : Int} {cmdOut : Option (Cmd Arg)}
    {queue : CondCmdQ Arg} (valid : this.WellFormed)
    (returned : request.call this pthread = .returned deadlines result cmdOut queue) :
    Ends request this pthread result cmdOut queue := by
  by_cases locked : pthread.lock = 0
  · cases stopped : (request.waited this pthread).err with
    | none =>
      rw [call_waiting valid.asserts_eq locked stopped] at returned
      cases returned
    | some err =>
      by_cases zero : err = 0
      · subst zero
        rw [call_passed valid.asserts_eq locked stopped] at returned
        cases returned
        exact ends_passed valid locked stopped
      · rw [call_wait_failed valid.asserts_eq locked stopped zero] at returned
        cases returned
        exact ends_wait_failed valid locked stopped zero
  · rw [call_not_locked valid.asserts_eq locked] at returned
    cases returned
    exact ends_not_locked locked

/-- A call that passes comes back, whatever its unlock returns. -/
theorem returns (valid : this.WellFormed) (locked : pthread.lock = 0)
    (passes : Passes request.blocks pthread.waits this) :
    ∃ deadlines result cmdOut queue,
      request.call this pthread = .returned deadlines result cmdOut queue := by
  obtain ⟨stopped, -, -⟩ := passes.waitWhile valid request.timeoutMs ⟨0, 0⟩
  exact ⟨_, _, _, _, call_passed valid.asserts_eq locked stopped⟩

end Call

/-- The unlock behind a change is the one failure whose result denies the
change. -/
theorem tellsChange_iff (request : Request Arg) (this : CondCmdQ Arg) (pthread : Pthread Arg) :
    request.TellsChange this pthread ↔
      (this.asserts = true → pthread.lock = 0 → Passes request.blocks pthread.waits this →
        pthread.unlock = 0) := by
  constructor
  · intro tells asserted locked passes
    have valid := wellFormed_of_asserts asserted
    obtain ⟨deadlines, result, cmdOut, queue, returned⟩ := returns valid locked passes
    have told := tells deadlines result cmdOut queue returned
    cases ends valid returned with
    | failed blocked _ => exact absurd ⟨locked, passes⟩ blocked
    | passed _ _ unlocked done => exact unlocked.mp (told.1.mpr done)
  · intro unlocks deadlines result cmdOut queue returned
    have asserted := asserts_of_returned returned
    cases ends (wellFormed_of_asserts asserted) returned with
    | failed _ unsuccessful =>
      exact ⟨⟨fun success => absurd success unsuccessful, fun done => absurd done (not_done rfl)⟩,
        fun _ => ⟨rfl, rfl, rfl⟩⟩
    | passed locked passes unlocked done =>
      have success := unlocked.mpr (unlocks asserted locked passes)
      exact ⟨⟨fun _ => done, fun _ => success⟩, fun unsuccessful => absurd success unsuccessful⟩

/-- The command of a `put` that returns false can be in the queue. -/
theorem not_tellsChange_unlock_failure :
    ¬ (Request.put (⟨1, ()⟩ : Cmd Unit)).TellsChange (CondCmdQ.new 2 fun _ => ⟨0, ()⟩)
      ⟨0, [], 1⟩ := by
  intro tells
  have told := tells [] 0 none _ rfl
  exact Int.zero_ne_one (told.1.mpr rfl)

end Request

end Striga.Greenev.CondCmdQ
