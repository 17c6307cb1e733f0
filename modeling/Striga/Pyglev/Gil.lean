import Striga.Lib.Outcome
import Mathlib.Data.List.Chain

/-! The global interpreter lock as the thread that runs an event loop sees it:
whether this thread holds it, the thread state that `self->tstate` keeps while
it does not, and the trace of what the thread asked of the interpreter. -/

set_option autoImplicit false

namespace Striga.Pyglev

open Lib

/-- The address of an object or of a structure on the heap. -/
abbrev Addr := Nat

/-- `PyThreadState *`. -/
abbrev TState := Nat

inductive ErrorType where
  | errno
  | eai
  | gener
  deriving DecidableEq, Repr

/-- `enum pyglev_error_types`. -/
def ErrorType.code : ErrorType → Int
  | .errno => 1
  | .eai => 2
  | .gener => 3

/-- The interpreter's functions and macros that the callbacks use. -/
inductive PyCall where
  | tupleNew
  | callObject (callable : Addr)
  | callOnAccept (listenCmd : Addr)
  | callOnError (subject : Addr) (errorType errorCode : Int) (text : String)
  | callSend (protocol : Option Addr) (size : Nat)
  | iterNext (protocol : Addr)
  | longFromLong
  | longAsLong
  | unicodeFromFormat
  | unicodeAsUtf8
  | sysWriteStderr
  | objectNot
  | genCheck
  | errOccurred
  | errSetObject
  | errSetString
  | errPrint
  | errClear
  | errWriteUnraisable
  | incref (object : Addr)
  | decref (object : Addr)
  | decrefTemporary
  deriving DecidableEq, Repr

inductive PyEvent where
  | restoreThread
  | saveThread
  | call (api : PyCall)
  deriving DecidableEq, Repr

def PyEvent.switches : PyEvent → Bool
  | .call _ => false
  | _ => true

structure Gil where
  current : Option TState
  tstate : Option TState
  trace : List PyEvent

namespace Gil

/-- `PyEval_RestoreThread(self->tstate)`. -/
def restoreThread (gil : Gil) : Gil :=
  { gil with current := gil.tstate, trace := gil.trace ++ [.restoreThread] }

/-- `self->tstate = PyEval_SaveThread()`. -/
def saveThread (gil : Gil) : Gil where
  current := none
  tstate := gil.current
  trace := gil.trace ++ [.saveThread]

def calls (gil : Gil) (apis : List PyCall) : Gil :=
  { gil with trace := gil.trace ++ apis.map .call }

/-- One event, of a thread that holds the lock or does not; without a result it
is one that the thread must not cause then. -/
def follow : Option Bool → PyEvent → Option Bool
  | some false, .restoreThread => some true
  | some true, .saveThread => some false
  | some true, .call _ => some true
  | _, _ => none

/-- Whether the lock is held after a trace that began with the lock held. -/
def verdict (trace : List PyEvent) : Option Bool :=
  trace.foldl follow (some true)

/-- The lock was acquired only while not held, released only while held, and the
interpreter used only while held. -/
def Disciplined (gil : Gil) : Prop := verdict gil.trace ≠ none

/-- The thread acquires and releases the lock in turn. -/
def Alternates (gil : Gil) : Prop :=
  (gil.trace.filter PyEvent.switches).IsChain (· ≠ ·)

structure Held (gil : Gil) (tstate : TState) : Prop where
  current : gil.current = some tstate
  verdict : verdict gil.trace = some true

structure Released (gil : Gil) (tstate : TState) : Prop where
  current : gil.current = none
  tstate : gil.tstate = some tstate
  verdict : verdict gil.trace = some false

variable {gil : Gil} {tstate : TState}

private theorem verdict_append (trace later : List PyEvent) :
    verdict (trace ++ later) = later.foldl follow (verdict trace) :=
  List.foldl_append

private theorem follow_none (trace : List PyEvent) : trace.foldl follow none = none := by
  induction trace with
  | nil => rfl
  | cons event rest ih => exact ih

theorem alternates_of_follow (trace : List PyEvent) : ∀ held,
    trace.foldl follow (some held) ≠ none →
    ((if held then PyEvent.restoreThread else .saveThread) ::
      trace.filter PyEvent.switches).IsChain (· ≠ ·) := by
  induction trace with
  | nil =>
      intro held _
      simp
  | cons event rest ih =>
      intro held disciplined
      cases event with
      | restoreThread =>
          cases held with
          | true => exact absurd (follow_none rest) disciplined
          | false =>
              rw [List.filter_cons_of_pos rfl]
              exact List.isChain_cons_cons.mpr ⟨by simp, ih true disciplined⟩
      | saveThread =>
          cases held with
          | true =>
              rw [List.filter_cons_of_pos rfl]
              exact List.isChain_cons_cons.mpr ⟨by simp, ih false disciplined⟩
          | false => exact absurd (follow_none rest) disciplined
      | call api =>
          cases held with
          | true => exact ih true disciplined
          | false => exact absurd (follow_none rest) disciplined

theorem Disciplined.alternates (disciplined : gil.Disciplined) : gil.Alternates :=
  List.isChain_of_isChain_cons (alternates_of_follow gil.trace true disciplined)

theorem Held.disciplined (held : gil.Held tstate) : gil.Disciplined := by
  simp [Disciplined, held.verdict]

theorem Released.disciplined (released : gil.Released tstate) : gil.Disciplined := by
  simp [Disciplined, released.verdict]

theorem Released.restoreThread (released : gil.Released tstate) :
    gil.restoreThread.Held tstate where
  current := released.tstate
  verdict := by simp [Gil.restoreThread, verdict_append, released.verdict, follow]

theorem Held.saveThread (held : gil.Held tstate) : gil.saveThread.Released tstate where
  current := rfl
  tstate := held.current
  verdict := by simp [Gil.saveThread, verdict_append, held.verdict, follow]

theorem Held.calls (held : gil.Held tstate) (apis : List PyCall) :
    (gil.calls apis).Held tstate where
  current := held.current
  verdict := by
    simp only [Gil.calls, verdict_append, held.verdict]
    induction apis with
    | nil => rfl
    | cons api apis ih => exact ih

end Gil

inductive Fault where
  | nullFormat
  | dangling
  | nullDereference
  | nullUnicode
  | illegalMask
  | watchersOverrun
  | unfinished
  deriving DecidableEq, Repr

/-- What may go wrong without a list being walked: a text is missing in a report, or
`ev_io_start` refuses a mask. -/
def Fault.unlisted : Fault → Bool
  | .nullFormat | .nullUnicode | .illegalMask => true
  | _ => false

structure Crash where
  fault : Fault
  gil : Gil

/-- What a function does that is entered with the lock in one condition and
returns with it in another: the lock's part of it, for every thread state, next
to a result that does not depend on the lock. -/
def Within {Value : Type} (entry exit : Gil → TState → Prop) (start : Gil) (gilOf : Value → Gil)
    (result : Value → Prop) : Except Crash Value → Prop :=
  Ensures (fun crash => ∀ tstate, entry start tstate → crash.gil.Disciplined)
    (fun value => (∀ tstate, entry start tstate → exit (gilOf value) tstate) ∧ result value)

namespace Within

variable {Value Other : Type} {entry middle exit : Gil → TState → Prop} {start later : Gil}
  {gilOf : Value → Gil} {otherGil : Other → Gil} {result : Value → Prop}
  {otherResult : Other → Prop}
  {computation : Except Crash Value}

theorem ok {value : Value} (lock : ∀ tstate, entry start tstate → exit (gilOf value) tstate)
    (holds : result value) : Within entry exit start gilOf result (.ok value) :=
  ⟨lock, holds⟩

theorem bind {next : Value → Except Crash Other}
    (first : Within entry middle start gilOf result computation)
    (second : ∀ value, result value →
      Within middle exit (gilOf value) otherGil otherResult (next value)) :
    Within entry exit start otherGil otherResult (computation >>= next) := by
  apply Ensures.bind first
  intro value done
  obtain ⟨lock, holds⟩ := done
  apply (second value holds).mono
  · exact fun crash disciplined tstate entered => disciplined tstate (lock tstate entered)
  · intro other done
    exact ⟨fun tstate entered => done.1 tstate (lock tstate entered), done.2⟩

/-- Steps that only move the lock come before the rest. -/
theorem after (moved : ∀ tstate, entry start tstate → middle later tstate)
    (rest : Within middle exit later gilOf result computation) :
    Within entry exit start gilOf result computation := by
  apply Ensures.mono rest
  · exact fun crash disciplined tstate entered => disciplined tstate (moved tstate entered)
  · intro value done
    exact ⟨fun tstate entered => done.1 tstate (moved tstate entered), done.2⟩

theorem mono {resultToo : Value → Prop}
    (within : Within entry exit start gilOf result computation)
    (implied : ∀ value, result value → resultToo value) :
    Within entry exit start gilOf resultToo computation :=
  Ensures.mono within (fun _ disciplined => disciplined)
    fun value done => ⟨done.1, implied value done.2⟩

theorem of_ok (within : Within entry exit start gilOf result computation) {value : Value}
    (done : computation = .ok value) : result value :=
  (Ensures.of_ok within done).2

end Within

end Striga.Pyglev
