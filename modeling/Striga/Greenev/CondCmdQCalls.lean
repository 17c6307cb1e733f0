import Striga.Greenev.CondCmdQ

/-! One call of each operation of `cond_cmd_q`, whatever the pthread functions
answer. While the call waits, other threads use the queue. -/

set_option autoImplicit false

namespace Striga.Greenev

structure Timeval where
  tvSec : Int
  tvUsec : Int32
  deriving DecidableEq, Repr

/-- `struct timespec`, with the nanoseconds in a `long` of 32 bits. -/
structure Timespec where
  tvSec : Int
  tvNsec : Int32
  deriving DecidableEq, Repr

/-- `_cond_cmd_q_getabstimeout` at the given time of `gettimeofday`. -/
def getabstimeout (now : Timeval) (timeoutMs : UInt32) : Timespec :=
  let tvSec := now.tvSec
  let tvNsec := now.tvUsec * 1000
  let tvSec := tvSec + (timeoutMs / 1000).toNat
  let tvNsec := tvNsec + (timeoutMs % 1000 * 1000000).toInt32
  if tvNsec > 999999999 then ⟨tvSec + 1, tvNsec % 1000000000⟩ else ⟨tvSec, tvNsec⟩

/-- A wait of a call that comes back: the time before it, what it returns, and
the queue as other threads have left it. -/
structure Wait (Arg : Type) where
  now : Timeval
  err : Int
  queue : CondCmdQ Arg
  valid : queue.WellFormed

/-- What the pthread functions return in one call, which unlocks at most once. -/
structure Pthread (Arg : Type) where
  lock : Int
  waits : List (Wait Arg)
  unlock : Int

def etimedout : Int := 110

/-- Where the loop of a call is, and the times that it has waited for so far;
without an error number it is in a wait that has not come back. -/
structure Waited (Arg : Type) where
  deadlines : List Timespec
  err : Option Int
  queue : CondCmdQ Arg

inductive Outcome (Arg : Type) where
  | aborted
  | waiting (deadlines : List Timespec)
  | returned (deadlines : List Timespec) (result : Int) (cmdOut : Option (Cmd Arg))
      (queue : CondCmdQ Arg)

def Outcome.deadlines {Arg : Type} : Outcome Arg → List Timespec
  | .aborted => []
  | .waiting deadlines | .returned deadlines _ _ _ => deadlines

namespace CondCmdQ

variable {Arg : Type}

/-- The time that one more round waits for. -/
def deadline (timeoutMs : UInt32) (now : Timeval) (ts : Timespec) : Timespec :=
  if ts.tvSec = 0 then getabstimeout now timeoutMs else ts

/-- The loop around `pthread_cond_wait` or, with a time-out, around
`pthread_cond_timedwait`, while the queue blocks the call. -/
def waitWhile (blocks : CondCmdQ Arg → Bool) (timeoutMs : Option UInt32) :
    List (Wait Arg) → Timespec → CondCmdQ Arg → Waited Arg
  | [], _, this => ⟨[], if blocks this then none else some 0, this⟩
  | wait :: waits, ts, this =>
      if blocks this then
        let ts := (timeoutMs.map fun timeoutMs => deadline timeoutMs wait.now ts).getD ts
        let given := (timeoutMs.map fun _ => ts).toList
        if wait.err ≠ 0 then
          ⟨given, some wait.err, wait.queue⟩
        else
          let waited := waitWhile blocks timeoutMs waits ts wait.queue
          { waited with deadlines := given ++ waited.deadlines }
      else
        ⟨[], some 0, this⟩

/-- What the four operations have in common: the value that stands for an error,
the one for a wait that fails with the given number before the given result of
the unlock, when to wait, and what to do then. -/
def operate (error : Int) (failed : Int → Int → Int) (blocks : CondCmdQ Arg → Bool)
    (timeoutMs : Option UInt32) (change : CondCmdQ Arg → Option (Cmd Arg) × CondCmdQ Arg)
    (this : CondCmdQ Arg) (pthread : Pthread Arg) : Outcome Arg :=
  if this.asserts then
    if pthread.lock ≠ 0 then
      .returned [] error none this
    else
      let waited := waitWhile blocks timeoutMs pthread.waits ⟨0, 0⟩ this
      match waited.err with
      | none => .waiting waited.deadlines
      | some err =>
          if err ≠ 0 then
            .returned waited.deadlines (failed err pthread.unlock) none waited.queue
          else
            let (cmdOut, queue) := change waited.queue
            let result := if pthread.unlock ≠ 0 then error else 1
            .returned waited.deadlines result cmdOut queue
  else
    .aborted

/-- A time-out is no error, unless the unlock behind it fails. -/
def timedFailure (err unlock : Int) : Int :=
  let ret := if err = etimedout then 0 else -1
  if unlock ≠ 0 then -1 else ret

/-- `cond_cmd_q_put`; its `bool` is the `int` that it converts to. -/
def put (newCmd : Cmd Arg) : CondCmdQ Arg → Pthread Arg → Outcome Arg :=
  operate 0 (fun _ _ => 0) full none fun this => (none, this.putInternal newCmd)

def timedPut (newCmd : Cmd Arg) (timeoutMs : UInt32) : CondCmdQ Arg → Pthread Arg → Outcome Arg :=
  operate (-1) timedFailure full (some timeoutMs) fun this => (none, this.putInternal newCmd)

def get : CondCmdQ Arg → Pthread Arg → Outcome Arg :=
  operate 0 (fun _ _ => 0) empty none fun this => (some this.getInternal.1, this.getInternal.2)

def timedGet (timeoutMs : UInt32) : CondCmdQ Arg → Pthread Arg → Outcome Arg :=
  operate (-1) timedFailure empty (some timeoutMs) fun this =>
    (some this.getInternal.1, this.getInternal.2)

end CondCmdQ

end Striga.Greenev
