import Striga.Greenev.CondCmdQTraffic

/-! The Python thread of greenev as its event loops see it: `py_thread_die` puts
one command into the thread's queue, and each `event_loop.run` of
`pyge/evloop.py` calls `py_geapi_py_thread_next_cmd` over and over until it gets
that command. Callers wait on the queue without the interpreter lock. -/

set_option autoImplicit false

namespace Striga.Greenev

def pytCmdIoThreadDie : Int := 1

/-- What `py_thread_next_cmd` comes to for its caller. -/
inductive NextCmd where
  | none
  | number (id : Int)
  | runtimeError (text : String)
  deriving DecidableEq, Repr

/-- `py_geapi_py_thread_next_cmd` behind the return of `cond_cmd_q_timed_get`. -/
def nextCmd {Arg : Type} (res : Int) (cmd : Cmd Arg) : NextCmd :=
  if res = 0 then .none
  else if res = 1 then .number cmd.id
  else .runtimeError "when waiting on command queue mutex"

namespace PyThreadRun

open Lib

/-- Where a call of `event_loop.run` is: running Python code, in
`cond_cmd_q_timed_get`, in front of `PyEval_RestoreThread`, behind its `break`,
or left by an exception. -/
inductive Place where
  | python
  | waiting
  | restoring (result : NextCmd)
  | broke
  | raised
  deriving DecidableEq, Repr

/-- Runs Python code whenever it has the interpreter lock. -/
def Place.interprets : Place → Bool
  | .waiting | .restoring _ => false
  | _ => true

/-- The round of the `while` loop that has got this from `py_thread_next_cmd`. -/
def afterRound : NextCmd → Place
  | .none => .python
  | .number id => if id = 1 then .broke else .python
  | .runtimeError _ => .raised

/-- The calls on the queue: the one of `py_thread_die`, and one in each round of
each event loop. -/
inductive Call (Loop : Type) where
  | die
  | round (loop : Loop) (number : Nat)
  deriving DecidableEq

def dieCmd : Cmd Unit := ⟨pytCmdIoThreadDie, ()⟩

def op {Loop : Type} : Call Loop → CondCmdQTraffic.Op Unit
  | .die => .put dieCmd
  | .round _ _ => .timedGet

/-- Other Python threads take the interpreter lock as well. -/
inductive Thread (Loop : Type) where
  | loop (loop : Loop)
  | other (number : Nat)
  deriving DecidableEq

structure State (Loop : Type) where
  queue : CondCmdQTraffic.State (Call Loop) Unit
  gil : Option (Thread Loop)
  place : Loop → Place
  round : Loop → Nat

inductive Label (Loop : Type) where
  | acquire (thread : Thread Loop)
  | release (thread : Thread Loop)
  | call (loop : Loop)
  | main (label : CondCmdQTraffic.Label (Call Loop))
  | traffic (loop : Loop) (label : CondCmdQTraffic.Label (Call Loop))
  | return (loop : Loop)
  | restore (loop : Loop)

/-- The call whose step it is. -/
def caller {Call : Type} : CondCmdQTraffic.Label Call → Call
  | .call call | .wait call | .insert call _ | .remove call _ | .wakeup call | .expire call
  | .timeout call => call

variable {Loop : Type} [DecidableEq Loop]

namespace State

def fresh (block : Nat → Cmd Unit) : State Loop where
  queue := .fresh 256 block
  gil := none
  place _ := .python
  round _ := 0

/-- The call on the queue in the present round of an event loop. -/
def current (state : State Loop) (loop : Loop) : Call Loop :=
  .round loop (state.round loop)

/-- May hold the interpreter lock. -/
def interprets (state : State Loop) : Thread Loop → Bool
  | .loop loop => (state.place loop).interprets
  | .other _ => true

/-- A call of `py_thread_next_cmd` up to `PyEval_SaveThread`, in a new round. -/
def saveThread (state : State Loop) (loop : Loop) : State Loop :=
  { state with
    gil := none
    place := Function.update state.place loop .waiting
    round := Function.update state.round loop (state.round loop + 1) }

/-- `PyEval_RestoreThread`, and the rest of the round. -/
def restoreThread (state : State Loop) (loop : Loop) (result : NextCmd) : State Loop :=
  { state with
    gil := some (.loop loop)
    place := Function.update state.place loop (afterRound result) }

end State

/-- The variable `cmd` of a call is what the queue has stored there, if anything. -/
inductive Step : State Loop → Label Loop → State Loop → Prop where
  | acquire {state thread} :
      state.gil = none → state.interprets thread = true →
      Step state (.acquire thread) { state with gil := some thread }
  | release {state thread} :
      state.gil = some thread →
      Step state (.release thread) { state with gil := none }
  | call {state loop} :
      state.gil = some (.loop loop) → state.place loop = .python →
      Step state (.call loop) (state.saveThread loop)
  | main {state label queue} :
      CondCmdQTraffic.Step op state.queue label queue → caller label = .die →
      Step state (.main label) { state with queue := queue }
  | traffic {state loop label queue} :
      state.place loop = .waiting → caller label = state.current loop →
      CondCmdQTraffic.Step op state.queue label queue →
      Step state (.traffic loop label) { state with queue := queue }
  | return {state loop res cmdOut cmd} :
      state.place loop = .waiting →
      state.queue.phase (state.current loop) = .returned res cmdOut →
      (∀ stored ∈ cmdOut, cmd = stored) →
      Step state (.return loop)
        { state with place := Function.update state.place loop (.restoring (nextCmd res cmd)) }
  | restore {state loop result} :
      state.gil = none → state.place loop = .restoring result →
      Step state (.restore loop) (state.restoreThread loop result)

def system (Loop : Type) [DecidableEq Loop] : System (State Loop) (Label Loop) where
  initial state := ∃ block, state = .fresh block
  step := Step

end PyThreadRun

end Striga.Greenev
