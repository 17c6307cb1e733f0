import Striga.CmdQ

/-! `struct application` of `singlev/src/app.c`: the default loop, the two
signals that end it, and the thread state that `application_run` leaves behind
while the loop has no need of the interpreter. -/

set_option autoImplicit false

namespace Striga.Singlev

inductive RunPhase where
  | init
  | run
  | dying
  | exit
  deriving DecidableEq, Repr

/-- The values of `enum app_run_phases`. -/
def RunPhase.code : RunPhase → Int
  | .init => 0
  | .run => 100
  | .dying => 990
  | .exit => 1000

inductive TerminatingSignal where
  | sigint
  | sigterm
  deriving DecidableEq, Repr

/-- A command's `data`; no command of this program carries any. -/
abbrev Data := Option Nat

/-- `struct application` and the default loop. A `PyThreadState *` is told by
the thread that it belongs to. -/
structure Application (Thread : Type) where
  runPhase : RunPhase
  exitStatus : Int
  mainLoop : EvLoop
  sigint : EvSignal
  sigterm : EvSignal
  pythonThreadState : Option Thread
  cmdQ : CmdQ Data

def appCmdIdListen : Int := 1

/-- The command of `_pysevapi_application_listen`. -/
def listenCmd : SubjectCmd Data := ⟨appCmdIdListen, none⟩

namespace Application

variable {Thread : Type}

/-- `application_ctor`; the cells of the queue's block are uninitialised. -/
def ctor (block : Nat → SubjectCmd Data) : Application Thread :=
  let mainLoop : EvLoop := ⟨0⟩
  let (mainLoop, cmdQ) := (CmdQ.new 128 block).start mainLoop
  let (mainLoop, sigint) := EvSignal.init.start mainLoop
  let (mainLoop, sigterm) := EvSignal.init.start mainLoop
  { runPhase := .init
    exitStatus := 0
    mainLoop := mainLoop
    sigint := sigint
    sigterm := sigterm
    pythonThreadState := none
    cmdQ := cmdQ }

/-- `application_start` up to `_pyutils_run_module`. -/
def start (this : Application Thread) : Application Thread := { this with runPhase := .run }

def stopSignals (this : Application Thread) : Application Thread :=
  let (mainLoop, sigint) := this.sigint.stop this.mainLoop
  let (mainLoop, sigterm) := this.sigterm.stop mainLoop
  { this with mainLoop := mainLoop, sigint := sigint, sigterm := sigterm }

/-- `_application_die`; without a result its assert has failed. -/
def die (this : Application Thread) : Option (Application Thread) :=
  if this.runPhase = .dying then some this
  else if this.runPhase = .exit then some this
  else if this.runPhase = .run then some { this with runPhase := .dying }.stopSignals
  else none

/-- `application_dtor` up to `Py_Finalize`. -/
def stop (this : Application Thread) : Option (Application Thread) :=
  if this.pythonThreadState.isSome then none
  else
    let (mainLoop, cmdQ) := this.cmdQ.stop this.mainLoop
    some { this with mainLoop := mainLoop, cmdQ := cmdQ }

/-- `application_dtor` from `Py_Finalize` to `cmd_q_delete`. -/
def exit (this : Application Thread) : Application Thread :=
  { this with runPhase := .exit }.stopSignals

def watcher (this : Application Thread) : TerminatingSignal → EvSignal
  | .sigint => this.sigint
  | .sigterm => this.sigterm

def deliver (this : Application Thread) : TerminatingSignal → Application Thread
  | .sigint => { this with sigint := this.sigint.deliver }
  | .sigterm => { this with sigterm := this.sigterm.deliver }

def clear (this : Application Thread) : TerminatingSignal → Application Thread
  | .sigint => { this with sigint := this.sigint.clear }
  | .sigterm => { this with sigterm := this.sigterm.clear }

/-- What the count of the loop is to be: the queue's watcher is not in it. -/
def references (this : Application Thread) : Int :=
  this.sigint.active.toNat + this.sigterm.active.toNat

end Application

/-- `_pysevapi_app_ready` on the global `app`; a text is a `RuntimeError`. -/
def appReady {Thread : Type} (app : Option (Application Thread)) :
    Except String (Application Thread) :=
  match app with
  | none => .error "Application is not ready"
  | some this =>
      if this.runPhase ≠ .run then .error "Application is not running" else .ok this

end Striga.Singlev
