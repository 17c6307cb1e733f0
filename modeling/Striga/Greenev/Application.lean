import Striga.Greenev.CmdQueue

/-! `struct application` of `greenev/app.c`: the main loop, whose reference
count decides when the application exits, and what changes that count. -/

set_option autoImplicit false

namespace Striga.Greenev

inductive RunPhase where
  | init
  | run
  | dying
  | exit
  deriving DecidableEq, Repr

inductive AppThread where
  | ioThread
  | pyThread
  deriving DecidableEq, Repr

inductive TerminatingSignal where
  | sigint
  | sigterm
  deriving DecidableEq, Repr

/-- `struct application`, without its two threads, and the default loop. -/
structure Application where
  runPhase : RunPhase
  exitStatus : Int
  mainLoop : EvLoop
  sigint : EvSignal
  sigterm : EvSignal
  appCmdQ : WatcherCmdQ AppThread

def appCmdIoThreadExit : Int := 1

def appCmdPyThreadExit : Int := 2

/-- The command that a thread puts last; its argument is the thread. -/
def exitCmd : AppThread → Cmd AppThread
  | .ioThread => ⟨appCmdIoThreadExit, .ioThread⟩
  | .pyThread => ⟨appCmdPyThreadExit, .pyThread⟩

namespace Application

/-- `application_ctor`; the cells of the queue's block are uninitialised. -/
def ctor (cells : Nat → Cmd AppThread) : Application :=
  let mainLoop : EvLoop := ⟨0⟩
  let (mainLoop, sigint) := EvSignal.init.start mainLoop
  let (mainLoop, sigterm) := EvSignal.init.start mainLoop
  let (mainLoop, appCmdQ) := (WatcherCmdQ.new 256 cells).start mainLoop
  -- One reference for the IO thread, then one for the Python thread.
  let mainLoop := mainLoop.ref.ref
  { runPhase := .init
    exitStatus := 0
    mainLoop := mainLoop
    sigint := sigint
    sigterm := sigterm
    appCmdQ := appCmdQ }

/-- `_application_die` up to `io_thread_die`. -/
def die (this : Application) : Application :=
  let (mainLoop, sigint) := this.sigint.stop this.mainLoop
  let (mainLoop, sigterm) := this.sigterm.stop mainLoop
  { this with
    runPhase := .dying
    mainLoop := mainLoop
    sigint := sigint
    sigterm := sigterm }

def watcher (this : Application) : TerminatingSignal → EvSignal
  | .sigint => this.sigint
  | .sigterm => this.sigterm

def deliver (this : Application) : TerminatingSignal → Application
  | .sigint => { this with sigint := this.sigint.deliver }
  | .sigterm => { this with sigterm := this.sigterm.deliver }

def clear (this : Application) : TerminatingSignal → Application
  | .sigint => { this with sigint := this.sigint.clear }
  | .sigterm => { this with sigterm := this.sigterm.clear }

/-- `_on_application_cmd`; without a result it has called `abort`. -/
def onApplicationCmd (cmd : Cmd AppThread) (this : Application) : Option Application :=
  if cmd.id = appCmdIoThreadExit then
    if this.runPhase ≠ .dying then
      none
    else
      some { this with mainLoop := this.mainLoop.unref }
  else if cmd.id = appCmdPyThreadExit then
    -- Outside of DYING this is logged only.
    some { this with mainLoop := this.mainLoop.unref }
  else
    some this

/-- What is left of `application_dtor` once the threads are gone: the queue is
stopped and freed, and the signal watchers are stopped. -/
def dtor (this : Application) : Application :=
  let (mainLoop, appCmdQ) := this.appCmdQ.stop this.mainLoop
  let (mainLoop, sigint) := this.sigint.stop mainLoop
  let (mainLoop, sigterm) := this.sigterm.stop mainLoop
  { this with
    mainLoop := mainLoop
    sigint := sigint
    sigterm := sigterm
    appCmdQ := appCmdQ }

end Application

end Striga.Greenev
