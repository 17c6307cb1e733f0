import Mathlib.Data.List.Basic

/-! The part of libev that the programs rely on: a loop's reference count and
the watchers that hold a reference while they are active. Starting or stopping
a watcher changes the count only when it changes the watcher's activity. -/

set_option autoImplicit false

namespace Striga

/-- `struct ev_loop`; `ev_run` returns once the count is zero. -/
structure EvLoop where
  activecnt : Int
  deriving DecidableEq, Repr

def EvLoop.ref (loop : EvLoop) : EvLoop := ⟨loop.activecnt + 1⟩

def EvLoop.unref (loop : EvLoop) : EvLoop := ⟨loop.activecnt - 1⟩

structure EvAsync where
  active : Bool
  sent : Bool
  deriving DecidableEq, Repr

namespace EvAsync

def init : EvAsync := ⟨false, false⟩

/-- `ev_async_start`: an inactive watcher forgets what was sent to it. -/
def start (loop : EvLoop) (watcher : EvAsync) : EvLoop × EvAsync :=
  if watcher.active then (loop, watcher) else (loop.ref, ⟨true, false⟩)

def stop (loop : EvLoop) (watcher : EvAsync) : EvLoop × EvAsync :=
  if watcher.active then (loop.unref, { watcher with active := false }) else (loop, watcher)

/-- `ev_async_send`: callable from any thread, on a watcher in any state. -/
def send (watcher : EvAsync) : EvAsync := { watcher with sent := true }

/-- The loop clears the flag just before it invokes the callback. -/
def clear (watcher : EvAsync) : EvAsync := { watcher with sent := false }

end EvAsync

structure EvSignal where
  active : Bool
  pending : Bool
  deriving DecidableEq, Repr

namespace EvSignal

def init : EvSignal := ⟨false, false⟩

def start (loop : EvLoop) (watcher : EvSignal) : EvLoop × EvSignal :=
  if watcher.active then (loop, watcher) else (loop.ref, { watcher with active := true })

/-- The signal arrives; a watcher that is not active does not see it. -/
def deliver (watcher : EvSignal) : EvSignal :=
  if watcher.active then { watcher with pending := true } else watcher

/-- The loop clears the pending event just before it invokes the callback. -/
def clear (watcher : EvSignal) : EvSignal := { watcher with pending := false }

/-- `ev_signal_stop`: a stopped watcher's pending event is discarded. -/
def stop (loop : EvLoop) (watcher : EvSignal) : EvLoop × EvSignal :=
  if watcher.active then (loop.unref, ⟨false, false⟩) else (loop, { watcher with pending := false })

end EvSignal

/-- A set of `EV_READ`, `EV_WRITE` and `EV_ERROR`. -/
structure EvEvents where
  read : Bool
  write : Bool
  error : Bool
  deriving DecidableEq, Repr

/-- `struct ev_io`; the callbacks a program uses are the values of a type. -/
structure EvIo (Callback : Type) where
  cb : Callback
  fd : Int
  events : EvEvents
  active : Bool
  deriving DecidableEq, Repr

namespace EvIo

variable {Callback : Type}

def init (cb : Callback) (fd : Int) (events : EvEvents) : EvIo Callback := ⟨cb, fd, events, false⟩

def set (watcher : EvIo Callback) (fd : Int) (events : EvEvents) : EvIo Callback :=
  { watcher with fd := fd, events := events }

def start (loop : EvLoop) (watcher : EvIo Callback) : EvLoop × EvIo Callback :=
  if watcher.active then (loop, watcher) else (loop.ref, { watcher with active := true })

def stop (loop : EvLoop) (watcher : EvIo Callback) : EvLoop × EvIo Callback :=
  if watcher.active then (loop.unref, { watcher with active := false }) else (loop, watcher)

end EvIo

end Striga
