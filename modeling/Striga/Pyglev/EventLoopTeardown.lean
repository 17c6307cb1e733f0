import Striga.Pyglev.Callbacks
import Mathlib.Data.List.Count

/-! `event_loop_dtor` against the references that an event loop owns: those of
`on_error`, of the listed listen commands and of the commands in its queue. -/

set_option autoImplicit false

namespace Striga.Pyglev

open Lib
open Lib.LinkedList (Chain)

/-- `struct event_loop` with what only its destructor gives up. The constructor
makes the loop and the queue together, or neither. -/
structure EventLoopObject where
  eventLoop : EventLoop
  onError : Option Addr
  cmdQ : Option (CmdQ Addr)

inductive DtorFault where
  | crash (crash : Crash)
  | assertion

namespace EventLoopObject

variable (start : EventLoopObject)

/-- `Py_CLEAR(self->on_error)`. -/
def clearOnError : EventLoopObject :=
  match start.onError with
  | none => start
  | some object =>
      { start with
        eventLoop := (start.eventLoop.calls [.decref object]).addRefs object (-1)
        onError := none }

/-- `event_loop_tp_clear`. -/
def tpClear : Except DtorFault EventLoopObject :=
  let cleared := start.clearOnError
  match cleared.eventLoop.tpClear with
  | .error crash => .error (.crash crash)
  | .ok eventLoop => .ok { cleared with eventLoop := eventLoop }

/-- `event_loop_dtor` up to `tp_free`. -/
def dtor : Except DtorFault EventLoopObject :=
  match start.cmdQ with
  | none => start.tpClear
  | some cmdQ =>
      let eventLoop := start.eventLoop.stopBreakSignals
      let (loop, cmdQ) := cmdQ.stop eventLoop.loop
      if cmdQ.deletable then
        { start with
          eventLoop := { eventLoop with loop := loop }
          cmdQ := none : EventLoopObject }.tpClear
      else
        .error .assertion

def pending : List (SubjectCmd Addr) :=
  match start.cmdQ with
  | none => []
  | some cmdQ => cmdQ.pending

/-- The owner of each reference once, with the given commands on its list. -/
def owned (addrs : List Addr) : List Addr :=
  start.onError.toList ++ addrs ++ start.pending.map SubjectCmd.subject

/-- Every reference is given up, and given up once. -/
structure ReleasesAll (addrs : List Addr) (next : EventLoopObject) : Prop where
  empty : next.eventLoop.listenCommands = none
  refs : ∀ object, next.eventLoop.refs object =
    start.eventLoop.refs object - (start.owned addrs).count object

variable {start}

private theorem clearOnError_listenCommands :
    start.clearOnError.eventLoop.listenCommands = start.eventLoop.listenCommands := by
  unfold clearOnError
  split
  · rfl
  · rfl

private theorem clearOnError_refs (object : Addr) : start.clearOnError.eventLoop.refs object =
    start.eventLoop.refs object - start.onError.toList.count object := by
  unfold clearOnError
  split
  · rename_i unset
    simp [unset]
  · rename_i other set
    simp only [set, EventLoop.refs_addRefs]
    by_cases same : other = object
    · simp [same, EventLoop.calls, Int.sub_eq_add_neg]
    · simp [same, EventLoop.calls]

theorem tpClear_of_empty (empty : start.eventLoop.listenCommands = none) :
    start.tpClear = .ok start.clearOnError := by
  have cleared : start.clearOnError.eventLoop.tpClear = .ok start.clearOnError.eventLoop := by
    simp [EventLoop.tpClear, clearOnError_listenCommands, empty]
  simp [tpClear, cleared]

/-- `Py_CLEAR(listen_cmd)` has nulled the variable that the loop goes on with. -/
theorem tpClear_of_listed {listenCmd : Addr}
    (listed : start.eventLoop.listenCommands = some listenCmd) :
    ∃ gil, start.tpClear = .error (.crash ⟨.nullDereference, gil⟩) := by
  have crashed : start.clearOnError.eventLoop.tpClear =
      start.clearOnError.eventLoop.crash .nullDereference := by
    simp [EventLoop.tpClear, clearOnError_listenCommands, listed]
  exact ⟨_, by rw [tpClear, crashed]; rfl⟩

/-- The object as `event_loop_tp_clear` finds it. -/
theorem dtor_tpClear : ∃ stopped : EventLoopObject, start.dtor = stopped.tpClear ∧
    stopped.onError = start.onError ∧ stopped.eventLoop.refs = start.eventLoop.refs ∧
    stopped.eventLoop.listenCommands = start.eventLoop.listenCommands := by
  unfold dtor
  cases start.cmdQ with
  | none => exact ⟨start, rfl, rfl, rfl, rfl⟩
  | some cmdQ =>
      have inactive : (cmdQ.stop start.eventLoop.stopBreakSignals.loop).2.deletable = true := by
        cases active : cmdQ.watcher.active with
        | true | false => simp [CmdQ.deletable, CmdQ.stop, EvAsync.stop, active]
      simp only [inactive, if_true]
      exact ⟨_, rfl, rfl, rfl, rfl⟩

theorem dtor_releasesAll_iff (start : EventLoopObject) (addrs : List Addr)
    (chain : Chain start.eventLoop.listenLinks start.eventLoop.listenCommands addrs) :
    (∃ next, start.dtor = .ok next ∧ start.ReleasesAll addrs next) ↔
      addrs = [] ∧ start.pending = [] := by
  obtain ⟨stopped, same, onError, refs, listed⟩ := @dtor_tpClear start
  rw [same]
  cases addrs with
  | nil =>
      have empty : start.eventLoop.listenCommands = none := chain
      rw [empty] at listed
      have released : ∀ object, stopped.clearOnError.eventLoop.refs object =
          start.eventLoop.refs object - start.onError.toList.count object := by
        intro object
        rw [clearOnError_refs, onError, refs]
      have owns : start.owned [] = start.onError.toList ++
        start.pending.map SubjectCmd.subject := by
        simp [owned]
      rw [tpClear_of_empty listed]
      constructor
      · intro releases
        obtain ⟨next, done, releases⟩ := releases
        cases done
        have none : start.pending.map SubjectCmd.subject = [] := by
          apply List.eq_nil_iff_forall_not_mem.mpr
          intro object
          have counted := releases.refs object
          rw [released, owns, List.count_append] at counted
          exact List.count_eq_zero.mp (by omega)
        exact ⟨rfl, List.map_eq_nil_iff.mp none⟩
      · intro nothing
        refine ⟨_, rfl, clearOnError_listenCommands.trans listed, fun object => ?_⟩
        rw [released, owns, nothing.2, List.map_nil, List.append_nil]
  | cons addr rest =>
      obtain ⟨gil, crashed⟩ := tpClear_of_listed (listed.trans chain.1)
      rw [crashed]
      exact iff_of_false (fun releases => by obtain ⟨_, done, _⟩ := releases; cases done)
        (fun nothing => by cases nothing.1)

/-- A loop that holds `on_error` and has not been used. -/
def unused : EventLoopObject := ⟨.fresh ⟨some 1, none, []⟩, some 8, some (.new 128 fun _ => ⟨0, 0⟩)⟩

theorem dtor_releasesAll_unused :
    ∃ next, unused.dtor = .ok next ∧ unused.ReleasesAll [] next :=
  (dtor_releasesAll_iff unused [] rfl).mpr ⟨rfl, rfl⟩

/-- With one listen command on its list, the destructor reads the `next` of NULL. -/
theorem not_releasesAll_listed :
    ∃ start : EventLoopObject,
      Chain start.eventLoop.listenLinks start.eventLoop.listenCommands [5] ∧
      ¬ ∃ next, start.dtor = .ok next ∧ start.ReleasesAll [5] next := by
  let eventLoop := (EventLoop.fresh ⟨some 1, none, []⟩).setListenCmd 5
    ⟨none, none, "80", .resolving, 0, none⟩
  let start := { unused with eventLoop := { eventLoop with listenCommands := some 5 } }
  refine ⟨start, ⟨rfl, none, rfl, rfl⟩, ?_⟩
  intro releases
  obtain ⟨next, done, _⟩ := releases
  cases done

end EventLoopObject

end Striga.Pyglev
