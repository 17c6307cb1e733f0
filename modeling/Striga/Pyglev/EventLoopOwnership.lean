import Striga.Pyglev.ListenList

/-! The references of an event loop, over its runs: one for each entry of the queue,
one for a call in progress and one for each command of the list. -/

set_option autoImplicit false

namespace Striga.Pyglev.EventLoopRuns

open Lib
open Lib.LinkedList (Chain)

/-- A command in the drain's hand or a callable in its call; a listen command that is
being dispatched is on the list already. -/
def owed : CmdQDrain.Consumer Addr → List (SubjectCmd Addr)
  | .holding cmd _ => [cmd]
  | .dispatching cmd _ => if cmd.id = 50 then [] else [cmd]
  | _ => []

/-- The listen command that is on the list, but not in its first step yet. -/
def linking : CmdQDrain.Consumer Addr → Option Addr
  | .dispatching cmd _ => if cmd.id = 50 then some cmd.subject else none
  | _ => none

@[simp] theorem owed_afterDispatch (qsize : Int32) :
    owed (CmdQDrain.Consumer.afterDispatch true qsize) = [] := by
  unfold CmdQDrain.Consumer.afterDispatch
  split
  · rfl
  · rfl

@[simp] theorem linking_afterDispatch (qsize : Int32) :
    linking (CmdQDrain.Consumer.afterDispatch true qsize) = none := by
  unfold CmdQDrain.Consumer.afterDispatch
  split
  · rfl
  · rfl

variable {Call : Type}

def State.entries (state : State Call) : List (SubjectCmd Addr) :=
  state.queue.this.pending ++ owed state.queue.consumer

def State.entriesOf (state : State Call) (object : Addr) : Nat :=
  (state.entries.map SubjectCmd.subject).count object

/-- The reference that a scheduling call is about to take. -/
def State.inWindow (state : State Call) (cmd : Call → SubjectCmd Addr) (object : Addr) : Nat :=
  if state.window.map (fun call => (cmd call).subject) = some object then 1 else 0

structure Owned (cmd : Call → SubjectCmd Addr) (state : State Call) (addrs : List Addr) :
    Prop where
  listening : state.eventLoop.Listening addrs (linking state.queue.consumer)
  queued : ∀ entry ∈ state.entries, entry.id = 0 ∨
    entry.id = 50 ∧ state.eventLoop.listenCmds entry.subject ≠ none
  refs : ∀ object, state.eventLoop.refs object + state.inWindow cmd object =
    state.entriesOf object + if object ∈ addrs then 1 else 0
  nonnegative : ∀ object, 0 ≤ state.eventLoop.refs object

variable {cmd : Call → SubjectCmd Addr} {state next : State Call}
  {label : Label Call} {addrs : List Addr}

theorem Owned.known (owned : Owned cmd state addrs) {entry : SubjectCmd Addr}
    (member : entry ∈ state.entries) (notCallable : entry.id ≠ 0) : entry.id = 50 :=
  ((owned.queued entry member).resolve_left notCallable).1

/-- What an object's references do not depend on. -/
theorem Owned.frame (owned : Owned cmd state addrs)
    (listening : next.eventLoop.Listening addrs (linking next.queue.consumer))
    (live : ∀ addr, state.eventLoop.listenCmds addr ≠ none → next.eventLoop.listenCmds addr ≠ none)
    (refs : next.eventLoop.refs = state.eventLoop.refs) (window : next.window = state.window)
    (entries : next.entries.Perm state.entries) : Owned cmd next addrs where
  listening := listening
  queued := by
    intro entry member
    rcases owned.queued entry (entries.mem_iff.mp member) with callable | ⟨listens, found⟩
    · exact .inl callable
    · exact .inr ⟨listens, live _ found⟩
  refs := by
    intro object
    have same : next.entriesOf object = state.entriesOf object :=
      (entries.map SubjectCmd.subject).count_eq object
    have before := owned.refs object
    simp only [State.inWindow] at before ⊢
    rw [refs, window, same]
    exact before
  nonnegative := by
    rw [refs]
    exact owned.nonnegative

theorem Owned.construct (owned : Owned cmd state addrs) {listenCmd : Addr}
    (free : state.eventLoop.listenCmds listenCmd = none) (host : Option String) (port : String)
    (scheduled : List Addr) : Owned cmd { state with
      eventLoop := state.eventLoop.setListenCmd listenCmd ⟨none, host, port, .init, 0, none⟩
      scheduled := scheduled } addrs := by
  refine owned.frame (owned.listening.constructed free host port) ?_ rfl rfl (.refl _)
  intro addr live
  by_cases same : addr = listenCmd
  · simp [EventLoop.setListenCmd, same]
  · simpa [EventLoop.setListenCmd, same] using live

theorem Owned.release (owned : Owned cmd state addrs) {listenCmd : Addr} {found : ListenCmd}
    (live : state.eventLoop.listenCmds listenCmd = some found)
    (unreferenced : state.eventLoop.refs listenCmd ≤ 0)
    (outside : ∀ call, state.window = some call → (cmd call).subject ≠ listenCmd) :
    Owned cmd { state with eventLoop := state.eventLoop.freeListenCmd listenCmd found } addrs := by
  have noWindow : state.inWindow cmd listenCmd = 0 := by
    apply if_neg
    intro same
    obtain ⟨call, window, subject⟩ := Option.map_eq_some_iff.mp same
    exact outside call window subject
  have counted := owned.refs listenCmd
  rw [noWindow] at counted
  have unlisted : listenCmd ∉ addrs := by
    intro member
    rw [if_pos member] at counted
    omega
  have noEntry : state.entriesOf listenCmd = 0 := by
    rw [if_neg unlisted] at counted
    omega
  refine ⟨owned.listening.freed live unlisted, ?_, owned.refs, owned.nonnegative⟩
  intro entry member
  rcases owned.queued entry member with callable | ⟨listens, found⟩
  · exact .inl callable
  · refine .inr ⟨listens, ?_⟩
    have differs : entry.subject ≠ listenCmd := by
      intro same
      have inside : listenCmd ∈ state.entries.map SubjectCmd.subject :=
        List.mem_map.mpr ⟨entry, member, same⟩
      exact absurd noEntry (List.count_pos_iff.mpr inside).ne'
    simpa [EventLoop.freeListenCmd, differs] using found

theorem Owned.enqueue [DecidableEq Call] (owned : Owned cmd state addrs) {call : Call}
    (active : state.queue.this.watcher.active = true) (valid : state.queue.this.WellFormed)
    (noWindow : state.window = none) (schedules : state.Schedules (cmd call)) :
    Owned cmd (state.enqueue cmd call) addrs := by
  rcases State.enqueue_cases active valid call with refused | ⟨after, pending, accepted⟩
  · rw [refused]
    exact owned.frame owned.listening (fun _ live => live) rfl rfl (.refl _)
  · rw [accepted]
    have entries : ∀ entry, entry ∈ after.pending ++ owed state.queue.consumer ↔
        entry ∈ state.entries ∨ entry = cmd call := by
      intro entry
      simp only [State.entries, pending, List.mem_append, List.mem_singleton]
      tauto
    refine ⟨owned.listening, ?_, ?_, owned.nonnegative⟩
    · intro entry member
      rcases (entries entry).mp member with earlier | rfl
      · exact owned.queued entry earlier
      · exact schedules
    · intro object
      have counted := owned.refs object
      simp only [State.inWindow, State.entriesOf, State.entries, noWindow, pending,
        List.map_append, List.count_append, List.map_cons, List.map_nil, List.count_singleton,
        Option.map_none, Option.map_some, Option.some.injEq, reduceCtorEq, if_false,
        beq_iff_eq] at counted ⊢
      omega

theorem Owned.incref (owned : Owned cmd state addrs) {call : Call}
    (window : state.window = some call) : Owned cmd { state with
      eventLoop := state.eventLoop.addRefs (cmd call).subject 1, window := none } addrs := by
  refine ⟨owned.listening.frame rfl rfl rfl rfl (fun _ _ active => active)
    owned.listening.connected, owned.queued, ?_, ?_⟩
  · intro object
    have counted := owned.refs object
    simp only [State.inWindow, State.entriesOf, State.entries, window, Option.map_some,
      Option.map_none, Option.some.injEq, reduceCtorEq, if_false,
        EventLoop.refs_addRefs] at counted ⊢
    split at counted
    · rename_i same
      rw [if_pos same]
      omega
    · rename_i differs
      rw [if_neg differs]
      omega
  · intro object
    have before := owned.nonnegative object
    rw [EventLoop.refs_addRefs]
    split
    · omega
    · omega

theorem wake_entries (waiting : state.queue.consumer = .waiting) :
    State.entries { state with queue := { state.queue with
      this := { state.queue.this with watcher := state.queue.this.watcher.clear }
      consumer := .getting } } = state.entries := by
  rw [State.entries, State.entries, waiting]
  rfl

theorem get_entries (valid : state.queue.this.WellFormed)
    (small : state.queue.this.size.toNat ≤ 2 ^ 31) (getting : state.queue.consumer = .getting) :
    linking state.queue.get.consumer = none ∧
      (State.entries { state with queue := state.queue.get }).Perm state.entries := by
  rcases CmdQDrain.get_cases valid small with
    ⟨_, ended⟩ | ⟨qsize, outCmd, after, _, pending, _, held⟩
  · rw [ended]
    refine ⟨rfl, ?_⟩
    rw [State.entries, State.entries, getting]
    exact .refl _
  · rw [held]
    refine ⟨rfl, ?_⟩
    rw [State.entries, State.entries, getting, pending]
    simp [owed]

theorem Owned.get (owned : Owned cmd state addrs) (valid : state.queue.this.WellFormed)
    (small : state.queue.this.size.toNat ≤ 2 ^ 31)
    (getting : state.queue.consumer = .getting) :
    Owned cmd { state with queue := state.queue.get } addrs := by
  obtain ⟨unlinked, entries⟩ := get_entries valid small getting
  refine owned.frame ?_ (fun _ live => live) rfl rfl entries
  have listening := owned.listening
  rw [getting] at listening
  change state.eventLoop.Listening addrs (linking state.queue.get.consumer)
  rw [unlinked]
  exact listening

/-- The reference of the queue's entry becomes the one of the list. -/
theorem Owned.dispatchListen (owned : Owned cmd state addrs) {command : SubjectCmd Addr}
    {qsize : Int32} {found : ListenCmd} (holding : state.queue.consumer = .holding command qsize)
    (listens : command.id = 50) (live : state.eventLoop.listenCmds command.subject = some found)
    (idle : ¬found.Dispatched) :
    Owned cmd (state.did (.dispatch command qsize) { state.eventLoop.setListenCmd command.subject
      { found with next := state.eventLoop.listenCommands } with
        listenCommands := some command.subject }) (command.subject :: addrs) := by
  have listening := owned.listening
  rw [holding] at listening
  have unlisted := listening.unlisted live idle
  have entries : ∀ after, (state.did (.dispatch command qsize) after).entries =
      state.queue.this.pending := by
    intro after
    simp [State.entries, State.did, Work.advance, owed, listens]
  constructor
  · have same :
        linking (CmdQDrain.Consumer.dispatching command qsize) = some command.subject := by
      simp [linking, listens]
    change EventLoop.Listening _ _ (linking (.dispatching command qsize))
    rw [same]
    exact listening.link live idle
  · intro entry inside
    rw [entries] at inside
    rcases owned.queued entry (List.mem_append_left _ inside) with callable | ⟨listensToo, liveToo⟩
    · exact .inl callable
    · refine .inr ⟨listensToo, ?_⟩
      by_cases same : entry.subject = command.subject
      · simp [State.did, EventLoop.setListenCmd, same]
      · simpa [State.did, EventLoop.setListenCmd, same] using liveToo
  · intro object
    have counted := owned.refs object
    rw [State.entriesOf, entries]
    change state.eventLoop.refs object + state.inWindow cmd object = _
    simp only [State.entriesOf, State.entries, owed, holding, List.map_append, List.map_cons,
      List.map_nil, List.count_append, List.count_singleton, beq_iff_eq, List.mem_cons]
      at counted ⊢
    by_cases same : object = command.subject
    · subst same
      simp only [unlisted, if_false, if_true, or_false] at counted ⊢
      omega
    · simp only [same, Ne.symm same, if_false, false_or] at counted ⊢
      omega
  · exact owned.nonnegative

theorem Owned.dispatch (owned : Owned cmd state addrs) {command : SubjectCmd Addr} {qsize : Int32}
    {after : EventLoop} (holding : state.queue.consumer = .holding command qsize)
    (done : state.eventLoop.beginDispatch command = .ok after)
    (idle : command.id = 50 → ∀ found, state.eventLoop.listenCmds command.subject = some found →
      ¬found.Dispatched) :
    ∃ addrs, Owned cmd (state.did (.dispatch command qsize) after) addrs := by
  rcases EventLoop.beginDispatch_cases done with
    ⟨callable, rfl⟩ | ⟨listens, found, live, rfl⟩ | ⟨notCallable, notListens, _⟩
  · have listening := owned.listening
    rw [holding] at listening
    refine ⟨addrs, owned.frame ?_ (fun _ live => live) rfl rfl ?_⟩
    · have same : linking (CmdQDrain.Consumer.dispatching command qsize) = none := by
        simp [linking, callable]
      change EventLoop.Listening _ _ (linking (.dispatching command qsize))
      rw [same]
      exact listening.frame rfl rfl rfl rfl (fun _ _ active => active) listening.connected
    · rw [State.entries, State.entries, holding]
      simp [State.did, Work.advance, owed, callable]
  · exact ⟨_, owned.dispatchListen holding listens live (idle listens found live)⟩
  · have member : command ∈ state.entries := by simp [State.entries, holding, owed]
    exact absurd (owned.known member notCallable) notListens

private theorem finish_entries (command : SubjectCmd Addr) (qsize : Int32)
    (outcome : DispatchOutcome)
    (after : EventLoop) : (state.did (.finish command qsize outcome) after).entries =
      state.queue.this.pending := by
  simp [State.entries, State.did, Work.advance]

/-- The reference of a callable is given back at the end of its call. -/
theorem Owned.finishCallable (owned : Owned cmd state addrs) {command : SubjectCmd Addr}
    {qsize : Int32} {outcome : DispatchOutcome}
    (dispatching : state.queue.consumer = .dispatching command qsize) (callable : command.id = 0)
    (noWindow : state.window = none) :
    Owned cmd (state.did (.finish command qsize outcome)
      (state.eventLoop.endCallable command.subject outcome.raises)) addrs := by
  have listens : command.id ≠ 50 := by
    rw [callable]
    decide
  have listening := owned.listening
  rw [dispatching] at listening
  simp only [linking, listens, if_false] at listening
  have counted := owned.refs
  simp only [State.inWindow, State.entriesOf, State.entries, dispatching, owed, listens, if_false,
    noWindow, Option.map_none, reduceCtorEq, List.map_append, List.map_cons,
    List.map_nil, List.count_append, List.count_singleton, beq_iff_eq] at counted
  have refs : ∀ object, (state.eventLoop.endCallable command.subject outcome.raises).refs object =
      state.eventLoop.refs object + if command.subject = object then -1 else 0 :=
    fun object => EventLoop.refs_addRefs command.subject object (-1)
  constructor
  · change EventLoop.Listening _ addrs (linking (.afterDispatch true qsize))
    rw [linking_afterDispatch]
    exact listening.frame rfl rfl rfl rfl (fun _ _ active => active) listening.connected
  · intro entry inside
    rw [finish_entries] at inside
    exact owned.queued entry (List.mem_append_left _ inside)
  · intro object
    have before := counted object
    have window : (state.did (.finish command qsize outcome)
      (state.eventLoop.endCallable command.subject outcome.raises)).window = none := noWindow
    rw [State.inWindow, window, State.entriesOf, finish_entries]
    change (state.eventLoop.endCallable command.subject outcome.raises).refs object + _ = _
    simp only [refs, Option.map_none, reduceCtorEq, if_false]
    split at before
    · rename_i same
      rw [if_pos same]
      omega
    · rename_i differs
      rw [if_neg differs]
      omega
  · intro object
    have before := counted object
    have positive := owned.nonnegative object
    change 0 ≤ (state.eventLoop.endCallable command.subject outcome.raises).refs object
    rw [refs]
    split
    · rename_i same
      rw [if_pos same] at before
      split at before
      · omega
      · omega
    · omega

theorem Owned.finish (owned : Owned cmd state addrs) {command : SubjectCmd Addr} {qsize : Int32}
    {outcome : DispatchOutcome} {after : EventLoop}
    (dispatching : state.queue.consumer = .dispatching command qsize)
    (noWindow : command.id ≠ 50 → state.window = none)
    (fresh : outcome.resolve.Fresh state.eventLoop.openFds)
    (done : state.eventLoop.endDispatch command outcome = .ok after) :
    Owned cmd (state.did (.finish command qsize outcome) after) addrs := by
  rcases EventLoop.endDispatch_cases fresh done with
    ⟨callable, rfl⟩ | ⟨listens, found, live, scheduled⟩ | ⟨notCallable, notListens, _⟩
  · exact owned.finishCallable dispatching callable (noWindow (by simp [callable]))
  · have listening := owned.listening
    rw [dispatching] at listening
    simp only [linking, listens, if_true] at listening
    obtain ⟨refs, value, listenCmds⟩ := scheduled.kept
    refine owned.frame ?_ ?_ refs rfl ?_
    · change EventLoop.Listening after addrs (linking (.afterDispatch true qsize))
      rw [linking_afterDispatch]
      exact listening.scheduled live scheduled
    · intro addr liveBefore
      change after.listenCmds addr ≠ none
      rw [listenCmds]
      by_cases same : addr = command.subject
      · simp [same]
      · simpa [same] using liveBefore
    · rw [finish_entries, State.entries, dispatching]
      simp [owed, listens]
  · have member : command ∈ state.entries := by
      simp [State.entries, dispatching, owed, notListens]
    exact absurd (owned.known member notCallable) notListens

theorem Owned.breakSignal (owned : Owned cmd state addrs) {drops : List Dropped}
    {after : EventLoop} (waiting : state.queue.consumer = .waiting) (noWindow : state.window = none)
    (keeps : KeepsLinks state.eventLoop.refs addrs drops)
    (done : state.eventLoop.eventLoopBreak drops = .ok after) :
    Owned cmd (state.did (.breakSignal drops) after) [] := by
  have listening := owned.listening
  rw [waiting] at listening
  obtain ⟨closed, refs, others, freed⟩ := listening.eventLoopBreak keeps done
  have counted := owned.refs
  simp only [State.inWindow, noWindow, Option.map_none, reduceCtorEq, if_false] at counted
  constructor
  · change EventLoop.Listening after [] (linking state.queue.consumer)
    rw [waiting]
    exact closed
  · intro entry member
    rcases owned.queued entry member with callable | ⟨listens, live⟩
    · exact .inl callable
    · refine .inr ⟨listens, fun gone => ?_⟩
      have listed : entry.subject ∈ addrs := by
        by_contra outside
        exact live ((others _ outside).symm.trans gone)
      have last := freed entry.subject listed gone
      have before := counted entry.subject
      rw [if_pos listed] at before
      have inside : 0 < state.entriesOf entry.subject :=
        List.count_pos_iff.mpr (List.mem_map.mpr ⟨entry, member, rfl⟩)
      omega
  · intro object
    have before := counted object
    have left := refs object
    simp only [State.inWindow, State.did, noWindow, Option.map_none, reduceCtorEq, if_false,
      List.not_mem_nil]
    change _ = (state.entriesOf object : Int) + 0
    rw [left]
    omega
  · intro object
    have before := counted object
    have positive := owned.nonnegative object
    change 0 ≤ after.refs object
    rw [refs object]
    by_cases member : object ∈ addrs
    · rw [if_pos member] at before ⊢
      omega
    · rw [if_neg member] at before ⊢
      omega

/-- Work that leaves the queue and the references alone. -/
theorem Owned.beside (owned : Owned cmd state addrs) {work : Work} {after : EventLoop}
    (advance : work.advance state.queue = state.queue)
    (listening : after.Listening addrs (linking state.queue.consumer))
    (refs : after.refs = state.eventLoop.refs)
    (listenCmds : after.listenCmds = state.eventLoop.listenCmds) :
    Owned cmd (state.did work after) addrs := by
  refine owned.frame ?_ ?_ refs rfl ?_
  · change EventLoop.Listening after addrs (linking (work.advance state.queue).consumer)
    rw [advance]
    exact listening
  · intro addr live
    change after.listenCmds addr ≠ none
    rw [listenCmds]
    exact live
  · simp [State.entries, State.did, advance]

end Striga.Pyglev.EventLoopRuns
