import Striga.Pyglev.EventLoopList

/-! One reference for each scheduled object, over the runs of an event loop in
which no listen command is scheduled twice. -/

set_option autoImplicit false

namespace Striga.Pyglev.EventLoopRuns

open Lib
open Lib.LinkedList (Chain)

variable {Call : Type} {cmd : Call → SubjectCmd Addr} {state next : State Call}
  {label : Label Call} {addrs : List Addr}

/-- A call that is in the queue, or was. -/
def Accepted (phase : CmdQDrain.PutPhase) : Prop :=
  phase = .sending ∨ phase = .returned true

structure Recorded (state : State Call) : Prop where
  once : state.queue.accepted.Nodup
  accepted : ∀ call ∈ state.queue.accepted, Accepted (state.queue.phase call)
  refused : ∀ call ∈ state.refused, ¬Accepted (state.queue.phase call)
  window : ∀ call, state.window = some call → Accepted (state.queue.phase call)

/-- The listen commands that are to be dispatched. -/
def State.listens (state : State Call) : List Addr :=
  (state.entries.filter fun entry => entry.id = 50).map SubjectCmd.subject

/-- What keeps a dispatch from linking a command that is on the list: a command that
waits to be dispatched has done nothing yet, and it is on record. -/
structure Once (state : State Call) : Prop where
  nodup : state.listens.Nodup
  waiting : ∀ addr ∈ state.listens, addr ∈ state.scheduled ∧
    linking state.queue.consumer ≠ some addr ∧
    ∀ found, state.eventLoop.listenCmds addr = some found → found.status = .init
  started : ∀ addr found, state.eventLoop.listenCmds addr = some found →
    found.status ≠ .init → addr ∈ state.scheduled
  linked : ∀ addr, linking state.queue.consumer = some addr → addr ∈ state.scheduled

theorem State.mem_listens {addr : Addr} :
    addr ∈ state.listens ↔ ∃ entry ∈ state.entries, entry.id = 50 ∧ entry.subject = addr := by
  simp [State.listens, and_assoc]

theorem State.listens_subperm (entries : next.entries.Subperm state.entries) :
    next.listens.Subperm state.listens := by
  obtain ⟨listed, perm, sublist⟩ := entries.filter fun entry => entry.id = 50
  exact ⟨_, perm.map SubjectCmd.subject, sublist.map SubjectCmd.subject⟩

theorem Once.nodup_of_listens (once : Once state)
    (listens : next.listens.Subperm state.listens) : next.listens.Nodup := by
  obtain ⟨listed, perm, sublist⟩ := listens
  exact perm.nodup (sublist.nodup once.nodup)

theorem Once.frame (once : Once state) (listens : next.listens.Subperm state.listens)
    (linked : linking next.queue.consumer = linking state.queue.consumer)
    (listenCmds : next.eventLoop.listenCmds = state.eventLoop.listenCmds)
    (scheduled : next.scheduled = state.scheduled) : Once next where
  nodup := once.nodup_of_listens listens
  waiting := by
    intro addr member
    rw [linked, listenCmds, scheduled]
    exact once.waiting addr (listens.subset member)
  started := by
    rw [listenCmds, scheduled]
    exact once.started
  linked := by
    rw [linked, scheduled]
    exact once.linked

theorem Once.construct (once : Once state) (owned : Owned cmd state addrs) {listenCmd : Addr}
    (free : state.eventLoop.listenCmds listenCmd = none) (host : Option String) (port : String) :
    Once { state with
      eventLoop := state.eventLoop.setListenCmd listenCmd ⟨none, host, port, .init, 0, none⟩
      scheduled := state.scheduled.filter (· ≠ listenCmd) } := by
  constructor
  · exact once.nodup
  · intro addr member
    obtain ⟨entry, inside, listens, rfl⟩ := State.mem_listens.mp member
    obtain ⟨scheduled, unlinked, init⟩ := once.waiting entry.subject member
    have differs : entry.subject ≠ listenCmd := by
      intro same
      rcases owned.queued entry inside with callable | ⟨_, live⟩
      · rw [callable] at listens
        cases listens
      · exact live (same ▸ free)
    refine ⟨by simp [scheduled, differs], unlinked, fun found live => init found ?_⟩
    simpa [EventLoop.setListenCmd, differs] using live
  · intro addr found live status
    by_cases same : addr = listenCmd
    · subst same
      simp [EventLoop.setListenCmd] at live
      subst live
      exact absurd rfl status
    · have before : state.eventLoop.listenCmds addr = some found := by
        simpa [EventLoop.setListenCmd, same] using live
      simp [once.started addr found before status, same]
  · intro addr linked
    obtain ⟨found, live, _⟩ := owned.listening.linked addr linked
    have differs : addr ≠ listenCmd := by
      intro same
      cases (same ▸ free).symm.trans live
    simp [once.linked addr linked, differs]

theorem Once.release (once : Once state) {listenCmd : Addr} (found : ListenCmd) :
    Once { state with eventLoop := state.eventLoop.freeListenCmd listenCmd found } := by
  have kept : ∀ addr value, (state.eventLoop.freeListenCmd listenCmd found).listenCmds addr =
      some value → state.eventLoop.listenCmds addr = some value := by
    intro addr value live
    by_cases same : addr = listenCmd
    · simp [EventLoop.freeListenCmd, same] at live
    · simpa [EventLoop.freeListenCmd, same] using live
  constructor
  · exact once.nodup
  · intro addr member
    obtain ⟨scheduled, unlinked, init⟩ := once.waiting addr member
    exact ⟨scheduled, unlinked, fun value live => init value (kept addr value live)⟩
  · exact fun addr value live => once.started addr value (kept addr value live)
  · exact once.linked

theorem Once.dispatch (once : Once state) (owned : Owned cmd state addrs)
    {command : SubjectCmd Addr} {qsize : Int32} {after : EventLoop}
    (holding : state.queue.consumer = .holding command qsize)
    (done : state.eventLoop.beginDispatch command = .ok after) :
    Once (state.did (.dispatch command qsize) after) := by
  have member : command ∈ state.entries := by simp [State.entries, holding, owed]
  rcases EventLoop.beginDispatch_cases done with
    ⟨callable, rfl⟩ | ⟨listens, found, live, begun⟩ | ⟨notCallable, notListens, _⟩
  · refine once.frame (State.listens_subperm (List.Perm.subperm ?_)) ?_ rfl rfl
    · simp [State.entries, State.did, Work.advance, holding, owed, callable]
    · simp [State.did, Work.advance, holding, linking, callable]
  · have listenCmds : after.listenCmds = Function.update state.eventLoop.listenCmds command.subject
        (some { found with next := state.eventLoop.listenCommands }) := by
      rw [begun]
      rfl
    have before : state.listens =
        (state.did (.dispatch command qsize) after).listens ++ [command.subject] := by
      simp [State.listens, State.entries, State.did, Work.advance, holding, owed, listens]
    have nodup := once.nodup
    rw [before] at nodup
    obtain ⟨kept, _, apart⟩ := List.nodup_append.mp nodup
    have linked : linking (state.did (.dispatch command qsize) after).queue.consumer =
        some command.subject := by
      simp [State.did, Work.advance, linking, listens]
    obtain ⟨scheduled, _, init⟩ := once.waiting command.subject (by simp [before])
    constructor
    · exact kept
    · intro addr inside
      have differs : addr ≠ command.subject := apart addr inside _ (List.mem_singleton_self _)
      obtain ⟨scheduled, _, init⟩ := once.waiting addr (by simp [before, inside])
      refine ⟨scheduled, ?_, fun value liveAfter => init value ?_⟩
      · rw [linked]
        simpa using Ne.symm differs
      · exact (Function.update_of_ne differs _ _).symm.trans (listenCmds ▸ liveAfter)
    · intro addr value liveAfter status
      change after.listenCmds addr = some value at liveAfter
      rw [listenCmds] at liveAfter
      by_cases same : addr = command.subject
      · exact same ▸ scheduled
      · rw [Function.update_of_ne same] at liveAfter
        exact once.started addr value liveAfter status
    · intro addr same
      rw [linked] at same
      cases same
      exact scheduled
  · exact absurd (owned.known member notCallable) notListens

theorem Once.finish (once : Once state) {command : SubjectCmd Addr} {qsize : Int32}
    {outcome : DispatchOutcome} {after : EventLoop}
    (dispatching : state.queue.consumer = .dispatching command qsize)
    (fresh : outcome.resolve.Fresh state.eventLoop.openFds)
    (done : state.eventLoop.endDispatch command outcome = .ok after) :
    Once (state.did (.finish command qsize outcome) after) := by
  have unlinked : linking (state.did (.finish command qsize outcome) after).queue.consumer = none :=
    linking_afterDispatch qsize
  have waits : (state.did (.finish command qsize outcome) after).listens.Subperm
      state.listens := by
    apply State.listens_subperm
    have pending : (state.did (.finish command qsize outcome) after).entries =
        state.queue.this.pending := by simp [State.entries, State.did, Work.advance]
    rw [pending]
    exact (List.sublist_append_left _ _).subperm
  rcases EventLoop.endDispatch_cases fresh done with
    ⟨callable, rfl⟩ | ⟨listens, found, _, scheduled⟩ | ⟨_, notListens, rfl⟩
  · refine once.frame waits ?_ rfl rfl
    rw [unlinked, dispatching]
    simp [linking, callable]
  · obtain ⟨_, value, listenCmds⟩ := scheduled.kept
    have linked : linking state.queue.consumer = some command.subject := by
      simp [dispatching, linking, listens]
    constructor
    · exact once.nodup_of_listens waits
    · intro addr member
      obtain ⟨onRecord, apart, init⟩ := once.waiting addr (waits.subset member)
      have differs : addr ≠ command.subject := by
        intro same
        exact apart (same ▸ linked)
      refine ⟨onRecord, by simp [unlinked], fun value live => init value ?_⟩
      exact (Function.update_of_ne differs _ _).symm.trans (listenCmds ▸ live)
    · intro addr value live status
      change after.listenCmds addr = some value at live
      rw [listenCmds] at live
      by_cases same : addr = command.subject
      · exact same ▸ once.linked _ linked
      · rw [Function.update_of_ne same] at live
        exact once.started addr value live status
    · intro addr same
      rw [unlinked] at same
      cases same
  · refine once.frame waits ?_ rfl rfl
    rw [unlinked, dispatching]
    simp [linking, notListens]

theorem Once.breakSignal (once : Once state) (owned : Owned cmd state addrs)
    {drops : List Dropped} {after : EventLoop} (waiting : state.queue.consumer = .waiting)
    (keeps : KeepsLinks state.eventLoop.refs addrs drops)
    (done : state.eventLoop.eventLoopBreak drops = .ok after) :
    Once (state.did (.breakSignal drops) after) := by
  have listening := owned.listening
  rw [waiting] at listening
  obtain ⟨_, _, others, _⟩ := listening.eventLoopBreak keeps done
  have listed : ∀ addr ∈ addrs, ∃ found, state.eventLoop.listenCmds addr = some found ∧
      found.status ≠ .init := by
    intro addr member
    rcases (listening.listed addr).mp member with ⟨found, live, dispatched⟩ | none
    · refine ⟨found, live, fun init => ?_⟩
      simp [ListenCmd.Dispatched, init] at dispatched
    · cases none
  constructor
  · exact once.nodup
  · intro addr member
    obtain ⟨onRecord, unlinked, init⟩ := once.waiting addr member
    refine ⟨onRecord, unlinked, fun value live => init value ?_⟩
    have outside : addr ∉ addrs := by
      intro inside
      obtain ⟨found, before, started⟩ := listed addr inside
      exact started (init found before)
    exact (others addr outside).symm.trans live
  · intro addr value live status
    by_cases inside : addr ∈ addrs
    · obtain ⟨found, before, started⟩ := listed addr inside
      exact once.started addr found before started
    · exact once.started addr value ((others addr inside).symm.trans live) status
  · exact once.linked

variable [DecidableEq Call]

theorem Once.enqueue (once : Once state) {call : Call}
    (active : state.queue.this.watcher.active = true) (valid : state.queue.this.WellFormed)
    (first : (cmd call).id = 50 → call ∈ (state.enqueue cmd call).queue.accepted →
      (cmd call).subject ∉ state.scheduled) : Once (state.enqueue cmd call) := by
  rcases State.enqueue_cases active valid call with refused | ⟨after, pending, accepted⟩
  · rw [refused]
    exact once.frame (List.Subperm.refl _) rfl rfl rfl
  · have eventLoop : (state.enqueue cmd call).eventLoop = state.eventLoop := by rw [accepted]
    have consumer : (state.enqueue cmd call).queue.consumer = state.queue.consumer := by
      rw [accepted]
    have scheduled : (state.enqueue cmd call).scheduled = if (cmd call).id = 50 then
        (cmd call).subject :: state.scheduled else state.scheduled := by rw [accepted]
    have entries : (state.enqueue cmd call).entries.Perm (cmd call :: state.entries) := by
      rw [accepted, State.entries, State.entries, pending, List.append_assoc]
      exact List.perm_middle
    have waits := (entries.filter fun entry => entry.id = 50).map SubjectCmd.subject
    by_cases listens : (cmd call).id = 50
    · have new := first listens (by simp [accepted])
      rw [List.filter_cons_of_pos (by simp [listens]), List.map_cons] at waits
      rw [if_pos listens] at scheduled
      constructor
      · refine waits.nodup_iff.mpr (List.nodup_cons.mpr ⟨fun member => ?_, once.nodup⟩)
        exact new (once.waiting _ member).1
      · intro addr member
        rw [scheduled, consumer, eventLoop]
        rcases List.mem_cons.mp (waits.mem_iff.mp member) with rfl | member
        · refine ⟨List.mem_cons_self, fun linked => new (once.linked _ linked), ?_⟩
          intro found live
          by_contra started
          exact new (once.started _ found live started)
        · obtain ⟨onRecord, unlinked, init⟩ := once.waiting addr member
          exact ⟨List.mem_cons_of_mem _ onRecord, unlinked, init⟩
      · intro addr found
        rw [scheduled, eventLoop]
        exact fun live status => List.mem_cons_of_mem _ (once.started addr found live status)
      · intro addr
        rw [scheduled, consumer]
        exact fun linked => List.mem_cons_of_mem _ (once.linked addr linked)
    · rw [List.filter_cons_of_neg (by simp [listens])] at waits
      rw [if_neg listens] at scheduled
      exact once.frame waits.subperm (by rw [consumer]) (by rw [eventLoop]) scheduled

theorem Recorded.enqueue (recorded : Recorded state) {call : Call}
    (active : state.queue.this.watcher.active = true) (valid : state.queue.this.WellFormed)
    (noWindow : state.window = none) (idle : state.queue.phase call = .idle)
    (unrefused : call ∉ state.refused) : Recorded (state.enqueue cmd call) := by
  have fresh : call ∉ state.queue.accepted := by
    intro member
    have phase := recorded.accepted call member
    simp [Accepted, idle] at phase
  rcases State.enqueue_cases active valid call with refused | ⟨after, _, accepted⟩
  · rw [refused]
    refine ⟨recorded.once, fun other member => ?_, fun other member => ?_, by simp [noWindow]⟩
    · have differs := ne_of_mem_of_not_mem member fresh
      simpa [differs] using recorded.accepted other member
    · by_cases same : other = call
      · simp [Accepted, same]
      · have earlier := (List.mem_cons.mp member).resolve_left same
        simpa [same] using recorded.refused other earlier
  · rw [accepted]
    constructor
    · exact recorded.once.append (List.nodup_singleton call) (by simpa using fresh)
    · intro other member
      by_cases same : other = call
      · simp [Accepted, same]
      · have earlier : other ∈ state.queue.accepted := by simpa [same] using member
        simpa [same] using recorded.accepted other earlier
    · intro other member
      have differs := ne_of_mem_of_not_mem member unrefused
      simpa [differs] using recorded.refused other member
    · intro other same
      cases same
      simp [Accepted]

theorem Recorded.send (recorded : Recorded state) {call : Call}
    (sending : state.queue.phase call = .sending) :
    Recorded { state with queue := { state.queue with
      this := state.queue.this.send
      phase := Function.update state.queue.phase call (.returned true) } } := by
  have kept : ∀ other, Accepted (Function.update state.queue.phase call (.returned true) other) ↔
      Accepted (state.queue.phase other) := by
    intro other
    by_cases same : other = call
    · simp [Accepted, same, sending]
    · simp [same]
  constructor
  · exact recorded.once
  · exact fun other member => (kept other).mpr (recorded.accepted other member)
  · exact fun other member => (not_congr (kept other)).mpr (recorded.refused other member)
  · exact fun other window => (kept other).mpr (recorded.window other window)

theorem recorded (reachable : (system cmd).Reachable state) : Recorded state := by
  induction reachable with
  | start initial =>
      obtain ⟨loop, block, gil, openFds, dieOnSignal, rfl⟩ := initial
      exact ⟨List.nodup_nil, by simp [CmdQDrain.State.fresh], by simp, by simp⟩
  | @step state label next earlier taken ih =>
      have active := queue_active earlier
      have valid := queue_wellFormed earlier
      cases taken with
      | construct | release | wake | crash => exact ⟨ih.once, ih.accepted, ih.refused, ih.window⟩
      | @mistyped call _ _ idle _ _ _ =>
          refine ⟨ih.once, ih.accepted, fun other member => ?_, ih.window⟩
          rcases List.mem_cons.mp member with rfl | member
          · simp [Accepted, idle]
          · exact ih.refused other member
      | enqueue _ noWindow idle unrefused _ => exact ih.enqueue active valid noWindow idle unrefused
      | send _ sending => exact ih.send sending
      | incref _ window returned =>
          exact ⟨ih.once, ih.accepted, ih.refused, fun other none => by cases none⟩
      | @work work after =>
          cases work with
          | _ => exact ⟨ih.once, ih.accepted, ih.refused, ih.window⟩
      | get getting =>
          rcases CmdQDrain.get_cases valid (queue_small earlier) with
            ⟨_, ended⟩ | ⟨_, _, _, _, _, _, held⟩
          · rw [ended]
            exact ⟨ih.once, ih.accepted, ih.refused, ih.window⟩
          · rw [held]
            exact ⟨ih.once, ih.accepted, ih.refused, ih.window⟩

/-- No call is both accepted and refused, what is dispatched is what was accepted, in
that order and each call once, and the references to an object are those of the
queue, of the call in progress and of the list. -/
structure OneReferenceEach (cmd : Call → SubjectCmd Addr) (state : State Call) : Prop where
  refused : ∀ call ∈ state.refused, call ∉ state.queue.accepted ∧ state.window ≠ some call
  once : state.queue.accepted.Nodup
  order : state.queue.accepted.map cmd =
    state.queue.dispatched ++ state.queue.consumer.hand ++ state.queue.this.pending
  refs : ∃ addrs, Chain state.eventLoop.listenLinks state.eventLoop.listenCommands addrs ∧
    ∀ object, state.eventLoop.refs object + state.inWindow cmd object =
      state.entriesOf object + if object ∈ addrs then 1 else 0
  nonnegative : ∀ object, 0 ≤ state.eventLoop.refs object

/-- A refusal changes no reference, and none is given back while a call has yet to
take its own. -/
structure HandlesReferences (state : State Call) (label : Label Call) (next : State Call) :
    Prop where
  refused : ∀ call, label = .enqueue call ∨ label = .mistyped call → call ∈ next.refused →
    next.eventLoop = state.eventLoop
  dropped : ∀ object, next.eventLoop.refs object < state.eventLoop.refs object →
    state.window = none

/-- The garbage collector stays away, and a listen command is accepted once. -/
def SchedulesOnce (cmd : Call → SubjectCmd Addr) (state : State Call) :
    Label Call → State Call → Prop
  | .work (.traverse _ _), _ | .work .clear, _ => False
  | .enqueue call, next => (cmd call).id = 50 → call ∈ next.queue.accepted →
      (cmd call).subject ∉ state.scheduled
  | _, _ => True

/-- The break reads the `next` that was there. -/
def KeepsNext (state : State Call) : Label Call → State Call → Prop
  | .work (.breakSignal drops), _ => ∀ addrs,
      Chain state.eventLoop.listenLinks state.eventLoop.listenCommands addrs →
        KeepsLinks state.eventLoop.refs addrs drops
  | _, _ => True

theorem Once.keepsList (once : Once state)
    (taken : (system cmd).step state label next) (plain : SchedulesOnce cmd state label next)
    (keeps : KeepsNext state label next) : KeepsList state label next := by
  have waits : ∀ command qsize, state.queue.consumer = .holding command qsize →
      command.id = 50 → ∀ found, state.eventLoop.listenCmds command.subject = some found →
        ¬found.Dispatched := by
    intro command qsize holding listens found live
    have member : command.subject ∈ state.listens := by
      simp [State.listens, State.entries, holding, owed, listens]
    have init := (once.waiting _ member).2.2 found live
    simp [ListenCmd.Dispatched, init]
  cases taken with
  | construct | release | mistyped | enqueue | send | incref | wake | get => trivial
  | @work work after _ ready done =>
      cases work with
      | dispatch command qsize => exact waits command qsize ready.1
      | breakSignal drops => exact keeps
      | traverse | clear => exact plain.elim
      | finish | listenSocketIo | estSocketIo => trivial
  | @crash work crash _ ready crashed =>
      cases work with
      | dispatch command qsize => exact waits command qsize ready.1
      | breakSignal drops => exact keeps
      | traverse | clear => exact plain.elim
      | finish | listenSocketIo | estSocketIo => trivial

theorem Once.step (once : Once state) (owned : Owned cmd state addrs)
    (reachable : (system cmd).Reachable state) (taken : (system cmd).step state label next)
    (plain : SchedulesOnce cmd state label next) (keeps : KeepsNext state label next) :
    Once next := by
  cases taken with
  | @construct listenCmd host port _ free => exact once.construct owned free host port
  | @release listenCmd found => exact once.release found
  | mistyped | send | incref | crash => exact once.frame (List.Subperm.refl _) rfl rfl rfl
  | enqueue =>
      exact once.enqueue (queue_active reachable) (queue_wellFormed reachable) plain
  | wake _ waiting =>
      refine once.frame (State.listens_subperm ?_) ?_ rfl rfl
      · rw [wake_entries waiting]
      · rw [waiting]
        rfl
  | get _ getting =>
      obtain ⟨unlinked, entries⟩ :=
        get_entries (queue_wellFormed reachable) (queue_small reachable) getting
      refine once.frame (State.listens_subperm entries.subperm) ?_ rfl rfl
      rw [getting]
      exact unlinked
  | @work work after _ ready done =>
      cases work with
      | dispatch command qsize => exact once.dispatch owned ready.1 done
      | finish command qsize outcome => exact once.finish ready.1 ready.2.2 done
      | breakSignal drops =>
          exact once.breakSignal owned ready.1 (keeps _ owned.listening.chain) done
      | traverse | clear => exact plain.elim
      | listenSocketIo array index revents reported outcome =>
          obtain ⟨listenCmd, found, _, event⟩ :=
            (EventLoop.onListenSocketIo_within _ _ _ _).of_ok done
          have same := (owned.listening.listenEvent event).2.2
          exact once.frame (List.Subperm.refl _) rfl same rfl
      | estSocketIo socket revents outcome =>
          obtain ⟨_, _, event⟩ := (EventLoop.onEstSocketIo_within _ _ _).of_ok done
          have same := (owned.listening.estEvent event).2.2
          exact once.frame (List.Subperm.refl _) rfl same rfl

theorem Owned.oneReferenceEach (owned : Owned cmd state addrs)
    (reachable : (system cmd).Reachable state) : OneReferenceEach cmd state where
  refused := by
    intro call member
    have recorded := recorded reachable
    have apart := recorded.refused call member
    exact ⟨fun accepted => apart (recorded.accepted call accepted),
      fun window => apart (recorded.window call window)⟩
  once := (recorded reachable).once
  order := CmdQDrain.accepted_eq (by decide) (by decide) (queue_reachable reachable)
  refs := ⟨addrs, owned.listening.chain, owned.refs⟩
  nonnegative := owned.nonnegative

omit [DecidableEq Call] in
private theorem refs_of_work (owned : Owned cmd state addrs) {work : Work} {after : EventLoop}
    (ready : state.Ready work) (done : work.perform state.eventLoop = .ok after)
    (plain : SchedulesOnce cmd state (.work work) (state.did work after)) :
    state.window = none ∨ after.refs = state.eventLoop.refs := by
  cases work with
  | dispatch command qsize =>
      rcases EventLoop.beginDispatch_cases done with ⟨_, rfl⟩ | ⟨_, found, _, rfl⟩ | ⟨_, _, rfl⟩
      · exact .inr rfl
      · exact .inr rfl
      · exact .inr rfl
  | finish command qsize outcome =>
      obtain ⟨_, noWindow, fresh⟩ := ready
      rcases EventLoop.endDispatch_cases fresh done with
        ⟨callable, _⟩ | ⟨_, found, _, scheduled⟩ | ⟨_, notListens, _⟩
      · exact .inl (noWindow (by simp [callable]))
      · exact .inr scheduled.kept.1
      · exact .inl (noWindow notListens)
  | breakSignal drops => exact .inl ready.2.1
  | listenSocketIo array index revents reported outcome =>
      obtain ⟨_, _, _, event⟩ := (EventLoop.onListenSocketIo_within _ _ _ _).of_ok done
      exact .inr (owned.listening.listenEvent event).2.1
  | estSocketIo socket revents outcome =>
      obtain ⟨_, _, event⟩ := (EventLoop.onEstSocketIo_within _ _ _).of_ok done
      exact .inr (owned.listening.estEvent event).2.1
  | traverse | clear => exact plain.elim

theorem Owned.handlesReferences (owned : Owned cmd state addrs)
    (taken : (system cmd).step state label next) (plain : SchedulesOnce cmd state label next) :
    HandlesReferences state label next := by
  constructor
  · intro call refuses member
    rcases refuses with rfl | rfl
    · cases taken with
      | enqueue =>
          unfold State.enqueue
          dsimp only
          split
          · rfl
          · rfl
    · cases taken with
      | mistyped => rfl
  · intro object drops
    cases taken with
    | construct | release | mistyped | send | wake | get | crash =>
        exact absurd drops (lt_irrefl _)
    | enqueue _ noWindow => exact noWindow
    | @incref call _ window =>
        rw [EventLoop.refs_addRefs] at drops
        split at drops
        · omega
        · omega
    | @work work after _ ready done =>
        rcases refs_of_work owned ready done plain with noWindow | refs
        · exact noWindow
        · change after.refs object < state.eventLoop.refs object at drops
          rw [refs] at drops
          exact absurd drops (lt_irrefl _)

/-- What carries `OneReferenceEach` along a run. -/
structure Kept (cmd : Call → SubjectCmd Addr) (state : State Call) : Prop where
  reachable : (system cmd).Reachable state
  sound : Sound cmd state
  once : Once state

theorem Kept.initial (initial : (system cmd).initial state) : Kept cmd state := by
  refine ⟨.start initial, .initial initial, ?_⟩
  have entries := entries_initial initial
  obtain ⟨loop, block, gil, openFds, dieOnSignal, rfl⟩ := initial
  constructor
  · simp [State.listens, entries]
  · simp [State.listens, entries]
  · cases dieOnSignal with
    | true | false =>
        intro addr found live
        cases live
  · intro addr linked
    cases linked

theorem Kept.step (kept : Kept cmd state) (taken : (system cmd).step state label next)
    (met : SchedulesOnce cmd state label next ∧ KeepsNext state label next) : Kept cmd next := by
  obtain ⟨addrs, owned⟩ := kept.sound.owned
  exact ⟨kept.reachable.step taken,
    kept.sound.step kept.reachable taken (kept.once.keepsList taken met.1 met.2),
    kept.once.step owned kept.reachable taken met.1 met.2⟩

theorem oneReferenceEach_of_keepsNext (cmd : Call → SubjectCmd Addr) (start : State Call)
    (path : List (Label Call × State Call)) (run : (system cmd).Run start path)
    (plain : AllSteps (SchedulesOnce cmd) start path) (keeps : AllSteps KeepsNext start path) :
    AllStates (OneReferenceEach cmd) start path ∧ AllSteps HandlesReferences start path := by
  have met := plain.and keeps
  constructor
  · apply run.allStates (Kept cmd) met
    · exact fun state initial => .initial initial
    · exact fun state label next _ kept taken met => kept.step taken met
    · intro state kept
      obtain ⟨addrs, owned⟩ := kept.sound.owned
      exact owned.oneReferenceEach kept.reachable
  · apply run.allSteps (Kept cmd) met
    · exact fun state initial => .initial initial
    · exact fun state label next _ kept taken met => kept.step taken met
    · intro state label next _ kept taken met
      obtain ⟨addrs, owned⟩ := kept.sound.owned
      exact owned.handlesReferences taken met.1

/-- A callable and a listen command. -/
def callAndListen : Bool → SubjectCmd Addr
  | true => ⟨0, 7⟩
  | false => ⟨50, 0⟩

theorem oneReferenceEach_of_keepsNext_first_call :
    ∃ path, path.map Prod.fst = [.construct 0 none "8080", .enqueue true, .send true, .incref true,
        .enqueue false, .send false, .incref false, .wake, .get, .work (.dispatch ⟨0, 7⟩ 1)] ∧
      AllStates (OneReferenceEach callAndListen) unscheduled path ∧
      AllSteps HandlesReferences unscheduled path :=
  ⟨[(_, _), (_, _), (_, _), (_, _), (_, _), (_, _), (_, _), (_, _), (_, _), (_, _)], rfl,
    oneReferenceEach_of_keepsNext callAndListen unscheduled _ ⟨⟨_, _, _, _, true, rfl⟩,
      .construct rfl rfl, .enqueue rfl rfl rfl (by decide) (.inl rfl),
      .send rfl rfl, .incref rfl rfl rfl,
      .enqueue rfl rfl rfl (by decide) (.inr ⟨rfl, by decide⟩), .send rfl rfl, .incref rfl rfl rfl,
      .wake rfl rfl rfl rfl, .get rfl rfl, .work rfl ⟨rfl, by decide⟩ rfl, trivial⟩
    ⟨trivial, (fun listens => by cases listens), trivial, trivial, (fun _ _ => by decide), trivial,
      trivial, trivial, trivial, trivial, trivial⟩
    ⟨trivial, trivial, trivial, trivial, trivial, trivial, trivial, trivial, trivial, trivial,
      trivial⟩⟩

/-- Two listen commands, each scheduled once. -/
def listenBoth : Bool → SubjectCmd Addr
  | true => ⟨50, 0⟩
  | false => ⟨50, 1⟩

/-- The break loses the rest of the list when it frees a command before it reads its
`next`. -/
theorem break_forgets_the_rest :
    ¬ ∀ (cmd : Bool → SubjectCmd Addr) state,
      ((system cmd).restrict (SchedulesOnce cmd)).Reachable state → OneReferenceEach cmd state := by
  intro always
  have start : ((system listenBoth).restrict (SchedulesOnce listenBoth)).Reachable unscheduled :=
    .start ⟨_, _, _, _, true, rfl⟩
  have first := start.step ⟨@Step.construct _ _ listenBoth _ 0 none "8080" rfl rfl, trivial⟩
  have both := first.step ⟨@Step.construct _ _ listenBoth _ 1 none "8081" rfl rfl, trivial⟩
  have queued := both.step ⟨@Step.enqueue _ _ listenBoth _ true rfl rfl rfl (by decide)
    (.inr ⟨rfl, by decide⟩), fun _ _ => by decide⟩
  have sent := queued.step ⟨@Step.send _ _ listenBoth _ true rfl rfl, trivial⟩
  have owned := sent.step ⟨@Step.incref _ _ listenBoth _ true rfl rfl rfl, trivial⟩
  have queuedBoth := owned.step ⟨@Step.enqueue _ _ listenBoth _ false rfl rfl rfl (by decide)
    (.inr ⟨rfl, by decide⟩), fun _ _ => by decide⟩
  have sentBoth := queuedBoth.step ⟨@Step.send _ _ listenBoth _ false rfl rfl, trivial⟩
  have ownedBoth := sentBoth.step ⟨@Step.incref _ _ listenBoth _ false rfl rfl rfl, trivial⟩
  have woken := ownedBoth.step ⟨@Step.wake _ _ listenBoth _ rfl rfl rfl rfl, trivial⟩
  have got := woken.step ⟨@Step.get _ _ listenBoth _ rfl rfl, trivial⟩
  have linked := got.step ⟨@Step.work _ _ listenBoth _ (.dispatch ⟨50, 0⟩ 1) _ rfl
    ⟨rfl, by decide⟩ rfl, trivial⟩
  have listening := linked.step ⟨@Step.work _ _ listenBoth _ (.finish ⟨50, 0⟩ 1 (listensOn 5)) _ rfl
    ⟨rfl, by decide, by decide, by decide⟩ rfl, trivial⟩
  have gotBoth := listening.step ⟨@Step.get _ _ listenBoth _ rfl rfl, trivial⟩
  have linkedBoth := gotBoth.step ⟨@Step.work _ _ listenBoth _ (.dispatch ⟨50, 1⟩ 0) _ rfl
    ⟨rfl, by decide⟩ rfl, trivial⟩
  have listeningBoth := linkedBoth.step ⟨@Step.work _ _ listenBoth _
    (.finish ⟨50, 1⟩ 0 (listensOn 6)) _ rfl ⟨rfl, by decide, by decide, by decide⟩ rfl, trivial⟩
  have broken := listeningBoth.step ⟨@Step.work _ _ listenBoth _
    (.breakSignal [.freed .null, .held]) _ rfl ⟨rfl, rfl, .inl rfl, ?_⟩ rfl, trivial⟩
  · obtain ⟨addrs, chain, counted⟩ := (always listenBoth _ broken).refs
    cases addrs with
    | nil => exact absurd (counted 0) (by decide)
    | cons addr rest => cases chain.1
  · intro addrs chain
    have listed : addrs = [1, 0] := chain.unique ⟨rfl, some 0, rfl, rfl, none, rfl, rfl⟩
    rw [listed]
    exact Nat.le_refl 2

end Striga.Pyglev.EventLoopRuns
