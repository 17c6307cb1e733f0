import Striga.Greenev.IoThreadSockets
import Striga.Lib.Transition

/-! Runs of the IO thread: other threads hand over sockets and at most once the
command to die, while the thread drains its queue and handles the events of its
sockets, until its loop's count is zero. -/

set_option autoImplicit false

namespace Striga.Greenev.IoThreadTraffic

open Lib

/-- Where the thread is: before `ev_run`, in it, out of it, and past
`watcher_cmd_q_stop`. A draining thread may hold a command that it has removed
from the queue but not yet handled. -/
inductive Control where
  | created
  | waiting
  | draining (hand : Option (Cmd (Option Addr)))
  | left
  | stopped

def Control.hand : Control → List (Cmd (Option Addr))
  | .draining hand => hand.toList
  | _ => []

/-- The thread, the number of producers of sockets past their critical section
that have yet to wake it, whether `io_thread_die` was called and has yet to wake
it, and whether its command was handled. -/
structure State where
  thread : IoThread
  control : Control
  sending : Nat
  dieCalled : Bool
  dieSending : Bool
  dieProcessed : Bool

def State.fresh (layout : IoBufferLayout) (cells : Nat → Cmd (Option Addr)) (block : Nat)
    (memory : Nat → Nat) : State :=
  ⟨.ctor layout cells block memory, .created, 0, false, false, false⟩

inductive Label where
  | die
  | sendDie
  | listen (addr : Addr)
  | connect (addr : Addr)
  | send
  | start
  | wake
  | iterate
  | command (cmd : Cmd (Option Addr)) (reads : Addr → FreedRead)
  | accept (sockobj : Addr)
  | readwrite (sockobj : Addr)
  | leave
  | stop

/-- `io_thread_die`, up to the end of the critical section. -/
def State.die (state : State) : State :=
  { state with
    thread := state.thread.die
    dieCalled := true
    dieSending := (state.thread.cmdQ.enqueue ⟨iotCmdIoThreadDie, none⟩).1 }

def State.sendDie (state : State) : State :=
  { state with
    thread := { state.thread with cmdQ := state.thread.cmdQ.send }
    dieSending := false }

/-- A new object put with its command; if it is not refused, the producer goes
on to wake the thread. -/
def State.handOver (state : State) (id : Int) (addr : Addr) (sockobj : SockObj) : State :=
  { state with
    thread := state.thread.handOver id addr sockobj
    sending := if (state.thread.cmdQ.enqueue ⟨id, some addr⟩).1 then state.sending + 1
      else state.sending }

def State.send (state : State) : State :=
  { state with
    thread := { state.thread with cmdQ := state.thread.cmdQ.send }
    sending := state.sending - 1 }

def State.wake (state : State) : State :=
  { state with
    thread := { state.thread with cmdQ :=
      { state.thread.cmdQ with qWatcher := state.thread.cmdQ.qWatcher.clear } }
    control := .draining none }

def State.iterate (state : State) : State :=
  match state.thread.cmdQ.take with
  | (none, cmdQ) =>
      { state with thread := { state.thread with cmdQ := cmdQ }, control := .waiting }
  | (some cmd, cmdQ) =>
      { state with thread := { state.thread with cmdQ := cmdQ }, control := .draining (some cmd) }

def State.handled (state : State) (cmd : Cmd (Option Addr)) (thread : IoThread) : State :=
  { state with
    thread := thread
    control := .draining none
    dieProcessed := state.dieProcessed || cmd.id == iotCmdIoThreadDie }

/-- Callbacks begin while `ev_run` waits, for watchers that are active. A step
in which the source would run into a fault is no step: the run ends before it. -/
inductive Step (layout : IoBufferLayout) : State → Label → State → Prop where
  | die {state} :
      state.dieCalled = false →
      Step layout state .die state.die
  | sendDie {state} :
      state.dieSending = true →
      Step layout state .sendDie state.sendDie
  | listen {state addr fd domain type protocol address} :
      state.thread.heap addr = none →
      Step layout state (.listen addr) (state.handOver iotCmdIoThreadListen addr
        (IoThread.listeningSocket fd domain type protocol address))
  | connect {state addr fd domain type protocol address} :
      state.thread.heap addr = none →
      Step layout state (.connect addr) (state.handOver iotCmdIoThreadEstablish addr
        (IoThread.connectedSocket fd domain type protocol address))
  | send {state} :
      0 < state.sending →
      Step layout state .send state.send
  | start {state} :
      state.control = .created →
      Step layout state .start { state with thread := state.thread.start, control := .waiting }
  | wake {state} :
      state.control = .waiting →
      state.thread.loop.activecnt ≠ 0 →
      state.thread.cmdQ.qWatcher.active = true →
      state.thread.cmdQ.qWatcher.sent = true →
      Step layout state .wake state.wake
  | iterate {state} :
      state.control = .draining none →
      Step layout state .iterate state.iterate
  | command {state cmd reads fuel thread} :
      state.control = .draining (some cmd) →
      state.thread.onIotCmd reads fuel cmd = .ok thread →
      Step layout state (.command cmd reads) (state.handled cmd thread)
  | accept {state sockobj app revents accepted addr thread} :
      state.control = .waiting →
      state.thread.Watched .onIoThreadAccept sockobj →
      state.thread.heap addr = none →
      state.thread.onIoThreadAccept app sockobj revents accepted addr = .ok thread →
      Step layout state (.accept sockobj) { state with thread := thread }
  | readwrite {state sockobj fuel revents size thread} :
      state.control = .waiting →
      state.thread.Watched .onIoThreadReadwrite sockobj →
      state.thread.onIoThreadReadwrite layout fuel sockobj revents size = .ok thread →
      Step layout state (.readwrite sockobj) { state with thread := thread }
  | leave {state} :
      state.control = .waiting →
      state.thread.loop.activecnt = 0 →
      Step layout state .leave { state with control := .left }
  | stop {state} :
      state.control = .left →
      Step layout state .stop { state with thread := state.thread.stop, control := .stopped }

def system (layout : IoBufferLayout) : System State Label where
  initial state := ∃ cells block memory, state = .fresh layout cells block memory
  step := Step layout

def State.inFlight (state : State) : List (Cmd (Option Addr)) :=
  state.control.hand ++ state.thread.cmdQ.pending

def Control.watching : Control → Bool
  | .created => false
  | .stopped => false
  | _ => true

/-- What the loop counts besides the sockets: the reference that `IO_THREAD_DIE`
releases. Stopping the queue's watcher takes one more. -/
def State.held (state : State) : Int :=
  match state.control with
  | .created => 0
  | .stopped => -1
  | _ => if state.dieProcessed then 0 else 1

/-- A command that the handler can carry out: to die, or to take over an object
that is not watched yet. -/
def Deliverable (sockets : SocketHeap) (cmd : Cmd (Option Addr)) : Prop :=
  cmd = ⟨iotCmdIoThreadDie, none⟩ ∨
    ∃ cb addr, cmd = ⟨IoThread.handOverCmd cb, some addr⟩ ∧ sockets.Idle cb addr

structure Commands (sockets : SocketHeap) (flight : List (Cmd (Option Addr))) : Prop where
  deliverable : ∀ cmd ∈ flight, Deliverable sockets cmd
  distinct : (flight.filterMap Cmd.arg).Nodup

def dies (flight : List (Cmd (Option Addr))) : Nat :=
  flight.countP (·.id == iotCmdIoThreadDie)

/-- What holds in every state: the lists are in order, the commands in flight
can be carried out, and there is never more than one command to die. -/
structure Valid (state : State) (lists : SocketCallback → List Addr) : Prop where
  sockets : Lists state.held state.thread.toSocketHeap state.thread.list lists
  watching : state.thread.cmdQ.qWatcher.active = state.control.watching
  created : state.control = .created → state.dieProcessed = false
  queue : state.thread.cmdQ.WellFormed
  qSize : state.thread.cmdQ.qSize = 256
  commands : Commands state.thread.toSocketHeap state.inFlight
  dieOnce : dies state.inFlight + state.dieProcessed.toNat ≤ state.dieCalled.toNat
  ended : state.control = .left ∨ state.control = .stopped →
    state.dieProcessed = true ∧ ∀ cb, lists cb = []

section Commands

variable {sockets after : SocketHeap} {flight : List (Cmd (Option Addr))}
  {cmd : Cmd (Option Addr)} {addr : Addr}

theorem Commands.live (commands : Commands sockets flight)
    (member : addr ∈ flight.filterMap Cmd.arg) :
    ∃ cb, sockets.Idle cb addr := by
  obtain ⟨cmd, inside, arg⟩ := List.mem_filterMap.mp member
  rcases commands.deliverable cmd inside with rfl | ⟨cb, owned, rfl, idle⟩
  · cases arg
  · cases arg
    exact ⟨cb, idle⟩

/-- Commands stay deliverable while the objects they hand over stay idle. -/
theorem Commands.frame (commands : Commands sockets flight)
    (same : ∀ addr ∈ flight.filterMap Cmd.arg,
      (after.heap addr).map SockObj.watcher = (sockets.heap addr).map SockObj.watcher) :
    Commands after flight := by
  refine ⟨fun cmd member => ?_, commands.distinct⟩
  refine (commands.deliverable cmd member).imp_right fun owned => ?_
  obtain ⟨cb, addr, rfl, idle⟩ := owned
  exact ⟨cb, addr, rfl, idle.frame (same addr (List.mem_filterMap.mpr ⟨_, member, rfl⟩))⟩

theorem Commands.tail (commands : Commands sockets (cmd :: flight)) : Commands sockets flight := by
  have distinct := commands.distinct.sublist
    (List.sublist_cons_self cmd flight |>.filterMap Cmd.arg)
  exact ⟨fun other member => commands.deliverable other (List.mem_cons_of_mem _ member), distinct⟩

theorem Commands.snoc_die (commands : Commands sockets flight) :
    Commands sockets (flight ++ [⟨iotCmdIoThreadDie, none⟩]) := by
  constructor
  · intro cmd member
    rcases List.mem_append.mp member with earlier | last
    · exact commands.deliverable cmd earlier
    · exact .inl (List.mem_singleton.mp last)
  · simpa using commands.distinct

theorem Commands.snoc_handOver (commands : Commands sockets flight) {cb : SocketCallback}
    (idle : sockets.Idle cb addr) (fresh : addr ∉ flight.filterMap Cmd.arg) :
    Commands sockets (flight ++ [⟨IoThread.handOverCmd cb, some addr⟩]) := by
  constructor
  · intro cmd member
    rcases List.mem_append.mp member with earlier | last
    · exact commands.deliverable cmd earlier
    · exact .inr ⟨cb, addr, List.mem_singleton.mp last, idle⟩
  · rw [List.filterMap_append, List.nodup_append]
    refine ⟨commands.distinct, by simp, ?_⟩
    intro other member last inside same
    simp only [List.filterMap_cons, List.filterMap_nil, List.mem_singleton] at inside
    exact fresh (inside ▸ same ▸ member)

end Commands

variable {layout : IoBufferLayout} {state : State} {lists : SocketCallback → List Addr}

theorem handOverCmd_ne_die (cb : SocketCallback) :
    IoThread.handOverCmd cb ≠ iotCmdIoThreadDie := by
  cases cb <;> decide

@[simp] theorem handOverCmd_beq_die (cb : SocketCallback) :
    (IoThread.handOverCmd cb == iotCmdIoThreadDie) = false :=
  beq_eq_false_iff_ne.mpr (handOverCmd_ne_die cb)

@[simp] theorem dies_nil : dies [] = 0 := rfl

@[simp] theorem dies_append (left right : List (Cmd (Option Addr))) :
    dies (left ++ right) = dies left + dies right := List.countP_append

@[simp] theorem dies_die (flight : List (Cmd (Option Addr))) :
    dies (⟨iotCmdIoThreadDie, none⟩ :: flight) = dies flight + 1 := List.countP_cons_of_pos rfl

@[simp] theorem dies_handOver (cb : SocketCallback) (addr : Addr)
    (flight : List (Cmd (Option Addr))) :
    dies (⟨IoThread.handOverCmd cb, some addr⟩ :: flight) = dies flight :=
  List.countP_cons_of_neg (by simp)

theorem Valid.die (valid : Valid state lists) (once : state.dieCalled = false) :
    Valid state.die lists := by
  obtain ⟨queue, pending⟩ := valid.queue.enqueue_pending ⟨iotCmdIoThreadDie, none⟩
  have flight : state.die.inFlight = state.inFlight ∨
      state.die.inFlight = state.inFlight ++ [⟨iotCmdIoThreadDie, none⟩] := by
    refine pending.imp ?_ ?_ <;>
    · intro same
      simp [State.inFlight, State.die, IoThread.die, same]
  have none : dies state.inFlight + state.dieProcessed.toNat ≤ 0 := by
    simpa [once] using valid.dieOnce
  refine {
    sockets := valid.sockets
    watching := (WatcherCmdQ.enqueue_qWatcher _ _).symm ▸ valid.watching
    created := valid.created
    queue := queue
    qSize := (WatcherCmdQ.enqueue_qSize _ _).trans valid.qSize
    commands := ?_
    dieOnce := ?_
    ended := valid.ended }
  · rcases flight with same | appended
    · rw [same]
      exact valid.commands
    · rw [appended]
      exact valid.commands.snoc_die
  · change dies state.die.inFlight + state.dieProcessed.toNat ≤ 1
    rcases flight with same | appended
    · rw [same]
      omega
    · rw [appended, dies_append, dies_die, dies_nil]
      omega

theorem Valid.handOver_inFlight (valid : Valid state lists) (cb : SocketCallback) (addr : Addr)
    (sockobj : SockObj) :
    (state.handOver (IoThread.handOverCmd cb) addr sockobj).inFlight = state.inFlight ∨
      (state.handOver (IoThread.handOverCmd cb) addr sockobj).inFlight =
        state.inFlight ++ [⟨IoThread.handOverCmd cb, some addr⟩] := by
  obtain ⟨_, pending⟩ := valid.queue.enqueue_pending ⟨IoThread.handOverCmd cb, some addr⟩
  refine pending.imp ?_ ?_ <;>
  · intro same
    simp [State.inFlight, State.handOver, IoThread.handOver, same]

theorem Valid.handOver (valid : Valid state lists) (cb : SocketCallback) {addr : Addr}
    {sockobj : SockObj} (free : state.thread.heap addr = none)
    (inactive : sockobj.watcher.active = false) (kind : sockobj.watcher.cb = cb) :
    Valid (state.handOver (IoThread.handOverCmd cb) addr sockobj) lists := by
  obtain ⟨queue, _⟩ := valid.queue.enqueue_pending ⟨IoThread.handOverCmd cb, some addr⟩
  have flight := valid.handOver_inFlight cb addr sockobj
  have fresh : addr ∉ state.inFlight.filterMap Cmd.arg := by
    intro member
    obtain ⟨_, other, found, _⟩ := valid.commands.live member
    cases found.symm.trans free
  have idle : (state.thread.store addr sockobj).Idle cb addr :=
    ⟨sockobj, by simp [SocketHeap.store], inactive, kind⟩
  have kept : Commands (state.thread.store addr sockobj) state.inFlight := by
    refine valid.commands.frame fun other member => ?_
    have differs := ne_of_mem_of_not_mem member fresh
    simp [SocketHeap.store, differs]
  refine {
    sockets := valid.sockets.store_fresh free inactive
    watching := (WatcherCmdQ.enqueue_qWatcher _ _).symm ▸ valid.watching
    created := valid.created
    queue := queue
    qSize := (WatcherCmdQ.enqueue_qSize _ _).trans valid.qSize
    commands := ?_
    dieOnce := ?_
    ended := valid.ended }
  · rcases flight with same | appended
    · rw [same]
      exact kept
    · rw [appended]
      exact kept.snoc_handOver idle fresh
  · change dies (state.handOver (IoThread.handOverCmd cb) addr sockobj).inFlight +
      state.dieProcessed.toNat ≤ state.dieCalled.toNat
    rcases flight with same | appended
    · rw [same]
      exact valid.dieOnce
    · rw [appended, dies_append, dies_handOver, dies_nil]
      exact valid.dieOnce

theorem Valid.at (valid : Valid state lists) {control : Control}
    (position : state.control = control) :
    Lists { state with control := control }.held state.thread.toSocketHeap state.thread.list lists ∧
      state.thread.cmdQ.qWatcher.active = control.watching ∧
      Commands state.thread.toSocketHeap (control.hand ++ state.thread.cmdQ.pending) ∧
      dies (control.hand ++ state.thread.cmdQ.pending) + state.dieProcessed.toNat ≤
        state.dieCalled.toNat := by
  subst position
  exact ⟨valid.sockets, valid.watching, valid.commands, valid.dieOnce⟩

theorem start_eq {thread : IoThread} (inactive : thread.cmdQ.qWatcher.active = false) :
    thread.start = { thread with
      loop := thread.loop.ref
      cmdQ := { thread.cmdQ with qWatcher := ⟨true, false⟩ } } := by
  simp [IoThread.start, WatcherCmdQ.start, EvAsync.start, inactive, EvLoop.ref, EvLoop.unref]

theorem stop_eq {thread : IoThread} (active : thread.cmdQ.qWatcher.active = true) :
    thread.stop = { thread with
      loop := thread.loop.unref
      cmdQ := { thread.cmdQ with qWatcher := ⟨false, thread.cmdQ.qWatcher.sent⟩ } } := by
  simp [IoThread.stop, WatcherCmdQ.stop, EvAsync.stop, active]

theorem Valid.start (valid : Valid state lists) (created : state.control = .created) :
    Valid { state with thread := state.thread.start, control := .waiting } lists := by
  obtain ⟨sockets, inactive, commands, once⟩ := valid.at created
  have unprocessed := valid.created created
  rw [start_eq inactive]
  refine {
    sockets := sockets.recount ?_
    watching := rfl
    created := by simp
    queue := valid.queue
    qSize := valid.qSize
    commands := commands.frame fun _ _ => rfl
    dieOnce := once
    ended := by simp }
  simp [State.held, unprocessed, EvLoop.ref]

theorem Valid.wake (valid : Valid state lists) (waiting : state.control = .waiting) :
    Valid state.wake lists := by
  obtain ⟨sockets, active, commands, once⟩ := valid.at waiting
  exact {
    sockets := sockets
    watching := active
    created := by simp [State.wake]
    queue := valid.queue
    qSize := valid.qSize
    commands := commands
    dieOnce := once
    ended := by simp [State.wake] }

theorem Valid.iterate (valid : Valid state lists) (draining : state.control = .draining none) :
    Valid state.iterate lists := by
  obtain ⟨sockets, active, commands, once⟩ := valid.at draining
  rcases valid.queue.take_cases with
    ⟨idle, nothing⟩ | ⟨cmd, after, removed, kept, shape, size, watcher⟩
  · simp only [State.iterate, nothing]
    exact ⟨sockets, active, by simp, valid.queue, valid.qSize, commands, once, by simp⟩
  · simp only [State.iterate, removed]
    rw [shape] at commands once
    exact ⟨sockets, watcher ▸ active, by simp, kept, size.trans valid.qSize, commands, once,
      by simp⟩

theorem Valid.leave (valid : Valid state lists) (waiting : state.control = .waiting)
    (zero : state.thread.loop.activecnt = 0) : Valid { state with control := .left } lists := by
  obtain ⟨sockets, active, commands, once⟩ := valid.at waiting
  have counted := sockets.activecnt
  simp only [zero, State.held] at counted
  have ended : state.dieProcessed = true ∧ ∀ cb, lists cb = [] := by
    cases processed : state.dieProcessed
    · simp only [processed, Bool.false_eq_true, if_false] at counted
      omega
    · simp only [processed, if_true] at counted
      refine ⟨rfl, fun cb => List.eq_nil_of_length_eq_zero ?_⟩
      cases cb <;> omega
  exact {
    sockets := sockets
    watching := active
    created := by simp
    queue := valid.queue
    qSize := valid.qSize
    commands := commands
    dieOnce := once
    ended := fun _ => ended }

theorem Valid.stop (valid : Valid state lists) (left : state.control = .left) :
    Valid { state with thread := state.thread.stop, control := .stopped } lists := by
  obtain ⟨sockets, active, commands, once⟩ := valid.at left
  have ended := valid.ended (.inl left)
  rw [stop_eq active]
  refine {
    sockets := sockets.recount ?_
    watching := rfl
    created := by simp
    queue := valid.queue
    qSize := valid.qSize
    commands := commands.frame fun _ _ => rfl
    dieOnce := once
    ended := fun _ => ended }
  simp [State.held, ended.1, EvLoop.unref]

theorem Valid.command_die (valid : Valid state lists) {reads : Addr → FreedRead} {fuel : Nat}
    {thread : IoThread} (draining : state.control = .draining (some ⟨iotCmdIoThreadDie, none⟩))
    (done : state.thread.onIotCmd reads fuel ⟨iotCmdIoThreadDie, none⟩ = .ok thread) :
    ∃ left, Valid (state.handled ⟨iotCmdIoThreadDie, none⟩ thread) left ∧
      ((∀ cb, left cb = []) ↔ ∀ cb, ∀ addr ∈ (lists cb).dropLast, reads addr = .kept) := by
  obtain ⟨sockets, active, commands, once⟩ := valid.at draining
  obtain ⟨left, released, whole, kept, sameQueue⟩ := IoThread.onIotCmd_die sockets done
  simp only [Control.hand, Option.toList_some, List.singleton_append] at commands
  simp only [Control.hand, Option.toList_some, List.singleton_append, dies_die] at once
  have called := Bool.toNat_le state.dieCalled
  have unprocessed : state.dieProcessed = false := by
    cases processed : state.dieProcessed
    · rfl
    · simp only [processed, Bool.toNat_true] at once
      omega
  refine ⟨left, ?_, whole⟩
  refine {
    sockets := ?_
    watching := ?_
    created := by simp [State.handled]
    queue := ?_
    qSize := ?_
    commands := ?_
    dieOnce := ?_
    ended := by simp [State.handled] }
  · simpa [State.held, State.handled, unprocessed] using released
  · simpa [State.handled, sameQueue, Control.watching] using active
  · simpa [State.handled, sameQueue] using valid.queue
  · simpa [State.handled, sameQueue] using valid.qSize
  · simp only [State.inFlight, State.handled, sameQueue]
    refine commands.tail.frame fun addr member => ?_
    obtain ⟨_, idle⟩ := commands.tail.live member
    rw [kept addr (valid.sockets.fresh_of_idle idle)]
  · simp only [State.inFlight, State.handled, sameQueue, Control.hand, Option.toList_none,
      List.nil_append, beq_self_eq_true, Bool.or_true, Bool.toNat_true]
    omega

theorem Valid.command_handOver (valid : Valid state lists) {reads : Addr → FreedRead}
    {fuel : Nat} {thread : IoThread} {cb : SocketCallback} {addr : Addr}
    (draining : state.control = .draining (some ⟨IoThread.handOverCmd cb, some addr⟩))
    (idle : state.thread.Idle cb addr)
    (done : state.thread.onIotCmd reads fuel ⟨IoThread.handOverCmd cb, some addr⟩ = .ok thread) :
    Valid (state.handled ⟨IoThread.handOverCmd cb, some addr⟩ thread)
      (Function.update lists cb (addr :: lists cb)) := by
  obtain ⟨sockets, active, commands, once⟩ := valid.at draining
  obtain ⟨after, run, inserted, kept, sameQueue⟩ :=
    IoThread.onIotCmd_handOver sockets idle
  cases done.symm.trans run
  refine {
    sockets := ?_
    watching := ?_
    created := by simp [State.handled]
    queue := ?_
    qSize := ?_
    commands := ?_
    dieOnce := ?_
    ended := by simp [State.handled] }
  · simpa [State.held, State.handled] using inserted
  · simpa [State.handled, sameQueue, Control.watching] using active
  · simpa [State.handled, sameQueue] using valid.queue
  · simpa [State.handled, sameQueue] using valid.qSize
  · simp only [State.inFlight, State.handled, sameQueue]
    refine commands.tail.frame fun node member => ?_
    have distinct := commands.distinct
    simp only [Control.hand, Option.toList_some, List.singleton_append, List.filterMap_cons,
      List.nodup_cons] at distinct
    rw [kept node (ne_of_mem_of_not_mem member distinct.1)]
  · simp only [State.inFlight, State.handled, sameQueue, Control.hand, Option.toList_none,
      List.nil_append, handOverCmd_beq_die, Bool.or_false]
    simpa only [Control.hand, Option.toList_some, List.singleton_append, dies_handOver] using once

/-- Handling an event of a socket leaves the queue and the watchers of the objects
in flight as they are. -/
theorem Valid.onEvent (valid : Valid state lists) (waiting : state.control = .waiting)
    {thread : IoThread} {changed : SocketCallback → List Addr}
    (sockets : Lists state.held thread.toSocketHeap thread.list changed)
    (sameQueue : thread.cmdQ = state.thread.cmdQ)
    (kept : ∀ cb addr, state.thread.Idle cb addr →
      (thread.heap addr).map SockObj.watcher = (state.thread.heap addr).map SockObj.watcher) :
    Valid { state with thread := thread } changed := by
  refine {
    sockets := sockets
    watching := sameQueue ▸ valid.watching
    created := valid.created
    queue := sameQueue ▸ valid.queue
    qSize := sameQueue ▸ valid.qSize
    commands := ?_
    dieOnce := ?_
    ended := by simp [waiting] }
  · simp only [State.inFlight, sameQueue]
    refine valid.commands.frame fun addr member => ?_
    obtain ⟨cb, idle⟩ := valid.commands.live member
    exact kept cb addr idle
  · simpa only [State.inFlight, sameQueue] using valid.dieOnce

theorem Valid.accept (valid : Valid state lists) (waiting : state.control = .waiting)
    {sockobj addr : Addr} {app : Bool} {revents : EvEvents} {accepted : IoThread.Accepted}
    {thread : IoThread} (free : state.thread.heap addr = none)
    (done : state.thread.onIoThreadAccept app sockobj revents accepted addr = .ok thread) :
    ∃ changed, Valid { state with thread := thread } changed := by
  obtain ⟨⟨changed, sockets⟩, kept, sameQueue⟩ := IoThread.onIoThreadAccept_lists valid.sockets
    free done
  refine ⟨changed, valid.onEvent waiting sockets sameQueue ?_⟩
  intro cb node idle
  obtain ⟨other, found, _⟩ := idle
  have differs : node ≠ addr := by
    intro same
    subst same
    cases found.symm.trans free
  rw [kept node differs]

theorem Valid.readwrite (valid : Valid state lists) (waiting : state.control = .waiting)
    {sockobj : Addr} {fuel : Nat} {revents : EvEvents} {size : Int} {thread : IoThread}
    (watched : state.thread.Watched .onIoThreadReadwrite sockobj)
    (done : state.thread.onIoThreadReadwrite layout fuel sockobj revents size = .ok thread) :
    ∃ changed, Valid { state with thread := thread } changed := by
  have member := (valid.sockets.watched _ _).mp watched
  obtain ⟨⟨changed, sockets⟩, kept, sameQueue⟩ :=
    IoThread.onIoThreadReadwrite_lists valid.sockets member done
  refine ⟨changed, valid.onEvent waiting sockets sameQueue ?_⟩
  intro cb node idle
  apply kept
  intro same
  subst same
  exact idle.not_watched watched

theorem fresh_valid (layout : IoBufferLayout) (cells : Nat → Cmd (Option Addr)) (block : Nat)
    (memory : Nat → Nat) : Valid (.fresh layout cells block memory) fun _ => [] where
  sockets := {
    chain cb := by cases cb <;> rfl
    watched cb addr := by simp [SocketHeap.Watched, State.fresh, IoThread.ctor]
    activecnt := rfl }
  watching := rfl
  created _ := rfl
  queue := WatcherCmdQ.new_wellFormed (by decide) cells
  qSize := rfl
  commands := ⟨by simp [State.inFlight, State.fresh, IoThread.ctor, Control.hand],
    by simp [State.inFlight, State.fresh, IoThread.ctor, Control.hand]⟩
  dieOnce := by simp [State.inFlight, State.fresh, IoThread.ctor, Control.hand, dies]
  ended := by simp [State.fresh]

theorem Valid.step (valid : Valid state lists) {label : Label} {next : State}
    (taken : Step layout state label next) : ∃ changed, Valid next changed := by
  cases taken with
  | die once => exact ⟨lists, valid.die once⟩
  | listen free => exact ⟨lists, valid.handOver .onIoThreadAccept free rfl rfl⟩
  | connect free => exact ⟨lists, valid.handOver .onIoThreadReadwrite free rfl rfl⟩
  | sendDie | send => exact ⟨lists, valid.sockets, valid.watching, valid.created, valid.queue,
      valid.qSize, valid.commands, valid.dieOnce, valid.ended⟩
  | start created => exact ⟨lists, valid.start created⟩
  | wake waiting => exact ⟨lists, valid.wake waiting⟩
  | iterate draining => exact ⟨lists, valid.iterate draining⟩
  | @command cmd reads fuel thread draining done =>
      obtain ⟨_, _, commands, _⟩ := valid.at draining
      rcases commands.deliverable cmd (by simp [Control.hand]) with rfl | ⟨cb, addr, rfl, idle⟩
      · obtain ⟨left, kept, _⟩ := valid.command_die draining done
        exact ⟨left, kept⟩
      · exact ⟨_, valid.command_handOver draining idle done⟩
  | accept waiting _ free done => exact valid.accept waiting free done
  | readwrite waiting watched done => exact valid.readwrite waiting watched done
  | leave waiting zero => exact ⟨lists, valid.leave waiting zero⟩
  | stop left => exact ⟨lists, valid.stop left⟩

theorem valid (reachable : (system layout).Reachable state) : ∃ lists, Valid state lists := by
  refine reachable.invariant (fun state => ∃ lists, Valid state lists) ?_ ?_
  · intro state starts
    obtain ⟨cells, block, memory, rfl⟩ := starts
    exact ⟨_, fresh_valid layout cells block memory⟩
  · intro state label next before taken
    obtain ⟨lists, valid⟩ := before
    exact valid.step taken

theorem Valid.dieCalled (valid : Valid state lists) (dead : state.dieProcessed = true) :
    state.dieCalled = true := by
  have once := valid.dieOnce
  cases called : state.dieCalled
  · simp only [dead, called, Bool.toNat_true, Bool.toNat_false] at once
    omega
  · rfl

theorem dieCalled_step {label : Label} {next : State} (taken : Step layout state label next)
    (other : label ≠ .die) : next.dieCalled = state.dieCalled := by
  cases taken with
  | die => exact absurd rfl other
  | iterate =>
      unfold State.iterate
      split <;> rfl
  | _ => rfl

theorem stopped_step {label : Label} {next : State} (taken : Step layout state label next)
    (stopped : state.control = .stopped) : next.control = .stopped := by
  cases taken with
  | start position | wake position | iterate position | command position | accept position
  | readwrite position | leave position | stop position =>
      cases stopped.symm.trans position
  | _ => exact stopped

/-- The command to die, as often as it is in flight or has been handled. -/
def State.dieCount (state : State) : Nat :=
  dies state.inFlight + state.dieProcessed.toNat

theorem dieCount_handOver (valid : Valid state lists) (cb : SocketCallback) {addr : Addr}
    {sockobj : SockObj} :
    (state.handOver (IoThread.handOverCmd cb) addr sockobj).dieCount = state.dieCount := by
  unfold State.dieCount
  rcases valid.handOver_inFlight cb addr sockobj with same | appended
  · rw [same]
    rfl
  · rw [appended, dies_append, dies_handOver, dies_nil]
    rfl

theorem dieCount_command (valid : Valid state lists) {cmd : Cmd (Option Addr)}
    {reads : Addr → FreedRead} {fuel : Nat} {thread : IoThread}
    (draining : state.control = .draining (some cmd))
    (done : state.thread.onIotCmd reads fuel cmd = .ok thread) :
    (state.handled cmd thread).dieCount = state.dieCount := by
  obtain ⟨sockets, _, commands, once⟩ := valid.at draining
  have called := Bool.toNat_le state.dieCalled
  simp only [State.dieCount, State.inFlight, State.handled, draining, Control.hand,
    Option.toList_some, Option.toList_none, List.nil_append,
      List.singleton_append] at commands once ⊢
  rcases commands.deliverable cmd (by simp) with rfl | ⟨cb, addr, rfl, idle⟩
  · obtain ⟨_, _, _, _, sameQueue⟩ := IoThread.onIotCmd_die sockets done
    rw [dies_die] at once ⊢
    rw [sameQueue]
    cases processed : state.dieProcessed
    · simp
    · rw [processed, Bool.toNat_true] at once
      omega
  · obtain ⟨after, run, _, _, sameQueue⟩ :=
      IoThread.onIotCmd_handOver sockets idle
    cases done.symm.trans run
    rw [dies_handOver, sameQueue, handOverCmd_beq_die, Bool.or_false]

/-- The command to die is neither lost nor doubled once it is in the queue. -/
theorem dieCount_step (valid : Valid state lists) {label : Label} {next : State}
    (taken : Step layout state label next) (other : label ≠ .die) :
    next.dieCount = state.dieCount := by
  cases taken with
  | die => exact absurd rfl other
  | listen => exact dieCount_handOver valid .onIoThreadAccept
  | connect => exact dieCount_handOver valid .onIoThreadReadwrite
  | sendDie | send => rfl
  | start position | wake position | leave position | stop position =>
      simp only [State.dieCount, State.inFlight, position]
      rfl
  | iterate draining =>
      rcases valid.queue.take_cases with ⟨_, nothing⟩ | ⟨cmd, after, removed, _, shape, _⟩
      · simp [State.dieCount, State.inFlight, State.iterate, draining, nothing, Control.hand]
      · simp [State.dieCount, State.inFlight, State.iterate, draining, removed, shape, Control.hand]
  | command draining done => exact dieCount_command valid draining done
  | accept _ _ free done =>
      obtain ⟨_, _, sameQueue⟩ := IoThread.onIoThreadAccept_lists valid.sockets free done
      simp only [State.dieCount, State.inFlight, sameQueue]
  | readwrite _ watched done =>
      obtain ⟨_, _, sameQueue⟩ := IoThread.onIoThreadReadwrite_lists valid.sockets
        ((valid.sockets.watched _ _).mp watched) done
      simp only [State.dieCount, State.inFlight, sameQueue]

end Striga.Greenev.IoThreadTraffic
