import Striga.Greenev.ApplicationHang
import Striga.Greenev.IoThreadTeardown
import Striga.Lib.Possibility

/-! Orderly runs of the IO thread, and how it comes to its end in them. The handler
of `IO_THREAD_DIE` reads every object once more after it has freed it, so that a run
is in order only where it finds none. Established sockets come with a listening one,
which nothing else closes: the thread is to be told to die before any is there. -/

set_option autoImplicit false

namespace Striga.Greenev.IoThreadTraffic

open Lib

variable {layout : IoBufferLayout} {state next : State} {lists : SocketCallback → List Addr}

/-- `IO_THREAD_DIE` is handled with no socket listed, and `io_thread_connect`, which
no function calls, is not called. -/
def Orderly (state : State) : Label → Prop
  | .command cmd _ => cmd.id = iotCmdIoThreadDie →
      state.thread.listening = none ∧ state.thread.established = none
  | .connect _ => False
  | _ => True

def orderly (layout : IoBufferLayout) : System State Label :=
  (system layout).restrict fun state label _ => Orderly state label

/-- A listening socket is watched or on its way. -/
def State.Heard (state : State) : Prop :=
  (∃ addr, state.thread.Watched .onIoThreadAccept addr) ∨ Listens state.inFlight

/-- What is in flight makes the thread die or listen, and there is no established
socket without a listening one. -/
structure Plain (state : State) : Prop where
  unconnected : ∀ cmd ∈ state.inFlight, cmd.id ≠ iotCmdIoThreadEstablish
  accepted : (∀ addr, ¬ state.thread.Watched .onIoThreadAccept addr) →
    ∀ addr, ¬ state.thread.Watched .onIoThreadReadwrite addr

theorem Plain.unlisted (plain : Plain state) (valid : Valid state lists)
    (unheard : ∀ addr, ¬ state.thread.Watched .onIoThreadAccept addr) (cb : SocketCallback) :
    lists cb = [] := by
  refine List.eq_nil_iff_forall_not_mem.mpr fun addr member => ?_
  have watched := (valid.sockets.watched cb addr).mpr member
  cases cb with
  | onIoThreadAccept => exact unheard addr watched
  | onIoThreadReadwrite => exact plain.accepted unheard addr watched

theorem Valid.unlisted (valid : Valid state lists)
    (none : state.thread.listening = none ∧ state.thread.established = none)
    (cb : SocketCallback) : lists cb = [] := by
  have chain := valid.sockets.chain cb
  cases shape : lists cb with
  | nil => rfl
  | cons addr rest =>
      rw [shape] at chain
      obtain ⟨head, _⟩ := chain
      cases cb with
      | onIoThreadAccept => cases none.1.symm.trans head
      | onIoThreadReadwrite => cases none.2.symm.trans head

theorem Valid.unwatched (valid : Valid state lists) (empty : ∀ cb, lists cb = [])
    (cb : SocketCallback) (addr : Addr) : ¬ state.thread.Watched cb addr := by
  intro watched
  have member := (valid.sockets.watched cb addr).mp watched
  rw [empty] at member
  cases member

theorem Plain.command (plain : Plain state) (valid : Valid state lists)
    {cmd : Cmd (Option Addr)} {reads : Addr → FreedRead} {fuel : Nat} {thread : IoThread}
    (draining : state.control = .draining (some cmd))
    (done : state.thread.onIotCmd reads fuel cmd = .ok thread)
    (orderly : Orderly state (.command cmd reads)) : Plain (state.handled cmd thread) := by
  obtain ⟨sockets, _, commands, _⟩ := valid.at draining
  have first : cmd ∈ state.inFlight := by simp [State.inFlight, draining, Control.hand]
  have rest : ∀ other ∈ state.thread.cmdQ.pending, other ∈ state.inFlight :=
    fun other member => List.mem_append_right _ member
  rcases commands.deliverable cmd (by simp [Control.hand]) with rfl | ⟨cb, addr, rfl, idle⟩
  · obtain ⟨_, _, _, _, sameQueue⟩ := IoThread.onIotCmd_die sockets done
    obtain ⟨left, after, empty⟩ := valid.command_die draining done
    have unlisted := valid.unlisted (orderly rfl)
    have gone := empty.mpr fun cb addr member => by
      rw [unlisted] at member
      cases member
    refine ⟨fun cmd member => plain.unconnected cmd (rest cmd ?_),
      fun _ addr => after.unwatched gone _ addr⟩
    simpa [State.inFlight, State.handled, Control.hand, sameQueue] using member
  · obtain ⟨thread', run, _, _, sameQueue⟩ :=
      @IoThread.onIotCmd_handOver _ _ _ _ _ sockets reads fuel idle
    cases done.symm.trans run
    have after := valid.command_handOver draining idle run
    constructor
    · intro cmd member
      refine plain.unconnected cmd (rest cmd ?_)
      simpa [State.inFlight, State.handled, Control.hand, sameQueue] using member
    · intro unheard
      cases cb with
      | onIoThreadAccept =>
          exact absurd ((after.sockets.watched _ addr).mpr (by simp)) (unheard addr)
      | onIoThreadReadwrite => exact absurd rfl (plain.unconnected _ first)

theorem Plain.step (plain : Plain state) (valid : Valid state lists) {label : Label}
    (taken : Step layout state label next) (orderly : Orderly state label) : Plain next := by
  by_cases handles : ∃ cmd reads, label = .command cmd reads
  · obtain ⟨cmd, reads, rfl⟩ := handles
    cases taken with
    | command draining done => exact plain.command valid draining done orderly
  · obtain ⟨⟨added, flight, connects⟩, watched⟩ := step_keeps valid taken
      fun cmd reads same => handles ⟨cmd, reads, same⟩
    refine ⟨?_, fun unheard => ?_⟩
    · rw [flight]
      intro cmd member established
      rcases List.mem_append.mp member with earlier | last
      · exact plain.unconnected cmd earlier established
      · obtain ⟨addr, rfl⟩ := connects cmd last established
        exact orderly
    · have before : ∀ addr, ¬ state.thread.Watched .onIoThreadAccept addr :=
        fun addr listening => unheard addr (watched addr listening)
      have empty := plain.unlisted valid before
      cases taken with
      | die once => exact (valid.die once).unwatched empty _
      | listen free => exact (valid.handOver .onIoThreadAccept free rfl rfl).unwatched empty _
      | start created => exact (valid.start created).unwatched empty _
      | wake waiting => exact (valid.wake waiting).unwatched empty _
      | iterate draining => exact (valid.iterate draining).unwatched empty _
      | leave waiting zero => exact (valid.leave waiting zero).unwatched empty _
      | stop left => exact (valid.stop left).unwatched empty _
      | sendDie | send => exact valid.unwatched empty _
      | connect => exact orderly.elim
      | command => exact absurd ⟨_, _, rfl⟩ handles
      | accept _ listening => exact absurd listening (before _)
      | readwrite _ established => exact absurd established (plain.accepted before _)

theorem plain (reachable : (orderly layout).Reachable state) : Plain state := by
  have kept : Plain state ∧ (system layout).Reachable state := by
    refine reachable.invariant (fun state => Plain state ∧ (system layout).Reachable state) ?_ ?_
    · intro state starts
      refine ⟨?_, .start starts⟩
      obtain ⟨cells, block, memory, rfl⟩ := starts
      exact ⟨fun cmd member => (nomatch member),
        fun _ => (fresh_valid layout cells block memory).unwatched (fun _ => rfl) _⟩
    · intro state label next before taken
      obtain ⟨lists, valid⟩ := valid before.2
      exact ⟨before.1.step valid taken.1 taken.2, before.2.step taken.1⟩
  exact kept.1

/-- Without a listening socket nothing but the command to die is in flight. -/
theorem Plain.dying (plain : Plain state) (valid : Valid state lists)
    (unheard : ¬ Listens state.inFlight) :
    ∀ cmd ∈ state.inFlight, cmd = ⟨iotCmdIoThreadDie, none⟩ := by
  intro cmd member
  rcases valid.commands.deliverable cmd member with die | ⟨cb, addr, rfl, _⟩
  · exact die
  · cases cb with
    | onIoThreadAccept => exact absurd ⟨addr, member⟩ unheard
    | onIoThreadReadwrite => exact absurd rfl (plain.unconnected _ member)

theorem dies_eq_length {flight : List (Cmd (Option Addr))}
    (dying : ∀ cmd ∈ flight, cmd = ⟨iotCmdIoThreadDie, none⟩) : dies flight = flight.length :=
  List.countP_eq_length.mpr fun cmd member => by rw [dying cmd member]; rfl

/-- What the main thread does to the IO thread. -/
def Label.outside : Label → Bool
  | .die | .sendDie => true
  | _ => false

/-- What goes on without it, in order. -/
def withoutDie (layout : IoBufferLayout) : System State Label :=
  (orderly layout).restrict fun _ label _ => label.outside = false

theorem Valid.leaves (valid : Valid state lists) (empty : ∀ cb, lists cb = [])
    (waiting : state.control = .waiting) (dead : state.dieProcessed = true) :
    (withoutDie layout).Can (fun last => last.control = .stopped) state := by
  have zero : state.thread.loop.activecnt = 0 := by
    have counted := valid.sockets.activecnt
    rw [empty, empty] at counted
    simpa [State.held, waiting, dead] using counted
  refine .step ⟨⟨.leave waiting zero, trivial⟩, rfl⟩ ?_
  exact .once ⟨⟨.stop rfl, trivial⟩, rfl⟩ rfl

theorem Valid.idles (valid : Valid state lists) {hand : Option (Cmd (Option Addr))}
    (draining : state.control = .draining hand) (flight : state.inFlight = []) :
    (withoutDie layout).step state .iterate { state with control := .waiting } ∧
      Valid { state with control := .waiting } lists ∧ state.thread.cmdQ.pending = [] := by
  simp only [State.inFlight, draining, Control.hand, List.append_eq_nil_iff] at flight
  obtain ⟨nothing, pending⟩ := flight
  cases hand with
  | some first => cases nothing
  | none =>
      rcases valid.queue.take_cases with ⟨_, none⟩ | ⟨_, _, _, _, shape, _⟩
      · have same : state.iterate = { state with control := .waiting } := by
          simp only [State.iterate, none]
        have after := valid.iterate draining
        rw [same] at after
        exact ⟨⟨⟨same ▸ .iterate draining, trivial⟩, rfl⟩, after, pending⟩
      · cases shape.symm.trans pending

/-- A draining thread comes to hold the command to die, where this is all there is. -/
theorem Valid.holds (valid : Valid state lists) {hand : Option (Cmd (Option Addr))}
    (draining : state.control = .draining hand)
    (flight : state.inFlight = [⟨iotCmdIoThreadDie, none⟩]) :
    (withoutDie layout).Can (fun next => Valid next lists ∧
      next.control = .draining (some ⟨iotCmdIoThreadDie, none⟩) ∧
      next.thread.cmdQ.pending = []) state := by
  have shape := flight
  simp only [State.inFlight, draining, Control.hand] at shape
  cases hand with
  | some first =>
      simp only [Option.toList_some, List.singleton_append, List.cons.injEq] at shape
      obtain ⟨rfl, pending⟩ := shape
      exact .now ⟨valid, draining, pending⟩
  | none =>
      rcases valid.queue.take_cases with ⟨empty, _⟩ | ⟨first, after, removed, _, queue, _⟩
      · cases empty.symm.trans shape
      · have kept := valid.iterate draining
        obtain ⟨rfl, pending⟩ : first = ⟨iotCmdIoThreadDie, none⟩ ∧ after.pending = [] :=
          List.cons.inj (queue.symm.trans shape)
        refine .once ⟨⟨.iterate draining, trivial⟩, rfl⟩ ⟨kept, ?_, ?_⟩
        · rw [State.iterate, removed]
        · rw [State.iterate, removed]
          exact pending

/-- With nothing to listen on, the command to die ends the thread. -/
theorem Valid.ends (valid : Valid state lists) (empty : ∀ cb, lists cb = [])
    {hand : Option (Cmd (Option Addr))} (draining : state.control = .draining hand)
    (flight : state.inFlight = [⟨iotCmdIoThreadDie, none⟩]) :
    (withoutDie layout).Can (fun last => last.control = .stopped) state := by
  refine (valid.holds draining flight).bind fun next reached => ?_
  obtain ⟨valid, draining, pending⟩ := reached
  have unlisted (cb : SocketCallback) : next.thread.list cb = none := by
    have chain := valid.sockets.chain cb
    rwa [empty] at chain
  obtain ⟨after, run, _⟩ := IoThread.onIotCmd_die_kept
    (empty .onIoThreadAccept ▸ valid.sockets.chain .onIoThreadAccept)
    (empty .onIoThreadReadwrite ▸ valid.sockets.chain .onIoThreadReadwrite)
    (fun _ member => absurd member List.not_mem_nil) (Nat.le_refl 0) (Nat.le_refl 0) none
  obtain ⟨_, _, _, _, sameQueue⟩ := IoThread.onIotCmd_die valid.sockets run
  obtain ⟨left, dead, gone⟩ := valid.command_die draining run
  have emptied : ∀ cb, left cb = [] := gone.mpr fun _ _ _ => rfl
  have flight : (next.handled ⟨iotCmdIoThreadDie, none⟩ after).inFlight = [] := by
    simp [State.inFlight, State.handled, Control.hand, sameQueue, pending]
  obtain ⟨taken, waits, _⟩ := @Valid.idles layout _ _ dead _ rfl flight
  have nobody : Orderly next (.command ⟨iotCmdIoThreadDie, none⟩ fun _ => .kept) :=
    fun _ => ⟨unlisted .onIoThreadAccept, unlisted .onIoThreadReadwrite⟩
  refine .step ⟨⟨.command draining run, nobody⟩, rfl⟩ (.step taken ?_)
  exact waits.leaves emptied rfl (by simp [State.handled])

theorem Valid.wakes (valid : Valid state lists) (waiting : state.control = .waiting)
    (undead : state.dieProcessed = false) (sent : state.thread.cmdQ.qWatcher.sent = true) :
    (withoutDie layout).step state .wake state.wake := by
  obtain ⟨_, active, _⟩ := valid.at waiting
  have counted := valid.sockets.activecnt
  simp only [State.held, waiting, undead, Bool.false_eq_true, if_false] at counted
  exact ⟨⟨.wake waiting (by omega) active sent, trivial⟩, rfl⟩

/-- A thread that will be woken for the command to die, and has nothing else to do,
ends. -/
theorem Valid.ends_of_sent (valid : Valid state lists) (empty : ∀ cb, lists cb = [])
    (waiting : state.control = .waiting) (undead : state.dieProcessed = false)
    (sent : state.thread.cmdQ.qWatcher.sent = true)
    (flight : state.inFlight = [⟨iotCmdIoThreadDie, none⟩]) :
    (withoutDie layout).Can (fun last => last.control = .stopped) state := by
  refine .step (valid.wakes waiting undead sent) ((valid.wake waiting).ends empty rfl ?_)
  rw [← flight, State.inFlight, State.inFlight, waiting]
  rfl

end Striga.Greenev.IoThreadTraffic
