import Striga.Greenev.ApplicationRun

/-! When greenev cannot exit any more. A listening socket is closed only while
`IO_THREAD_DIE` is handled, and the command is put only once: neither a socket
that is taken over behind it nor a refusal of the command can be made good. -/

set_option autoImplicit false

namespace Striga.Greenev

theorem SocketHeap.Watched.frame {this after : SocketHeap} {cb : SocketCallback} {addr : Addr}
    (watched : this.Watched cb addr)
    (same : (after.heap addr).map SockObj.watcher = (this.heap addr).map SockObj.watcher) :
    after.Watched cb addr := by
  obtain ⟨sockobj, found, active, kind⟩ := watched
  rw [found] at same
  obtain ⟨sockobj', found', watcher⟩ := Option.map_eq_some_iff.mp same
  exact ⟨sockobj', found', watcher ▸ active, watcher ▸ kind⟩

theorem SocketHeap.Watched.ne_of_free {this : SocketHeap} {cb : SocketCallback} {addr free : Addr}
    (watched : this.Watched cb addr) (unused : this.heap free = none) : addr ≠ free := by
  intro same
  subst same
  obtain ⟨sockobj, found, _⟩ := watched
  cases found.symm.trans unused

namespace IoThreadTraffic

open Lib

def Listens (flight : List (Cmd (Option Addr))) : Prop :=
  ∃ addr, ⟨iotCmdIoThreadListen, some addr⟩ ∈ flight

/-- What keeps the loop of the IO thread running for ever: the command to die
was refused, it has a command to listen behind it, the dead thread is draining
its queue and will come upon such a command, or it watches a listening socket. -/
inductive Undying (state : State) : Prop where
  | refused :
      state.dieCalled = true →
      state.dieCount = 0 →
      Undying state
  | behind {before after} :
      state.inFlight = before ++ ⟨iotCmdIoThreadDie, none⟩ :: after →
      Listens after →
      Undying state
  | drained {hand} :
      state.dieProcessed = true →
      state.control = .draining hand →
      Listens state.inFlight →
      Undying state
  | watched {addr} :
      state.dieProcessed = true →
      state.thread.Watched .onIoThreadAccept addr →
      Undying state

variable {layout : IoBufferLayout} {state next : State} {lists : SocketCallback → List Addr}

theorem dies_behind (before after : List (Cmd (Option Addr))) :
    dies (before ++ ⟨iotCmdIoThreadDie, none⟩ :: after) = dies before + dies after + 1 := by
  rw [dies_append, dies_die, Nat.add_assoc]

theorem Undying.dieCalled (undying : Undying state) (valid : Valid state lists) :
    state.dieCalled = true := by
  cases undying with
  | refused called => exact called
  | behind flight =>
      have once := valid.dieOnce
      rw [flight, dies_behind] at once
      cases called : state.dieCalled
      · rw [called, Bool.toNat_false] at once
        omega
      · rfl
  | drained dead | watched dead => exact valid.dieCalled dead

/-- The loop of such a thread has not ended. -/
theorem Undying.running (undying : Undying state) (valid : Valid state lists) :
    state.control ≠ .left ∧ state.control ≠ .stopped := by
  rw [← not_or]
  intro past
  obtain ⟨dead, empty⟩ := valid.ended past
  cases undying with
  | refused _ none =>
      simp [State.dieCount, dead] at none
  | behind flight =>
      have once := valid.dieOnce
      have called := Bool.toNat_le state.dieCalled
      rw [flight, dies_behind, dead, Bool.toNat_true] at once
      omega
  | drained _ draining =>
      rcases past with position | position <;> cases draining.symm.trans position
  | watched _ watched =>
      have member := (valid.sockets.watched _ _).mp watched
      simp [empty] at member

/-- A step that only adds to the commands in flight, that neither stops nor
closes a listening socket and that ends no draining. -/
theorem Undying.kept (undying : Undying state)
    (flight : ∃ added, next.inFlight = state.inFlight ++ added)
    (called : next.dieCalled = state.dieCalled)
    (processed : next.dieProcessed = state.dieProcessed)
    (count : next.dieCount = state.dieCount)
    (draining : ∀ hand, state.control = .draining hand → Listens state.inFlight →
      ∃ hand, next.control = .draining hand)
    (watched : ∀ addr, state.thread.Watched .onIoThreadAccept addr →
      next.thread.Watched .onIoThreadAccept addr) : Undying next := by
  obtain ⟨added, flight⟩ := flight
  cases undying with
  | refused before none => exact .refused (called.trans before) (count.trans none)
  | @behind before after whole listens =>
      obtain ⟨addr, member⟩ := listens
      refine @Undying.behind next before (after ++ added) ?_ ⟨addr, List.mem_append_left _ member⟩
      rw [flight, whole, List.append_assoc, List.cons_append]
  | drained dead position listens =>
      obtain ⟨hand, still⟩ := draining _ position listens
      obtain ⟨addr, member⟩ := listens
      exact .drained (processed.trans dead) still ⟨addr, flight ▸ List.mem_append_left _ member⟩
  | watched dead watches => exact .watched (processed.trans dead) (watched _ watches)

/-- Unless it carries out a command, a step takes nothing from the commands in
flight, stops no listening socket, and adds a command to connect only in
`io_thread_connect`. -/
theorem step_keeps (valid : Valid state lists) {label : Label}
    (taken : Step layout state label next)
    (other : ∀ cmd reads, label ≠ .command cmd reads) :
    (∃ added, next.inFlight = state.inFlight ++ added ∧
        ∀ cmd ∈ added, cmd.id = iotCmdIoThreadEstablish → ∃ addr, label = .connect addr) ∧
      ∀ addr, state.thread.Watched .onIoThreadAccept addr →
        next.thread.Watched .onIoThreadAccept addr := by
  have unadded : ∀ cmd ∈ ([] : List (Cmd (Option Addr))), cmd.id = iotCmdIoThreadEstablish →
      ∃ addr, label = .connect addr := fun _ member => nomatch member
  have handOver (cb : SocketCallback) {addr : Addr} {sockobj : SockObj}
      (free : state.thread.heap addr = none) :
      ((state.handOver (IoThread.handOverCmd cb) addr sockobj).inFlight =
          state.inFlight ++ [] ∨
        (state.handOver (IoThread.handOverCmd cb) addr sockobj).inFlight =
          state.inFlight ++ [⟨IoThread.handOverCmd cb, some addr⟩]) ∧
        ∀ node, state.thread.Watched .onIoThreadAccept node →
          (state.handOver (IoThread.handOverCmd cb) addr sockobj).thread.Watched
            .onIoThreadAccept node := by
    constructor
    · rw [List.append_nil]
      exact valid.handOver_inFlight cb addr sockobj
    · intro node watched
      exact watched.frame (congrArg _ (Function.update_of_ne (watched.ne_of_free free) _ _))
  cases taken with
  | die =>
      obtain ⟨_, pending⟩ := valid.queue.enqueue_pending ⟨iotCmdIoThreadDie, none⟩
      refine ⟨?_, fun _ watched => watched⟩
      rcases pending with same | appended
      · exact ⟨[], by simp [State.inFlight, State.die, IoThread.die, same], unadded⟩
      · refine ⟨[⟨iotCmdIoThreadDie, none⟩], by
          simp [State.inFlight, State.die, IoThread.die, appended], fun cmd member connects => ?_⟩
        rw [List.mem_singleton.mp member] at connects
        cases connects
  | @listen addr _ _ _ _ _ free =>
      obtain ⟨flight, watched⟩ := handOver .onIoThreadAccept free
      refine ⟨?_, watched⟩
      rcases flight with same | appended
      · exact ⟨[], same, unadded⟩
      · refine ⟨_, appended, fun cmd member connects => ?_⟩
        rw [List.mem_singleton.mp member] at connects
        cases connects
  | connect free =>
      obtain ⟨flight, watched⟩ := handOver .onIoThreadReadwrite free
      refine ⟨?_, watched⟩
      rcases flight with same | appended
      · exact ⟨[], same, unadded⟩
      · exact ⟨_, appended, fun _ _ _ => ⟨_, rfl⟩⟩
  | sendDie | send => exact ⟨⟨[], (List.append_nil _).symm, unadded⟩, fun _ watched => watched⟩
  | start position | wake position | leave position | stop position =>
      refine ⟨⟨[], ?_, unadded⟩, fun _ watched => watched⟩
      simp only [State.inFlight, position, List.append_nil]
      rfl
  | iterate draining =>
      rcases valid.queue.take_cases with ⟨_, nothing⟩ | ⟨cmd, after, removed, _, shape, _⟩
      · simp only [State.iterate, nothing]
        exact ⟨⟨[], by simp [State.inFlight, draining, Control.hand], unadded⟩,
          fun _ watched => watched⟩
      · simp only [State.iterate, removed]
        exact ⟨⟨[], by simp [State.inFlight, draining, Control.hand, shape], unadded⟩,
          fun _ watched => watched⟩
  | command => exact absurd rfl (other _ _)
  | accept _ _ free done =>
      obtain ⟨_, others, sameQueue⟩ := IoThread.onIoThreadAccept_lists valid.sockets free done
      refine ⟨⟨[], by simp [State.inFlight, sameQueue], unadded⟩, fun node watched => ?_⟩
      exact watched.frame (congrArg _ (others node (watched.ne_of_free free)))
  | readwrite _ watched done =>
      obtain ⟨_, others, sameQueue⟩ := IoThread.onIoThreadReadwrite_lists valid.sockets
        ((valid.sockets.watched _ _).mp watched) done
      refine ⟨⟨[], by simp [State.inFlight, sameQueue], unadded⟩, fun node watches => ?_⟩
      refine watches.frame (others node ?_)
      intro same
      subst same
      cases watches.kind watched

/-- Such a step ends the draining only once nothing is in flight. -/
private theorem draining_step (valid : Valid state lists) {label : Label}
    (taken : Step layout state label next) {hand : Option (Cmd (Option Addr))}
    (draining : state.control = .draining hand) (pending : state.inFlight ≠ []) :
    ∃ hand, next.control = .draining hand := by
  cases taken with
  | start position | wake position | accept position | readwrite position | leave position
  | stop position => cases draining.symm.trans position
  | iterate position =>
      rcases valid.queue.take_cases with ⟨empty, _⟩ | ⟨cmd, after, removed, _⟩
      · exact absurd (by simp [State.inFlight, position, Control.hand, empty]) pending
      · simp only [State.iterate, removed]
        exact ⟨_, rfl⟩
  | command => exact ⟨none, rfl⟩
  | die | sendDie | listen | connect | send => exact ⟨hand, draining⟩

theorem dieProcessed_step {label : Label} (taken : Step layout state label next)
    (other : ∀ cmd reads, label ≠ .command cmd reads) : next.dieProcessed = state.dieProcessed := by
  cases taken with
  | command => exact absurd rfl (other _ _)
  | iterate =>
      unfold State.iterate
      split <;> rfl
  | _ => rfl

theorem Undying.command_die (undying : Undying state) (valid : Valid state lists)
    {thread : IoThread} (draining : state.control = .draining (some ⟨iotCmdIoThreadDie, none⟩))
    (sameQueue : thread.cmdQ = state.thread.cmdQ) :
    Undying (state.handled ⟨iotCmdIoThreadDie, none⟩ thread) := by
  have flight : state.inFlight = ⟨iotCmdIoThreadDie, none⟩ :: state.thread.cmdQ.pending := by
    simp [State.inFlight, draining, Control.hand]
  have once := valid.dieOnce
  have called := Bool.toNat_le state.dieCalled
  rw [flight, dies_die] at once
  have alive : state.dieProcessed ≠ true := by
    intro dead
    rw [dead, Bool.toNat_true] at once
    omega
  cases undying with
  | refused _ none =>
      rw [State.dieCount, flight, dies_die] at none
      omega
  | @behind before after whole listens =>
      have first : before = [] := by
        cases before with
        | nil => rfl
        | cons cmd rest =>
            have shape := flight.symm.trans whole
            rw [List.cons_append, List.cons.injEq] at shape
            rw [shape.2, dies_behind] at once
            omega
      rw [flight, first, List.nil_append, List.cons.injEq] at whole
      obtain ⟨addr, member⟩ := listens
      refine .drained (by simp [State.handled]) rfl ⟨addr, ?_⟩
      simpa [State.inFlight, State.handled, Control.hand, sameQueue, whole.2] using member
  | drained dead | watched dead => exact absurd dead alive

/-- The listening object that the thread takes over is watched from then on, and
those it watched before still are. -/
theorem Undying.command_handOver (undying : Undying state) (valid : Valid state lists)
    {reads : Addr → FreedRead} {fuel : Nat} {thread : IoThread} {cb : SocketCallback} {addr : Addr}
    (draining : state.control = .draining (some ⟨IoThread.handOverCmd cb, some addr⟩))
    (idle : state.thread.Idle cb addr)
    (done : state.thread.onIotCmd reads fuel ⟨IoThread.handOverCmd cb, some addr⟩ = .ok thread) :
    Undying (state.handled ⟨IoThread.handOverCmd cb, some addr⟩ thread) := by
  have count := dieCount_command valid draining done
  obtain ⟨sockets, _⟩ := valid.at draining
  obtain ⟨after, run, inserted, others, sameQueue⟩ :=
    @IoThread.onIotCmd_handOver _ _ _ _ _ sockets reads fuel idle
  cases done.symm.trans run
  have flight : state.inFlight =
      ⟨IoThread.handOverCmd cb, some addr⟩ ::
        (state.handled ⟨IoThread.handOverCmd cb, some addr⟩ thread).inFlight := by
    simp [State.inFlight, State.handled, draining, Control.hand, sameQueue]
  have processed : (state.handled ⟨IoThread.handOverCmd cb, some addr⟩ thread).dieProcessed =
      state.dieProcessed := by
    simp [State.handled]
  cases undying with
  | refused called none => exact .refused called (count.trans none)
  | @behind before later whole listens =>
      cases before with
      | nil =>
          rw [flight, List.nil_append, List.cons.injEq, Cmd.mk.injEq] at whole
          exact absurd whole.1.1 (handOverCmd_ne_die cb)
      | cons cmd rest =>
          rw [flight, List.cons_append, List.cons.injEq] at whole
          exact .behind whole.2 listens
  | drained dead _ listens =>
      obtain ⟨other, member⟩ := listens
      rw [flight] at member
      rcases List.mem_cons.mp member with first | later
      · refine .watched (processed.trans dead) ((inserted.watched .onIoThreadAccept addr).mpr ?_)
        rw [Cmd.mk.injEq] at first
        cases cb with
        | onIoThreadAccept => simp
        | onIoThreadReadwrite => cases first.1
      · exact .drained (processed.trans dead) rfl ⟨other, later⟩
  | @watched other dead watched =>
      have differs : other ≠ addr := by
        intro same
        subst same
        exact idle.not_watched watched
      exact .watched (processed.trans dead) (watched.frame (congrArg _ (others other differs)))

theorem Undying.step (undying : Undying state) (valid : Valid state lists) {label : Label}
    (taken : Step layout state label next) : Undying next := by
  have called := undying.dieCalled valid
  have once : label ≠ .die := by
    intro same
    subst same
    cases taken with
    | die alive => cases called.symm.trans alive
  by_cases handles : ∃ cmd reads, label = .command cmd reads
  · obtain ⟨cmd, reads, rfl⟩ := handles
    cases taken with
    | command draining done =>
        obtain ⟨sockets, _, commands, _⟩ := valid.at draining
        rcases commands.deliverable cmd (by simp [Control.hand]) with rfl | ⟨cb, addr, rfl, idle⟩
        · obtain ⟨_, _, _, _, sameQueue⟩ := IoThread.onIotCmd_die sockets done
          exact undying.command_die valid draining sameQueue
        · exact undying.command_handOver valid draining idle done
  · have other : ∀ cmd reads, label ≠ .command cmd reads :=
      fun cmd reads same => handles ⟨cmd, reads, same⟩
    obtain ⟨⟨added, flight, _⟩, watched⟩ := step_keeps valid taken other
    refine undying.kept ⟨added, flight⟩ (dieCalled_step taken once) (dieProcessed_step taken other)
      (dieCount_step valid taken once) ?_ watched
    intro hand draining listens
    refine draining_step valid taken draining fun empty => ?_
    obtain ⟨addr, member⟩ := listens
    rw [empty] at member
    cases member

end IoThreadTraffic

namespace ApplicationRun

open Lib

variable {layout : IoBufferLayout} {state next : State}

theorem undying_step (undying : IoThreadTraffic.Undying state.io) (valid : Valid layout state)
    {label : Label} (taken : Step layout state label next) : IoThreadTraffic.Undying next.io := by
  obtain ⟨lists, inner⟩ := IoThreadTraffic.valid valid.io
  rcases io_moves valid taken with same | ⟨move, moved, _⟩
  · rw [same]
    exact undying
  · exact undying.step inner moved

/-- Still in its loop, deaf to the signals, and waiting for a thread that has not
reported its exit. -/
structure Hangs (state : State) : Prop where
  inLoop : state.main.inLoop = true
  deaf : ∀ signal, (state.app.watcher signal).active = false
  unprocessed : state.processed .ioThread = false
  alive : state.phase .ioThread = .running

theorem Valid.hangs (valid : Valid layout state) (undying : IoThreadTraffic.Undying state.io) :
    Hangs state := by
  obtain ⟨lists, inner⟩ := IoThreadTraffic.valid valid.io
  have called := undying.dieCalled inner
  have alive : state.phase .ioThread = .running := by
    by_contra exiting
    exact (undying.running inner).2 (valid.stopped exiting)
  have unprocessed : state.processed .ioThread = false := by
    have counts := valid.counts .ioThread
    rw [if_pos alive] at counts
    cases processed : state.processed .ioThread
    · rfl
    · rw [processed, Bool.toNat_true] at counts
      omega
  refine ⟨?_, fun signal => (valid.armed signal).trans (by simp [called]), unprocessed, alive⟩
  cases place : state.main with
  | waiting | draining | dying => rfl
  | constructed => cases called.symm.trans (valid.constructed place)
  | aborted => exact absurd place valid.notAborted
  | returned => cases unprocessed.symm.trans ((valid.ended (.inl place)).2 .ioThread)
  | joined => cases unprocessed.symm.trans ((valid.ended (.inr (.inl place))).2 .ioThread)
  | deleted => cases unprocessed.symm.trans ((valid.ended (.inr (.inr place))).2 .ioThread)

/-- Once its IO thread cannot die, greenev never exits. -/
theorem hangs_of_undying (layout : IoBufferLayout) (state last : State)
    (reachable : (system layout).Reachable state) (undying : IoThreadTraffic.Undying state.io)
    (leads : (system layout).Leads state last) : Hangs last := by
  have kept : Valid layout last ∧ IoThreadTraffic.Undying last.io := by
    refine leads.invariant (fun state => Valid layout state ∧ IoThreadTraffic.Undying state.io)
      ⟨valid reachable, undying⟩ ?_
    intro state label next before taken
    exact ⟨before.1.step taken, undying_step before.2 before.1 taken⟩
  exact kept.1.hangs kept.2

/-- A socket to listen on that is handed over right behind the command to die. -/
theorem hangs_of_undying_listen :
    ∃ state, (system .lp64).Reachable state ∧
      ∀ last, (system .lp64).Leads state last → Hangs last := by
  have fresh : (system .lp64).Reachable
      (.fresh .lp64 (fun _ => ⟨0, .ioThread⟩) (fun _ => ⟨0, none⟩) 0 fun _ => 0) :=
    .start ⟨_, _, _, _, rfl⟩
  have running := fresh.step (.run rfl)
  have delivered := running.step (@Step.deliver .lp64 _ .sigint)
  have dying := delivered.step (@Step.terminate .lp64 _ .sigint rfl rfl rfl)
  have listening := dying.step (@Step.io .lp64 _ _ _
    (@IoThreadTraffic.Step.listen .lp64 _ 0 3 2 1 6 [] rfl) (by simp) (by simp))
  refine ⟨_, listening, fun last leads => hangs_of_undying _ _ _ listening ?_ leads⟩
  exact @IoThreadTraffic.Undying.behind _ [] _ rfl ⟨0, List.mem_singleton.mpr rfl⟩

end ApplicationRun

end Striga.Greenev
