import Striga.Greenev.IoThreadStopping

/-! When the IO thread can be brought to its end by a signal yet to come. The command
to die must find no listening socket, and it has to be taken: a queue that was full
when the thread started, with every wake-up sent before, takes none. -/

set_option autoImplicit false

namespace Striga.Greenev.IoThreadTraffic

open Lib

variable {layout : IoBufferLayout} {state next : State} {lists : SocketCallback → List Addr}

/-- The thread sleeps, and nobody is left to wake it. -/
structure Unwoken (state : State) : Prop where
  asleep : state.control = .created ∨
    state.control = .waiting ∧ state.thread.cmdQ.qWatcher.sent = false
  unsent : state.sending = 0

theorem Unwoken.unstopped (unwoken : Unwoken state) : state.control ≠ .stopped := by
  intro stopped
  rcases unwoken.asleep with created | ⟨waiting, _⟩
  · cases created.symm.trans stopped
  · cases waiting.symm.trans stopped

/-- Its queue is full at that. -/
structure Stuck (state : State) : Prop extends Unwoken state where
  full : state.thread.cmdQ.pending.length = state.thread.cmdQ.qSize.toNat - 1

/-- The thread waits for the command to die, with no socket watched or on its way. -/
structure Receptive (state : State) : Prop where
  valid : ∃ lists, Valid state lists ∧ ∀ cb, lists cb = []
  waiting : state.control = .waiting
  pending : state.thread.cmdQ.pending = []
  alive : state.dieCalled = false

theorem Valid.living (valid : Valid state lists) (alive : state.dieCalled = false) :
    dies state.inFlight = 0 ∧ state.dieProcessed = false := by
  have once := valid.dieOnce
  rw [alive, Bool.toNat_false] at once
  cases dead : state.dieProcessed with
  | false => exact ⟨by omega, rfl⟩
  | true =>
      rw [dead, Bool.toNat_true] at once
      omega

/-- A thread that was not told to die, and has no socket to listen on, has nothing to
do. -/
theorem receptive (reachable : (orderly layout).Reachable state)
    (alive : state.dieCalled = false) (unheard : ¬ state.Heard) :
    (withoutDie layout).Can Receptive state := by
  obtain ⟨lists, valid⟩ := valid reachable.of_restrict
  obtain ⟨living, undead⟩ := valid.living alive
  obtain ⟨unwatched, quiet⟩ := not_or.mp unheard
  have plain := plain reachable
  have empty := plain.unlisted valid (not_exists.mp unwatched)
  have flight : state.inFlight = [] := by
    rw [← List.length_eq_zero_iff, ← dies_eq_length (plain.dying valid quiet)]
    exact living
  cases position : state.control with
  | created =>
      refine .once ⟨⟨.start position, trivial⟩, rfl⟩
        ⟨⟨lists, valid.start position, empty⟩, rfl, ?_, alive⟩
      rw [start_eq (valid.watching.trans (by rw [position]; rfl))]
      exact (List.append_eq_nil_iff.mp flight).2
  | waiting =>
      have idle := (List.append_eq_nil_iff.mp flight).2
      exact .now ⟨⟨lists, valid, empty⟩, position, idle, alive⟩
  | draining hand =>
      obtain ⟨taken, after, pending⟩ := @Valid.idles layout _ _ valid _ position flight
      exact .once taken ⟨⟨lists, after, empty⟩, rfl, pending, alive⟩
  | left => cases undead.symm.trans (valid.ended (.inl position)).1
  | stopped => cases undead.symm.trans (valid.ended (.inr position)).1

/-- Such a thread takes the command to die, and ends. -/
theorem Receptive.ends (receptive : Receptive state) : state.die.dieSending = true ∧
    (withoutDie layout).Can (fun last => last.control = .stopped) state.die.sendDie := by
  obtain ⟨⟨lists, valid, empty⟩, waiting, pending, alive⟩ := receptive
  have room : state.thread.cmdQ.pending.length < state.thread.cmdQ.qSize.toNat - 1 := by
    rw [pending, valid.qSize]
    decide
  rcases valid.queue.enqueue_cases ⟨iotCmdIoThreadDie, none⟩ with
    ⟨full, _⟩ | ⟨_, after, accepted, _, appended, _⟩
  · omega
  have sending : state.die.dieSending = true := by rw [State.die, accepted]
  have dying := valid.die alive
  have sent : Valid state.die.sendDie lists := ⟨dying.sockets, dying.watching, dying.created,
    dying.queue, dying.qSize, dying.commands, dying.dieOnce, dying.ended⟩
  have active : state.die.thread.cmdQ.qWatcher.active = true :=
    dying.watching.trans (by rw [show state.die.control = .waiting from waiting]; rfl)
  refine ⟨sending, sent.ends_of_sent empty waiting (valid.living alive).2 ?_ ?_⟩
  · simp [State.sendDie, WatcherCmdQ.send, EvAsync.send, active]
  · simp only [State.inFlight, State.sendDie, State.die, IoThread.die, waiting, accepted]
    rw [pending] at appended
    exact appended

theorem called_of_stopped (reachable : (system layout).Reachable state)
    (stopped : state.control = .stopped) : state.dieCalled = true := by
  obtain ⟨lists, valid⟩ := valid reachable
  exact valid.dieCalled (valid.ended (.inr stopped)).1

theorem dieSending_step {label : Label} (taken : Step layout state label next)
    (notDie : label ≠ .die) (notSendDie : label ≠ .sendDie) :
    next.dieSending = state.dieSending := by
  cases taken with
  | die => exact absurd rfl notDie
  | sendDie => exact absurd rfl notSendDie
  | iterate =>
      unfold State.iterate
      split <;> rfl
  | _ => rfl

theorem dieSent (reachable : (system layout).Reachable state) (alive : state.dieCalled = false) :
    state.dieSending = false := by
  have kept : state.dieSending = true → state.dieCalled = true := by
    refine reachable.invariant (fun state => state.dieSending = true → state.dieCalled = true) ?_ ?_
    · intro state starts sending
      obtain ⟨_, _, _, rfl⟩ := starts
      cases sending
    · intro state label next before taken sending
      by_cases die : label = .die
      · subst die
        cases taken with
        | die => rfl
      by_cases sendDie : label = .sendDie
      · subst sendDie
        cases taken with
        | sendDie => cases sending
      rw [dieSending_step taken die sendDie] at sending
      exact (dieCalled_step taken die).trans (before sending)
  rw [← Bool.not_eq_true]
  exact fun sending => Bool.false_ne_true (alive.symm.trans (kept sending))

/-- A stuck thread that will not hear of the command to die, be it in its queue. -/
structure Jammed (state : State) : Prop extends Stuck state where
  undead : state.dieProcessed = false
  dieUnsent : state.dieSending = false

theorem Stuck.refuses (stuck : Stuck state) (valid : Valid state lists)
    (cmd : Cmd (Option Addr)) : state.thread.cmdQ.enqueue cmd = (false, state.thread.cmdQ) := by
  have full := stuck.full
  rcases valid.queue.enqueue_cases cmd with ⟨_, refused⟩ | ⟨room, _⟩
  · exact refused
  · omega

theorem Jammed.same (jammed : Jammed state) (queue : next.thread.cmdQ = state.thread.cmdQ)
    (control : next.control = state.control) (sending : next.sending = state.sending)
    (processed : next.dieProcessed = state.dieProcessed)
    (unsent : next.dieSending = state.dieSending) : Jammed next where
  full := queue ▸ jammed.full
  asleep := by rw [queue, control]; exact jammed.asleep
  unsent := sending.trans jammed.unsent
  undead := processed.trans jammed.undead
  dieUnsent := unsent.trans jammed.dieUnsent

theorem Jammed.step (jammed : Jammed state) (valid : Valid state lists) {label : Label}
    (taken : Step layout state label next) : Jammed next := by
  have undrained : ∀ hand, state.control ≠ .draining hand := by
    intro hand draining
    rcases jammed.asleep with position | ⟨position, _⟩ <;> cases position.symm.trans draining
  cases taken with
  | die =>
      have refused := jammed.refuses valid ⟨iotCmdIoThreadDie, none⟩
      refine jammed.same ?_ rfl rfl rfl ?_
      · exact congrArg Prod.snd refused
      · exact (congrArg Prod.fst refused).trans jammed.dieUnsent.symm
  | sendDie sending => cases jammed.dieUnsent.symm.trans sending
  | @listen addr | @connect addr =>
      refine jammed.same ?_ rfl ?_ rfl rfl
      · exact congrArg Prod.snd (jammed.refuses valid _)
      · exact if_neg (by rw [jammed.refuses valid]; exact Bool.false_ne_true)
  | send sending =>
      have unsent := jammed.unsent
      omega
  | start position =>
      rw [start_eq (valid.watching.trans (by rw [position]; rfl))]
      exact {
        full := jammed.full
        asleep := .inr ⟨rfl, rfl⟩
        unsent := jammed.unsent
        undead := jammed.undead
        dieUnsent := jammed.dieUnsent }
  | wake position _ _ sent =>
      rcases jammed.asleep with created | ⟨_, silent⟩
      · cases position.symm.trans created
      · cases silent.symm.trans sent
  | iterate draining | command draining => exact absurd draining (undrained _)
  | accept _ _ free done =>
      obtain ⟨_, _, sameQueue⟩ := IoThread.onIoThreadAccept_lists valid.sockets free done
      exact jammed.same sameQueue rfl rfl rfl rfl
  | readwrite _ watched done =>
      obtain ⟨_, _, sameQueue⟩ := IoThread.onIoThreadReadwrite_lists valid.sockets
        ((valid.sockets.watched _ _).mp watched) done
      exact jammed.same sameQueue rfl rfl rfl rfl
  | leave position zero =>
      have dead := ((valid.leave position zero).ended (.inl rfl)).1
      cases jammed.undead.symm.trans dead
  | stop left => rcases jammed.asleep with position | ⟨position, _⟩ <;>
    cases position.symm.trans left

/-- A listening socket that the command to die is going to find, or has missed. -/
def Detained (state : State) : Prop :=
  state.dieProcessed = false ∧ state.Heard ∨ Undying state

theorem Detained.running (detained : Detained state) (valid : Valid state lists) :
    state.control ≠ .left ∧ state.control ≠ .stopped := by
  rcases detained with ⟨undead, _⟩ | undying
  · constructor
    · exact fun left => Bool.false_ne_true (undead.symm.trans (valid.ended (.inl left)).1)
    · exact fun stopped => Bool.false_ne_true (undead.symm.trans (valid.ended (.inr stopped)).1)
  · exact undying.running valid

theorem Detained.command (undead : state.dieProcessed = false) (heard : state.Heard)
    (valid : Valid state lists) {cmd : Cmd (Option Addr)} {reads : Addr → FreedRead} {fuel : Nat}
    {thread : IoThread} (draining : state.control = .draining (some cmd))
    (done : state.thread.onIotCmd reads fuel cmd = .ok thread)
    (orderly : Orderly state (.command cmd reads)) : Detained (state.handled cmd thread) := by
  obtain ⟨sockets, _, commands, _⟩ := valid.at draining
  have flight : state.inFlight = cmd :: state.thread.cmdQ.pending := by
    simp [State.inFlight, draining, Control.hand]
  rcases commands.deliverable cmd (by simp [Control.hand]) with rfl | ⟨cb, addr, rfl, idle⟩
  · obtain ⟨_, _, _, _, sameQueue⟩ := IoThread.onIotCmd_die sockets done
    rcases heard with ⟨addr, watched⟩ | ⟨addr, member⟩
    · exact absurd watched (valid.unwatched (valid.unlisted (orderly rfl)) _ addr)
    · rw [flight] at member
      refine .inr (.drained (by simp [State.handled]) rfl ⟨addr, ?_⟩)
      simpa [State.inFlight, State.handled, Control.hand, sameQueue] using member
  · obtain ⟨thread', run, inserted, others, sameQueue⟩ :=
      @IoThread.onIotCmd_handOver _ _ _ _ _ sockets reads fuel idle
    cases done.symm.trans run
    refine .inl ⟨by simpa [State.handled] using undead, ?_⟩
    rcases heard with ⟨other, watched⟩ | ⟨other, member⟩
    · have differs : other ≠ addr := fun same => (same ▸ idle).not_watched watched
      exact .inl ⟨other, watched.frame (congrArg _ (others other differs))⟩
    · rw [flight] at member
      rcases List.mem_cons.mp member with first | later
      · refine .inl ⟨addr, (inserted.watched .onIoThreadAccept addr).mpr ?_⟩
        rw [Cmd.mk.injEq] at first
        cases cb with
        | onIoThreadAccept => simp
        | onIoThreadReadwrite => cases first.1
      · exact .inr ⟨other, by simpa [State.inFlight, State.handled, Control.hand, sameQueue]
          using later⟩

theorem Detained.step (detained : Detained state) (valid : Valid state lists) {label : Label}
    (taken : Step layout state label next) (orderly : Orderly state label) : Detained next := by
  rcases detained with ⟨undead, heard⟩ | undying
  · by_cases handles : ∃ cmd reads, label = .command cmd reads
    · obtain ⟨cmd, reads, rfl⟩ := handles
      cases taken with
      | command draining done => exact .command undead heard valid draining done orderly
    · have other : ∀ cmd reads, label ≠ .command cmd reads :=
        fun cmd reads same => handles ⟨cmd, reads, same⟩
      obtain ⟨⟨added, flight, _⟩, watched⟩ := step_keeps valid taken other
      refine .inl ⟨(dieProcessed_step taken other).trans undead, ?_⟩
      refine heard.imp (fun listening => listening.imp watched) fun listens => ?_
      obtain ⟨addr, member⟩ := listens
      exact ⟨addr, flight ▸ List.mem_append_left _ member⟩
  · exact .inr (undying.step valid taken)

end Striga.Greenev.IoThreadTraffic
