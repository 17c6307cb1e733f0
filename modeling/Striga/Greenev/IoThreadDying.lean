import Striga.Greenev.ApplicationHang
import Striga.Greenev.IoThreadEnding

/-! When the IO thread can still stop once it was told to die. Its command has to
be there with no socket to listen on before or behind it, and the thread has to be
awake or to be woken: whoever else wakes it does so for a socket to listen on. -/

set_option autoImplicit false

namespace Striga.Greenev

open Lib

namespace IoThreadTraffic

variable {layout : IoBufferLayout} {state next : State} {lists : SocketCallback → List Addr}

theorem Valid.die_inFlight (valid : Valid state lists) (counted : dies state.inFlight ≠ 0) :
    ∃ before after, state.inFlight = before ++ ⟨iotCmdIoThreadDie, none⟩ :: after := by
  obtain ⟨cmd, member, dying⟩ := List.countP_pos_iff.mp (Nat.pos_of_ne_zero counted)
  rcases valid.commands.deliverable cmd member with rfl | ⟨cb, addr, rfl, _⟩
  · exact List.append_of_mem member
  · simp at dying

/-- The command to die is all that is in flight. -/
theorem Plain.die_alone (plain : Plain state) (valid : Valid state lists)
    (called : state.dieCalled = true) (undead : state.dieProcessed = false)
    (mortal : ¬ Undying state) (unheard : ¬ state.Heard) :
    state.inFlight = [⟨iotCmdIoThreadDie, none⟩] := by
  have dying := plain.dying valid fun listens => unheard (.inr listens)
  have count := dies_eq_length dying
  have once := valid.dieOnce
  rw [called, undead, count, Bool.toNat_false, Bool.toNat_true] at once
  have some : state.inFlight.length ≠ 0 := by
    intro none
    refine mortal (.refused called ?_)
    rw [State.dieCount, count, none, undead, Bool.toNat_false]
  obtain ⟨cmd, only⟩ := List.length_eq_one_iff.mp (by omega : state.inFlight.length = 1)
  rw [only, dying cmd (by simp [only])]

/-- A thread that has handled the command to die has nothing left to do. -/
private theorem stops_of_dead (reachable : (orderly layout).Reachable state)
    (dead : state.dieProcessed = true) (mortal : ¬ Undying state) :
    (withoutDie layout).Can (fun last => last.control = .stopped) state := by
  obtain ⟨lists, valid⟩ := valid reachable.of_restrict
  have plain := plain reachable
  have empty := plain.unlisted valid fun addr watched => mortal (.watched dead watched)
  cases position : state.control with
  | created => cases dead.symm.trans (valid.created position)
  | waiting => exact valid.leaves empty position dead
  | draining hand =>
      have dying := plain.dying valid fun listens => mortal (.drained dead position listens)
      have once := valid.dieOnce
      have called := Bool.toNat_le state.dieCalled
      rw [dead, dies_eq_length dying, Bool.toNat_true] at once
      have flight : state.inFlight = [] := List.eq_nil_of_length_eq_zero (by omega)
      obtain ⟨taken, waits, _⟩ := @Valid.idles layout _ _ valid _ position flight
      exact .step taken (waits.leaves empty rfl dead)
  | left => exact .once ⟨⟨.stop position, trivial⟩, rfl⟩ rfl
  | stopped => exact .now position

/-- A thread that was told to die and that nobody wakes: the next wake-up comes with
a socket to listen on. -/
structure Forgotten (state : State) : Prop extends Unwoken state where
  called : state.dieCalled = true
  undead : state.dieProcessed = false
  dieUnsent : state.dieSending = false

theorem Forgotten.same (forgotten : Forgotten state)
    (queue : next.thread.cmdQ = state.thread.cmdQ) (control : next.control = state.control)
    (sending : next.sending = state.sending) (processed : next.dieProcessed = state.dieProcessed)
    (unsent : next.dieSending = state.dieSending)
    (called : next.dieCalled = state.dieCalled) : Forgotten next where
  asleep := by rw [queue, control]; exact forgotten.asleep
  unsent := sending.trans forgotten.unsent
  undead := processed.trans forgotten.undead
  dieUnsent := unsent.trans forgotten.dieUnsent
  called := called.trans forgotten.called

/-- A socket to listen on wakes the thread, but too late. -/
theorem Forgotten.listen (forgotten : Forgotten state) (valid : Valid state lists) {addr : Addr}
    {sockobj : SockObj} :
    Forgotten (state.handOver (IoThread.handOverCmd .onIoThreadAccept) addr sockobj) ∨
      Undying (state.handOver (IoThread.handOverCmd .onIoThreadAccept) addr sockobj) := by
  have count := @dieCount_handOver _ _ valid .onIoThreadAccept addr sockobj
  rcases valid.queue.enqueue_cases ⟨IoThread.handOverCmd .onIoThreadAccept, some addr⟩ with
    ⟨_, refused⟩ | ⟨room, after, accepted, _, appended, _⟩
  · refine .inl (forgotten.same ?_ rfl ?_ rfl rfl rfl)
    · exact congrArg Prod.snd refused
    · exact if_neg (by rw [refused]; exact Bool.false_ne_true)
  · right
    by_cases none : dies state.inFlight = 0
    · refine .refused forgotten.called (count.trans ?_)
      rw [State.dieCount, none, forgotten.undead, Bool.toNat_false]
    · obtain ⟨before, behind, flight⟩ := valid.die_inFlight none
      refine @Undying.behind _ before
        (behind ++ [⟨IoThread.handOverCmd .onIoThreadAccept, some addr⟩]) ?_
        ⟨addr, List.mem_append_right _ (List.mem_singleton.mpr rfl)⟩
      rw [← List.cons_append, ← List.append_assoc, ← flight]
      simp [State.inFlight, State.handOver, IoThread.handOver, accepted, appended]

theorem Forgotten.step (forgotten : Forgotten state) (valid : Valid state lists) {label : Label}
    (taken : Step layout state label next) (unconnected : ∀ addr, label ≠ .connect addr) :
    Forgotten next ∨ Undying next := by
  have undrained : ∀ hand, state.control ≠ .draining hand := by
    intro hand draining
    rcases forgotten.asleep with position | ⟨position, _⟩ <;> cases position.symm.trans draining
  cases taken with
  | die once => cases forgotten.called.symm.trans once
  | sendDie sending => cases forgotten.dieUnsent.symm.trans sending
  | listen => exact forgotten.listen valid
  | connect => exact absurd rfl (unconnected _)
  | send sending =>
      have unsent := forgotten.unsent
      omega
  | start position =>
      rw [start_eq (valid.watching.trans (by rw [position]; rfl))]
      exact .inl {
        asleep := .inr ⟨rfl, rfl⟩
        unsent := forgotten.unsent
        called := forgotten.called
        undead := forgotten.undead
        dieUnsent := forgotten.dieUnsent }
  | wake position _ _ sent =>
      rcases forgotten.asleep with created | ⟨_, silent⟩
      · cases position.symm.trans created
      · cases silent.symm.trans sent
  | iterate draining | command draining => exact absurd draining (undrained _)
  | accept _ _ free done =>
      obtain ⟨_, _, sameQueue⟩ := IoThread.onIoThreadAccept_lists valid.sockets free done
      exact .inl (forgotten.same sameQueue rfl rfl rfl rfl rfl)
  | readwrite _ watched done =>
      obtain ⟨_, _, sameQueue⟩ := IoThread.onIoThreadReadwrite_lists valid.sockets
        ((valid.sockets.watched _ _).mp watched) done
      exact .inl (forgotten.same sameQueue rfl rfl rfl rfl rfl)
  | leave position zero =>
      have dead := ((valid.leave position zero).ended (.inl rfl)).1
      cases forgotten.undead.symm.trans dead
  | stop left =>
      rcases forgotten.asleep with position | ⟨position, _⟩ <;> cases position.symm.trans left

/-- The thread was told to die, and nothing is in the way of it. -/
structure Mortal (state : State) : Prop where
  called : state.dieCalled = true
  mortal : ¬ Undying state
  unforgotten : ¬ Forgotten state
  unheard : state.dieProcessed = false → ¬ state.Heard

/-- Once its loop has begun and the wake-up for the command to die is sent, such a
thread can stop. -/
theorem Mortal.stops (mortal : Mortal state) (reachable : (orderly layout).Reachable state)
    (begun : state.control ≠ .created) (dieUnsent : state.dieSending = false) :
    (withoutDie layout).Can (fun last => last.control = .stopped) state := by
  obtain ⟨called, mortal, unforgotten, unheard⟩ := mortal
  cases dead : state.dieProcessed with
  | true => exact stops_of_dead reachable dead mortal
  | false =>
      obtain ⟨lists, valid⟩ := valid reachable.of_restrict
      have plain := plain reachable
      have empty := plain.unlisted valid fun addr watched => unheard dead (.inl ⟨addr, watched⟩)
      have flight := plain.die_alone valid called dead mortal (unheard dead)
      cases position : state.control with
      | created => exact absurd position begun
      | waiting =>
          by_cases sent : state.thread.cmdQ.qWatcher.sent = true
          · exact valid.ends_of_sent empty position dead sent flight
          by_cases unsent : state.sending = 0
          · exact absurd ⟨⟨.inr ⟨position, Bool.not_eq_true _ ▸ sent⟩, unsent⟩, called, dead,
              dieUnsent⟩ unforgotten
          · have taken : Step layout state .send state.send := .send (Nat.pos_of_ne_zero unsent)
            have sent : Valid state.send lists := ⟨valid.sockets, valid.watching, valid.created,
              valid.queue, valid.qSize, valid.commands, valid.dieOnce, valid.ended⟩
            have active : state.thread.cmdQ.qWatcher.active = true :=
              valid.watching.trans (by rw [position]; rfl)
            refine .step ⟨⟨taken, trivial⟩, rfl⟩ (sent.ends_of_sent empty position dead ?_ flight)
            simp [State.send, WatcherCmdQ.send, EvAsync.send, active]
      | draining hand => exact valid.ends empty position flight
      | left => cases dead.symm.trans (valid.ended (.inl position)).1
      | stopped => cases dead.symm.trans (valid.ended (.inr position)).1

/-- A step that touches neither the commands in flight nor the sockets nor what has
become of the command to die. -/
theorem Mortal.same (mortal : Mortal state) (flight : next.inFlight = state.inFlight)
    (called : next.dieCalled = state.dieCalled)
    (processed : next.dieProcessed = state.dieProcessed)
    (draining : ∀ hand, next.control = .draining hand → state.control = .draining hand)
    (heap : next.thread.heap = state.thread.heap) (unforgotten : ¬ Forgotten next) :
    Mortal next := by
  have back : ∀ addr, next.thread.Watched .onIoThreadAccept addr →
      state.thread.Watched .onIoThreadAccept addr :=
    fun addr watched => watched.frame (congrArg _ (congrFun heap.symm addr))
  refine ⟨called.trans mortal.called, fun undying => mortal.mortal ?_, unforgotten, ?_⟩
  · cases undying with
    | refused die none =>
        refine .refused (called ▸ die) ?_
        rwa [State.dieCount, ← flight, ← processed]
    | behind whole listens => exact .behind (flight ▸ whole) listens
    | drained dead position listens =>
        exact .drained (processed ▸ dead) (draining _ position) (flight ▸ listens)
    | watched dead watched => exact .watched (processed ▸ dead) (back _ watched)
  · intro undead heard
    refine mortal.unheard (processed ▸ undead) (heard.imp (fun listening => listening.imp back) ?_)
    rw [flight]
    exact id

theorem Mortal.start (mortal : Mortal state) (valid : Valid state lists)
    (created : state.control = .created) :
    Mortal { state with thread := state.thread.start, control := .waiting } := by
  have started := @start_eq state.thread (valid.watching.trans (by rw [created]; rfl))
  refine mortal.same ?_ rfl rfl (fun _ position => ?_) (by rw [started]) fun forgotten => ?_
  · simp only [State.inFlight, started, created, Control.hand]
    rfl
  · cases position
  · exact mortal.unforgotten ⟨⟨.inl created, forgotten.unsent⟩, mortal.called, forgotten.undead,
      forgotten.dieUnsent⟩

/-- The wake-up for the command to die reaches the thread. -/
theorem Mortal.sendDie (mortal : Mortal state) (valid : Valid state lists)
    (begun : state.control ≠ .created) : Mortal state.sendDie := by
  refine mortal.same rfl rfl rfl (fun _ position => position) rfl fun forgotten => ?_
  have active := valid.watching
  rcases forgotten.asleep with created | ⟨waiting, silent⟩
  · exact begun created
  · rw [show state.control = .waiting from waiting] at active
    simp [State.sendDie, WatcherCmdQ.send, EvAsync.send, active, Control.watching] at silent

end IoThreadTraffic

end Striga.Greenev
