import Striga.Greenev.ApplicationRun

/-! The command to die on its way from `_application_die` to the IO thread:
`io_thread_die` ignores the result of its put, so a full queue loses it. -/

set_option autoImplicit false

namespace Striga.Greenev.ApplicationRun

open Lib

variable {layout : IoBufferLayout} {state next : State}

/-- Once `_application_die` has been called, the IO thread's queue holds the
command to die, or the thread has removed or handled it. -/
def DieKept (state : State) : Prop :=
  0 < state.deaths →
    (∃ cmd ∈ state.io.inFlight, cmd.id = iotCmdIoThreadDie) ∨ state.io.dieProcessed = true

/-- When `_application_die` is called the IO thread's queue has room. -/
def RoomToDie (state : State) (label : Label) (_ : State) : Prop :=
  match label with
  | .terminate _ => state.io.thread.cmdQ.pending.length < state.io.thread.cmdQ.qSize.toNat - 1
  | _ => True

private theorem dieKept_iff : DieKept state ↔ 0 < state.deaths → 0 < state.io.dieCount := by
  refine imp_congr_right fun _ => ?_
  have flight : (∃ cmd ∈ state.io.inFlight, cmd.id = iotCmdIoThreadDie) ↔
      0 < IoThreadTraffic.dies state.io.inFlight := by
    simp [IoThreadTraffic.dies, List.countP_pos_iff]
  rw [flight, IoThreadTraffic.State.dieCount]
  cases state.io.dieProcessed <;> simp

theorem DieKept.of_same (before : DieKept state) (deaths : next.deaths = state.deaths)
    (io : next.io.dieCount = state.io.dieCount) : DieKept next := by
  rw [dieKept_iff] at before ⊢
  rw [deaths, io]
  exact before

private theorem dieKept_terminate_iff (valid : Valid layout state) {signal : TerminatingSignal}
    (active : (state.app.watcher signal).active = true) :
    DieKept (state.terminate signal) ↔
      state.io.thread.cmdQ.pending.length < state.io.thread.cmdQ.qSize.toNat - 1 := by
  obtain ⟨lists, inner⟩ := IoThreadTraffic.valid valid.io
  have alive : state.io.dieCalled = false := by
    simpa [active] using valid.armed signal
  have none := inner.dieOnce
  rw [alive, Bool.toNat_false] at none
  rw [dieKept_iff]
  have called : 0 < (state.terminate signal).deaths := Nat.succ_pos _
  rcases inner.queue.enqueue_cases ⟨iotCmdIoThreadDie, Option.none⟩ with
    ⟨full, refused⟩ | ⟨room, after, accepted, _, appended, _⟩
  · have same : (state.terminate signal).io.dieCount =
        IoThreadTraffic.dies state.io.inFlight + state.io.dieProcessed.toNat := by
      simp [State.terminate, IoThreadTraffic.State.dieCount, IoThreadTraffic.State.inFlight,
        IoThreadTraffic.State.die, IoThread.die, refused]
    constructor
    · intro kept
      have := kept called
      omega
    · omega
  · have more : (state.terminate signal).io.dieCount =
        IoThreadTraffic.dies state.io.inFlight + 1 + state.io.dieProcessed.toNat := by
      simp [State.terminate, IoThreadTraffic.State.dieCount, IoThreadTraffic.State.inFlight,
        IoThreadTraffic.State.die, IoThread.die, accepted, appended, Nat.add_assoc]
    refine iff_of_true (fun _ => ?_) room
    omega

private theorem dieKept_step_iff (valid : Valid layout state) (before : DieKept state)
    {label : Label}
    (taken : Step layout state label next) : DieKept next ↔ RoomToDie state label next := by
  cases taken with
  | terminate _ active _ => exact dieKept_terminate_iff valid active
  | sendDie =>
      refine iff_of_true (before.of_same rfl ?_) trivial
      unfold State.sendDie
      split <;> rfl
  | io taken other =>
      obtain ⟨lists, inner⟩ := IoThreadTraffic.valid valid.io
      exact iff_of_true (before.of_same rfl
        (IoThreadTraffic.dieCount_step inner taken other)) trivial
  | iterate =>
      refine iff_of_true (before.of_same ?_ ?_) trivial <;>
      · unfold State.iterate
        split <;> rfl
  | command =>
      refine iff_of_true (before.of_same ?_ ?_) trivial <;>
      · unfold State.command
        split <;> rfl
  | _ => exact iff_of_true (before.of_same rfl rfl) trivial

/-- Along a run the command to die is never lost exactly when the IO thread's
queue has room at the call of `_application_die`. -/
theorem dieKept_iff_roomToDie (layout : IoBufferLayout) (start : State)
    (path : List (Label × State)) (run : (system layout).Run start path) :
    AllStates DieKept start path ↔ AllSteps RoomToDie start path := by
  apply run.allStates_iff
  · obtain ⟨appCells, ioCells, block, memory, rfl⟩ := run.starts
    intro called
    cases called
  · intro state label next reachable before taken
    exact dieKept_step_iff (valid reachable) before taken

/-- Before the IO thread has run, with a signal pending, any number of sockets
up to the room in the queue may be waiting there. -/
theorem sockets_pile_up (layout : IoBufferLayout) (count : Nat) (few : count ≤ 255) :
    ∃ state, (system layout).Reachable state ∧ state.main = .waiting ∧
      (state.app.watcher .sigint).active = true ∧ (state.app.watcher .sigint).pending = true ∧
      state.io.thread.cmdQ.pending.length = count ∧
      ∀ addr ≥ count, state.io.thread.heap addr = none := by
  induction count with
  | zero =>
      have fresh : (system layout).Reachable
          (.fresh layout (fun _ => ⟨0, .ioThread⟩) (fun _ => ⟨0, none⟩) 0 fun _ => 0) :=
        .start ⟨_, _, _, _, rfl⟩
      have running := fresh.step (Step.run rfl)
      exact ⟨_, running.step (@Step.deliver _ _ .sigint), rfl, rfl, rfl, rfl, fun _ _ => rfl⟩
  | succ count ih =>
      obtain ⟨state, reachable, waiting, active, pending, length, unused⟩ := ih (by omega)
      obtain ⟨lists, inner⟩ := IoThreadTraffic.valid (valid reachable).io
      have listening := reachable.step (Step.io (@IoThreadTraffic.Step.listen layout state.io count
        3 2 1 6 [] (unused count (Nat.le_refl count))) (by simp) (by simp))
      refine ⟨_, listening, waiting, active, pending, ?_, ?_⟩
      · have size : state.io.thread.cmdQ.qSize.toNat = 256 := by
          rw [inner.qSize]
          rfl
        rcases inner.queue.enqueue_cases ⟨iotCmdIoThreadListen, some count⟩ with
          ⟨full, _⟩ | ⟨_, after, accepted, _, appended, _⟩
        · omega
        · simp [IoThreadTraffic.State.handOver, IoThread.handOver, accepted, appended, length]
      · intro addr beyond
        have differs : addr ≠ count := by omega
        have earlier := unused addr (by omega)
        simp [IoThreadTraffic.State.handOver, IoThread.handOver, SocketHeap.store, differs, earlier]

theorem full_queue_loses_die :
    ¬ ∀ layout state, (system layout).Reachable state → DieKept state := by
  intro always
  obtain ⟨state, reachable, waiting, active, pending, length, _⟩ :=
    sockets_pile_up .lp64 255 (Nat.le_refl 255)
  obtain ⟨lists, inner⟩ := IoThreadTraffic.valid (valid reachable).io
  have size : state.io.thread.cmdQ.qSize.toNat = 256 := by
    rw [inner.qSize]
    rfl
  have kept := always _ _ (reachable.step (Step.terminate waiting active pending))
  have room := (dieKept_terminate_iff (valid reachable) active).mp kept
  omega

/-- A run in which a socket is on its way to the IO thread when it is told to die. -/
theorem dieKept_iff_roomToDie_terminated :
    ∃ start path, Label.terminate .sigint ∈ path.map Prod.fst ∧ AllStates DieKept start path := by
  have fresh : ((system .lp64).restrict RoomToDie).Reachable
      (.fresh .lp64 (fun _ => ⟨0, .ioThread⟩) (fun _ => ⟨0, none⟩) 0 fun _ => 0) :=
    .start ⟨_, _, _, _, rfl⟩
  have running := fresh.step ⟨.run rfl, trivial⟩
  have started := running.step ⟨.io (.start rfl) (by simp) (by simp), trivial⟩
  have listening := started.step
    ⟨.io (@IoThreadTraffic.Step.listen _ _ 0 3 2 1 6 [] rfl) (by simp) (by simp), trivial⟩
  have signalled := listening.step ⟨@Step.deliver _ _ .sigint, trivial⟩
  obtain ⟨start, path, run, room, dying⟩ :=
    @System.Reachable.exists_run _ _ _ _ _ signalled [(.terminate .sigint, _)]
      ⟨⟨.terminate rfl rfl rfl, by change _ < _; decide⟩, trivial⟩
  exact ⟨start, path, List.mem_map_of_mem (dying List.mem_cons_self),
    (dieKept_iff_roomToDie .lp64 start path run).mpr room⟩

end Striga.Greenev.ApplicationRun
