import Striga.Greenev.IoThreadTraffic

/-! The IO thread once it has handled `IO_THREAD_DIE`: nothing keeps the
handlers from adding sockets again, and `IO_THREAD_DIE` may leave some. -/

set_option autoImplicit false

namespace Striga.Greenev.IoThreadTraffic

open Lib Lib.LinkedList

variable {layout : IoBufferLayout} {state : State}

/-- Once dead, the thread has no socket and nothing keeps its loop running, up
to the end of the loop. -/
def OwnsNothing (state : State) : Prop :=
  state.dieProcessed = true →
    state.thread.listening = none ∧ state.thread.established = none ∧
      (state.control ≠ .stopped → state.thread.loop.activecnt = 0)

/-- On each of the two lists, the link of every object but the last still reads
as it was after the object has been freed. -/
def ReadableWhenFreed (thread : IoThread) (reads : Addr → FreedRead) : Prop :=
  ∀ cb addrs, Chain thread.links (thread.list cb) addrs →
    ∀ addr ∈ addrs.dropLast, reads addr = .kept

/-- No socket is taken over by a dead thread, and dying frees all it has. -/
def DiesForGood (state : State) (label : Label) (_ : State) : Prop :=
  match label with
  | .command cmd reads =>
      if cmd.id = iotCmdIoThreadDie then ReadableWhenFreed state.thread reads
      else state.dieProcessed = false
  | _ => True

private theorem readableWhenFreed_iff {lists : SocketCallback → List Addr}
    (valid : Valid state lists) {reads : Addr → FreedRead} :
    ReadableWhenFreed state.thread reads ↔
      ∀ cb, ∀ addr ∈ (lists cb).dropLast, reads addr = .kept := by
  constructor
  · exact fun readable cb => readable cb (lists cb) (valid.sockets.chain cb)
  · intro readable cb addrs chain
    rw [chain.unique (valid.sockets.chain cb)]
    exact readable cb

/-- A dead thread owns nothing exactly when both its lists are empty. -/
private theorem ownsNothing_iff {lists : SocketCallback → List Addr} (valid : Valid state lists)
    (dead : state.dieProcessed = true) : OwnsNothing state ↔ ∀ cb, lists cb = [] := by
  have listening := (valid.sockets.chain .onIoThreadAccept).null_iff
  have established := (valid.sockets.chain .onIoThreadReadwrite).null_iff
  constructor
  · intro owns cb
    obtain ⟨noListening, noEstablished, _⟩ := owns dead
    cases cb
    · exact listening.mp noListening
    · exact established.mp noEstablished
  · intro empty _
    refine ⟨listening.mpr (empty _), established.mpr (empty _), fun running => ?_⟩
    have counted := valid.sockets.activecnt
    have held : state.held = 0 := by
      unfold State.held
      cases position : state.control with
      | stopped => exact absurd position running
      | _ => simp [dead]
    simpa [empty, held] using counted

theorem OwnsNothing.of_same {next : State} (before : OwnsNothing state)
    (dead : next.dieProcessed = state.dieProcessed)
    (listening : next.thread.listening = state.thread.listening)
    (established : next.thread.established = state.thread.established)
    (count : state.dieProcessed = true → next.control ≠ .stopped →
      state.control ≠ .stopped ∧ next.thread.loop = state.thread.loop) : OwnsNothing next := by
  intro died
  rw [dead] at died
  obtain ⟨noListening, noEstablished, zero⟩ := before died
  refine ⟨listening.trans noListening, established.trans noEstablished, fun running => ?_⟩
  obtain ⟨earlier, same⟩ := count died running
  rw [same]
  exact zero earlier

private theorem ownsNothing_step_iff {label : Label} {next : State}
    (reachable : (system layout).Reachable state) (before : OwnsNothing state)
    (taken : (system layout).step state label next) :
    OwnsNothing next ↔ DiesForGood state label next := by
  obtain ⟨lists, valid⟩ := valid reachable
  cases taken with
  | die | sendDie | listen | connect | send =>
      exact iff_of_true (before.of_same rfl rfl rfl fun _ running => ⟨running, rfl⟩) trivial
  | start created =>
      refine iff_of_true (fun dead => ?_) trivial
      cases dead.symm.trans (valid.created created)
  | wake waiting =>
      refine iff_of_true (before.of_same rfl rfl rfl fun _ _ => ⟨by simp [waiting], rfl⟩) trivial
  | iterate draining =>
      refine iff_of_true (before.of_same ?_ ?_ ?_ fun _ _ => ⟨by simp [draining], ?_⟩) trivial <;>
      · unfold State.iterate
        split <;> rfl
  | leave waiting =>
      exact iff_of_true (before.of_same rfl rfl rfl fun _ _ => ⟨by simp [waiting], rfl⟩) trivial
  | stop left =>
      exact iff_of_true (before.of_same rfl rfl rfl fun _ running => absurd rfl running) trivial
  | accept waiting watched free done =>
      refine iff_of_true (fun dead => ?_) trivial
      have member := (valid.sockets.watched _ _).mp watched
      simp [(ownsNothing_iff valid dead).mp before] at member
  | readwrite waiting watched done =>
      refine iff_of_true (fun dead => ?_) trivial
      have member := (valid.sockets.watched _ _).mp watched
      simp [(ownsNothing_iff valid dead).mp before] at member
  | @command cmd reads fuel thread draining done =>
      obtain ⟨_, _, commands, _⟩ := valid.at draining
      rcases commands.deliverable cmd (by simp [Control.hand]) with rfl | ⟨cb, addr, rfl, idle⟩
      · obtain ⟨left, after, whole⟩ := valid.command_die draining done
        rw [ownsNothing_iff after (by simp [State.handled]), whole, DiesForGood, if_pos rfl]
        exact (readableWhenFreed_iff valid).symm
      · have after := valid.command_handOver draining idle done
        rw [DiesForGood, if_neg (handOverCmd_ne_die cb)]
        cases dead : state.dieProcessed
        · refine iff_of_true (fun died => ?_) rfl
          simp [State.handled, dead] at died
        · rw [ownsNothing_iff after (by simp [State.handled, dead])]
          refine iff_of_false (fun empty => ?_) (by simp)
          simpa using empty cb

/-- Along a run the dead thread owns nothing exactly when no socket is handed
to it after its death and its death has freed all its sockets. -/
theorem ownsNothing_iff_diesForGood (layout : IoBufferLayout) (start : State)
    (path : List (Label × State)) (run : (system layout).Run start path) :
    AllStates OwnsNothing start path ↔ AllSteps DiesForGood start path := by
  apply run.allStates_iff
  · obtain ⟨cells, block, memory, rfl⟩ := run.starts
    intro dead
    cases dead
  · intro state label next reachable before taken
    exact ownsNothing_step_iff reachable before taken

theorem listen_behind_die_revives :
    ¬ ∀ layout state, (system layout).Reachable state → OwnsNothing state := by
  intro always
  have fresh : (system IoBufferLayout.lp64).Reachable
    (.fresh IoBufferLayout.lp64 (fun _ => ⟨0, none⟩) 0 fun _ => 0) :=
    .start ⟨_, _, _, rfl⟩
  have started := fresh.step (Step.start rfl)
  have dying := started.step (Step.die rfl)
  have listening := dying.step
    (@Step.listen IoBufferLayout.lp64 _ 0 3 2 1 6 [] rfl)
  have sent := listening.step (Step.send (by decide))
  have woken := sent.step (Step.wake rfl (by decide) rfl rfl)
  have first := woken.step (Step.iterate rfl)
  have dead := first.step (@Step.command _ _ _ (fun _ => .kept) 0 _ rfl rfl)
  have second := dead.step (Step.iterate rfl)
  have revived := second.step (@Step.command _ _ _ (fun _ => .kept) 0 _ rfl rfl)
  obtain ⟨noListening, _⟩ := always _ _ revived rfl
  cases noListening

/-- A run in which the thread dies with two listening sockets on its list. -/
theorem ownsNothing_iff_diesForGood_died :
    ∃ start, ∃ path : List (Label × State), (∃ entry ∈ path, entry.2.dieProcessed = true) ∧
      AllStates OwnsNothing start path := by
  have fresh : ((system .lp64).restrict DiesForGood).Reachable
      (.fresh .lp64 (fun _ => ⟨0, none⟩) 0 fun _ => 0) := .start ⟨_, _, _, rfl⟩
  have started := fresh.step ⟨.start rfl, trivial⟩
  have first := started.step ⟨@Step.listen _ _ 0 3 2 1 6 [] rfl, trivial⟩
  have second := first.step ⟨@Step.listen _ _ 1 4 2 1 6 [] rfl, trivial⟩
  have sent := (second.step ⟨.send (by decide), trivial⟩).step ⟨.send (by decide), trivial⟩
  have woken := sent.step ⟨.wake rfl (by decide) rfl rfl, trivial⟩
  have listening := (woken.step ⟨.iterate rfl, trivial⟩).step
    ⟨@Step.command _ _ _ (fun _ => .kept) 0 _ rfl rfl, rfl⟩
  have both := (listening.step ⟨.iterate rfl, trivial⟩).step
    ⟨@Step.command _ _ _ (fun _ => .kept) 0 _ rfl rfl, rfl⟩
  have waiting := both.step ⟨.iterate rfl, trivial⟩
  have told := (waiting.step ⟨.die rfl, trivial⟩).step ⟨.sendDie rfl, trivial⟩
  have dying := (told.step ⟨.wake rfl (by decide) rfl rfl, trivial⟩).step ⟨.iterate rfl, trivial⟩
  obtain ⟨start, path, run, good, dead⟩ :=
    @System.Reachable.exists_run _ _ _ _ _ dying [(_, _)]
      ⟨⟨@Step.command _ _ _ (fun _ => .kept) 4 _ rfl rfl, fun _ _ _ _ _ => rfl⟩, trivial⟩
  exact ⟨start, path, ⟨_, dead List.mem_cons_self, rfl⟩,
    (ownsNothing_iff_diesForGood .lp64 start path run).mpr good⟩

end Striga.Greenev.IoThreadTraffic
