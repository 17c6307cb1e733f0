import Striga.Greenev.IoThreadTraffic

/-! The IO thread's account of its sockets, from the start of `ev_run` until it
returns zero. -/

set_option autoImplicit false

namespace Striga.Greenev.IoThreadTraffic

open Lib Lib.LinkedList

variable {layout : IoBufferLayout} {state : State}

/-- The socket objects with an active watcher are those on the two lists, each
once, and the loop counts them and the reference that `IO_THREAD_DIE` releases;
so the thread leaves its loop only dead and without sockets, and closing an
established socket finds it on its list. -/
structure Accounted (state : State) : Prop where
  lists : ∃ listening established,
    Chain state.thread.links state.thread.listening listening ∧
      Chain state.thread.links state.thread.established established ∧
      (listening ++ established).Nodup ∧
      (∀ addr, (∃ sockobj, state.thread.heap addr = some sockobj ∧
        sockobj.watcher.active = true) ↔ addr ∈ listening ++ established) ∧
      state.thread.loop.activecnt =
        (if state.dieProcessed then 0 else 1) + listening.length + established.length
  left : state.control = .left → state.dieProcessed = true ∧
    ∀ addr sockobj, state.thread.heap addr = some sockobj → sockobj.watcher.active = false
  closes : ∀ sockobj, state.thread.Watched .onIoThreadReadwrite sockobj →
    (∀ fuel, state.thread.sockobjClose fuel sockobj ≠ .error .assertion) ∧
      ∃ enough, ∀ fuel ≥ enough, ∃ after, state.thread.sockobjClose fuel sockobj = .ok after

private theorem active_iff {sockets : SocketHeap} {addr : Addr} :
    (∃ sockobj, sockets.heap addr = some sockobj ∧ sockobj.watcher.active = true) ↔
      ∃ cb, sockets.Watched cb addr := by
  constructor
  · intro watched
    obtain ⟨sockobj, found, active⟩ := watched
    exact ⟨sockobj.watcher.cb, sockobj, found, active, rfl⟩
  · intro watched
    obtain ⟨cb, sockobj, found, active, _⟩ := watched
    exact ⟨sockobj, found, active⟩

theorem socketsAccounted (layout : IoBufferLayout) (state : State)
    (reachable : (system layout).Reachable state) (running : state.control.watching = true) :
    Accounted state := by
  obtain ⟨lists, valid⟩ := valid reachable
  have watched : ∀ addr, (∃ sockobj, state.thread.heap addr = some sockobj ∧
      sockobj.watcher.active = true) ↔
      addr ∈ lists .onIoThreadAccept ++ lists .onIoThreadReadwrite := by
    intro addr
    rw [active_iff, List.mem_append, ← valid.sockets.watched, ← valid.sockets.watched]
    constructor
    · intro watched
      obtain ⟨cb, member⟩ := watched
      cases cb with
      | onIoThreadAccept => exact .inl member
      | onIoThreadReadwrite => exact .inr member
    · exact fun member => member.elim (⟨_, ·⟩) (⟨_, ·⟩)
  have held : state.held = if state.dieProcessed then 0 else 1 := by
    unfold State.held
    cases position : state.control <;> first | rfl | simp [position, Control.watching] at running
  constructor
  · refine ⟨lists .onIoThreadAccept, lists .onIoThreadReadwrite,
      valid.sockets.chain .onIoThreadAccept, valid.sockets.chain .onIoThreadReadwrite, ?_, watched,
      held ▸ valid.sockets.activecnt⟩
    refine List.nodup_append.mpr ⟨(valid.sockets.chain _).nodup, (valid.sockets.chain _).nodup, ?_⟩
    intro addr member other again same
    subst same
    cases valid.sockets.apart member again
  · intro left
    obtain ⟨processed, empty⟩ := valid.ended (.inl left)
    refine ⟨processed, fun addr sockobj found => ?_⟩
    have nowhere := (watched addr).not.mpr (by simp [empty])
    by_contra active
    exact nowhere ⟨sockobj, found, by simpa using active⟩
  · intro sockobj established
    have outcome := IoThread.sockobjClose_cases valid.sockets
      ((valid.sockets.watched _ _).mp established)
    constructor
    · intro fuel failed
      rcases outcome fuel with ⟨_, exhausted⟩ | ⟨_, done, _⟩
      · cases failed.symm.trans exhausted
      · cases failed.symm.trans done
    · refine ⟨(lists .onIoThreadReadwrite).length, fun fuel enough => ?_⟩
      rcases outcome fuel with ⟨short, _⟩ | ⟨after, done, _⟩
      · omega
      · exact ⟨after, done⟩

/-- A listening socket, the connection accepted on it, and one that was connected. -/
theorem socketsAccounted_three_sockets :
    ∃ state, state.thread.loop.activecnt = 4 ∧ Accounted state := by
  have fresh : (system .lp64).Reachable (.fresh .lp64 (fun _ => ⟨0, none⟩) 0 fun _ => 0) :=
    .start ⟨_, _, _, rfl⟩
  have started := fresh.step (.start rfl)
  have listen := started.step (@Step.listen _ _ 0 3 2 1 6 [] rfl)
  have connect := listen.step (@Step.connect _ _ 1 4 2 1 6 [] rfl)
  have sent := (connect.step (.send (by decide))).step (.send (by decide))
  have woken := sent.step (.wake rfl (by decide) rfl rfl)
  have listening := (woken.step (.iterate rfl)).step
    (@Step.command _ _ _ (fun _ => .kept) 0 _ rfl rfl)
  have established := (listening.step (.iterate rfl)).step
    (@Step.command _ _ _ (fun _ => .kept) 0 _ rfl rfl)
  have waiting := established.step (.iterate rfl)
  have accepted := waiting.step (@Step.accept _ _ 0 true ⟨true, false, false⟩ ⟨5, []⟩ 2 _
    rfl ⟨_, rfl, rfl, rfl⟩ rfl rfl)
  exact ⟨_, rfl, socketsAccounted .lp64 _ accepted rfl⟩

end Striga.Greenev.IoThreadTraffic
