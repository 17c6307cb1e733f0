import Striga.Greenev.ApplicationRun

/-! `application_dtor` frees the queue, the buffer and the lists of the IO thread
without joining it: what the thread, which is detached, may still do then. -/

set_option autoImplicit false

namespace Striga.Greenev

open Lib

/-- The steps on the IO thread's queue that Python threads take. -/
def IoThreadTraffic.Label.ofPython : IoThreadTraffic.Label → Bool
  | .listen _ | .connect _ | .send => true
  | _ => false

theorem IoThreadTraffic.stopped_ofPython {layout : IoBufferLayout} {state next : State}
    {label : Label} (stopped : state.control = .stopped) (called : state.dieCalled = true)
    (sent : label ≠ .sendDie) (taken : Step layout state label next) : label.ofPython = true := by
  cases taken with
  | die once => cases called.symm.trans once
  | sendDie => exact absurd rfl sent
  | listen | connect | send => rfl
  | start position | wake position | iterate position | command position | accept position
  | readwrite position | leave position | stop position =>
      cases stopped.symm.trans position

namespace ApplicationRun

variable {layout : IoBufferLayout} {state next : State}

/-- `application_run` has returned. -/
def Main.hasReturned : Main → Bool
  | .returned | .joined | .deleted => true
  | _ => false

/-- The IO thread has nothing left, and neither it nor the main thread takes
another step on what it had. -/
structure IoThreadGone (layout : IoBufferLayout) (state : State) : Prop where
  returned : state.main.hasReturned = true
  stopped : state.io.control = .stopped
  listening : state.io.thread.listening = none
  established : state.io.thread.established = none
  unwatched : ∀ cb addr, ¬ state.io.thread.Watched cb addr
  onlyPython : ∀ label next, Step layout state (.io label) next → label.ofPython = true

/-- `application_run` returns once both threads have reported their exit. -/
theorem Valid.exitedOfReturned (valid : Valid layout state)
    (returned : state.main.hasReturned = true) :
    state.io.dieCalled = true ∧ ∀ thread, state.phase thread ≠ .running := by
  have ended : state.io.dieCalled = true ∧ ∀ thread, state.processed thread = true := by
    apply valid.ended
    cases place : state.main with
    | returned => exact .inl rfl
    | joined => exact .inr (.inl rfl)
    | deleted => exact .inr (.inr rfl)
    | constructed | waiting | draining | dying | aborted =>
        rw [place] at returned
        cases returned
  refine ⟨ended.1, fun thread running => ?_⟩
  have counts := valid.counts thread
  rw [if_pos running, ended.2, Bool.toNat_true] at counts
  omega

theorem Valid.goneOfReturned (valid : Valid layout state)
    (returned : state.main.hasReturned = true) :
    IoThreadGone layout state := by
  obtain ⟨lists, inner⟩ := IoThreadTraffic.valid valid.io
  obtain ⟨called, exited⟩ := valid.exitedOfReturned returned
  have stopped := valid.stopped (exited .ioThread)
  have empty := (inner.ended (.inr stopped)).2
  refine ⟨returned, stopped, ?_, ?_, ?_, ?_⟩
  · exact (inner.sockets.chain .onIoThreadAccept).null_iff.mpr (empty _)
  · exact (inner.sockets.chain .onIoThreadReadwrite).null_iff.mpr (empty _)
  · intro cb addr watched
    have member := (inner.sockets.watched cb addr).mp watched
    rw [empty] at member
    cases member
  · intro label next taken
    cases taken with
    | io inside _ sent => exact IoThreadTraffic.stopped_ofPython stopped called sent inside

private theorem hasReturned_step {label : Label} (taken : Step layout state label next)
    (returned : state.main.hasReturned = true) : next.main.hasReturned = true := by
  cases taken with
  | run place | terminate place | sendDie place | wake place | iterate place | command place
  | leave place =>
      rw [place] at returned
      cases returned
  | join | delete => rfl
  | deliver | io | enqueue | send => exact returned

/-- From the return of `application_run` on, whatever is freed of the IO thread
is out of use but for Python threads that still hand sockets over. -/
theorem ioThreadGone (layout : IoBufferLayout) (state last : State)
    (reachable : (system layout).Reachable state) (returned : state.main.hasReturned = true)
    (leads : (system layout).Leads state last) : IoThreadGone layout last := by
  have kept : Valid layout last ∧ last.main.hasReturned = true := by
    refine leads.invariant (fun state => Valid layout state ∧ state.main.hasReturned = true)
      ⟨valid reachable, returned⟩ ?_
    intro state label next before taken
    exact ⟨before.1.step taken, hasReturned_step taken before.2⟩
  exact kept.1.goneOfReturned kept.2

theorem ioThreadGone_returned :
    ∃ state, (system .lp64).Reachable state ∧ state.main = .returned ∧
      ∀ last, (system .lp64).Leads state last → IoThreadGone .lp64 last := by
  obtain ⟨state, reachable, returned⟩ := returned_reachable
  have hasReturned : state.main.hasReturned = true := by rw [returned]; rfl
  exact ⟨state, reachable, returned, fun last leads =>
    ioThreadGone _ _ _ reachable hasReturned leads⟩

end ApplicationRun

end Striga.Greenev
