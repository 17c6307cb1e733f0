import Striga.Pyglev.Callbacks

/-! How the thread that runs an event loop uses the interpreter lock. -/

set_option autoImplicit false

namespace Striga.Pyglev

open Lib

namespace EventLoop

variable {self : EventLoop}

theorem dropListenCmd_within (listenCmd : Addr) (dropped : Dropped) :
    Within Gil.Held Gil.Held self.gil (fun dropped => dropped.1.gil) (fun _ => True)
      (self.dropListenCmd listenCmd dropped) := by
  have kept : ∀ tstate, self.gil.Held tstate →
      (self.gil.calls [.decref listenCmd]).Held tstate := fun _ held => held.calls _
  unfold dropListenCmd
  dsimp only
  split
  · exact fun tstate held => (kept tstate held).disciplined
  · split
    · exact Within.ok kept trivial
    · split
      · exact Within.ok kept trivial
      · split
        · exact Within.ok kept trivial
        · exact Within.ok kept trivial
        · exact fun tstate held => (kept tstate held).disciplined

theorem closeListed_within (drops : List Dropped) : ∀ {self : EventLoop} (head : Option Addr),
    Within Gil.Held Gil.Held self.gil EventLoop.gil (fun _ => True)
      (self.closeListed head drops) := by
  induction drops with
  | nil =>
      intro self head
      cases head with
      | none => exact Within.ok (fun _ held => held) trivial
      | some listenCmd => exact fun _ held => held.disciplined
  | cons dropped rest ih =>
      intro self head
      cases head with
      | none => exact Within.ok (fun _ held => held) trivial
      | some listenCmd =>
          apply Within.bind (listenCmdClose_within listenCmd)
          intro closed _
          apply Within.bind (dropListenCmd_within listenCmd dropped)
          intro after _
          exact @ih { after.1 with listenCommands := after.2 } after.2

theorem eventLoopBreak_within (drops : List Dropped) :
    Within Gil.Released Gil.Released self.gil EventLoop.gil (fun _ => True)
      (self.eventLoopBreak drops) := by
  apply Within.after fun tstate (released : self.stopBreakSignals.gil.Released tstate) =>
    released.restoreThread
  apply Within.bind (@closeListed_within drops self.stopBreakSignals.restoreThread _)
  intro closed _
  exact Within.ok (fun _ held => held.saveThread) trivial

theorem dispatch_within (cmd : SubjectCmd Addr) (outcome : DispatchOutcome) :
    Within Gil.Released Gil.Released self.gil EventLoop.gil (fun _ => True)
      (self.dispatch cmd outcome) := by
  unfold dispatch
  split
  · apply Within.ok
    · intro tstate released
      have called : (self.beginCallable cmd.subject).gil.Held tstate :=
        released.restoreThread.calls _
      exact ((called.calls _).calls _).saveThread
    · trivial
  · split
    · unfold linkListenCmd
      cases self.listenCmds cmd.subject with
      | none => exact fun _ released => released.disciplined
      | some listenCmd =>
          exact (@listenCmdXschedule01_within _ cmd.subject outcome.resolve).mono fun _ _ => trivial
    · apply Within.ok
      · intro tstate released
        exact (released.restoreThread.calls _).saveThread
      · trivial

theorem onCmdqReady_within (gets : List (Int32 × SubjectCmd Addr × DispatchOutcome)) :
    ∀ {self : EventLoop}, Within Gil.Released Gil.Released self.gil EventLoop.gil (fun _ => True)
      (self.onCmdqReady gets) := by
  induction gets with
  | nil => exact Within.ok (fun _ released => released) trivial
  | cons get rest ih =>
      intro self
      obtain ⟨qsize, cmd, outcome⟩ := get
      unfold onCmdqReady
      split
      · exact Within.ok (fun _ released => released) trivial
      · apply Within.bind (dispatch_within cmd outcome)
        intro dispatched _
        split
        · exact Within.ok (fun _ released => released) trivial
        · exact ih

theorem callback_within (callback : Callback) :
    Within Gil.Released Gil.Released self.gil EventLoop.gil (fun _ => True)
      (self.callback callback) := by
  cases callback with
  | breakSignal drops => exact eventLoopBreak_within drops
  | cmdqReady gets => exact onCmdqReady_within gets
  | listenSocketIo array revents reported outcome =>
      exact (onListenSocketIo_within array revents reported outcome).mono fun _ _ => trivial
  | estSocketIo socket revents outcome =>
      exact (onEstSocketIo_within socket revents outcome).mono fun _ _ => trivial

theorem evRun_ensures (tstate : TState) (callbacks : List Callback)
    (released : self.gil.Released tstate) :
    Ensures (fun crash => crash.gil.Disciplined) (fun next => next.gil.Released tstate)
      (self.evRun callbacks) := by
  apply Ensures.foldlM (fun next : EventLoop => next.gil.Released tstate) callbacks released
  intro callback _ current released
  apply Ensures.mono (callback_within callback)
  · exact fun crash disciplined => disciplined tstate released
  · exact fun next done => done.1 tstate released

end EventLoop

/-- From a thread that holds the lock with the given thread state: between any
two callbacks the lock is released and that state kept; after the loop the lock
is held again; and nothing was done on the way, even up to a crash, that needs
the lock in another condition. -/
structure LockDiscipline (self : EventLoop) (tstate : TState) (callbacks : List Callback) :
    Prop where
  between : ∀ done, done <+: callbacks → ∀ current, self.saveThread.evRun done = .ok current →
    current.gil.Released tstate
  crashed : ∀ crash, self.run callbacks = .error crash →
    crash.gil.Disciplined ∧ crash.gil.Alternates
  returned : ∀ last, self.run callbacks = .ok last →
    last.gil.Held tstate ∧ last.gil.Alternates

theorem gilDiscipline (self : EventLoop) (tstate : TState) (callbacks : List Callback)
    (held : self.gil.Held tstate) : LockDiscipline self tstate callbacks := by
  have within : ∀ done, Ensures (fun crash => crash.gil.Disciplined)
      (fun next => next.gil.Released tstate) (self.saveThread.evRun done) :=
    fun done => EventLoop.evRun_ensures tstate done held.saveThread
  have run : Ensures (fun crash => crash.gil.Disciplined) (fun last => last.gil.Held tstate)
      (self.run callbacks) := by
    apply (within callbacks).bind
    intro current released
    exact released.restoreThread
  constructor
  · intro done _ current result
    exact (within done).of_ok result
  · intro crash result
    have disciplined := run.of_error result
    exact ⟨disciplined, disciplined.alternates⟩
  · intro last result
    have heldAgain := run.of_ok result
    exact ⟨heldAgain, heldAgain.disciplined.alternates⟩

/-- A callable raises, a listen command listens, a connection is accepted, and a signal
breaks the loop. -/
theorem gilDiscipline_listening :
    let self := (EventLoop.fresh ⟨some 1, none, []⟩).setListenCmd 0
      ⟨none, none, "8080", .init, 0, none⟩
    let callbacks : List Callback := [
      .cmdqReady [(1, ⟨0, 5⟩, ⟨true, .found []⟩),
        (0, ⟨50, 0⟩, ⟨false, .found [⟨.found "::" "8080", .listening 5⟩]⟩)],
      .listenSocketIo 0 ⟨true, false, false⟩ ⟨none, ""⟩
        (.accepted 6 ⟨none, ""⟩ (.generator 1 (.allocated 2 (.yielded (some 1))))),
      .breakSignal [.held]]
    (∃ last, self.run callbacks = .ok last) ∧ LockDiscipline self 1 callbacks := by
  intro self callbacks
  exact ⟨⟨_, rfl⟩, gilDiscipline self 1 callbacks ⟨rfl, rfl⟩⟩

end Striga.Pyglev
