import Striga.Greenev.IoThreadListen

/-! `io_thread_connect` from the resolved addresses to the socket handed to the
IO thread. Nothing else uses the thread's queue meanwhile. -/

set_option autoImplicit false

namespace Striga.Greenev

structure ConnectAddr extends AddrInfo where
  connect : Int

namespace ConnectAddr

def usable (rp : ConnectAddr) : Bool :=
  0 ≤ rp.socket && rp.setsockopt ≠ -1 && rp.connect ≠ -1

end ConnectAddr

/-- The variables of `io_thread_connect`, what it has logged and how many
addresses it has tried. -/
structure Connecting where
  thread : IoThread
  connectErrno : Int
  hoststr : String
  portstr : String
  log : List LogLine
  tried : Nat

namespace Connecting

def nameAddress (this : Connecting) (name : NameInfo) : Connecting :=
  let (log, host, port) := name.resolve "connect"
  { this with
    hoststr := host
    portstr := port
    log := this.log ++ log
    tried := this.tried + 1 }

def close (this : Connecting) (fd : Int) : Connecting :=
  { this with thread := { this.thread with toSocketHeap := this.thread.close fd } }

/-- The loop over the addresses; `fresh` is the address that `malloc` returns. -/
def connectFirst (fresh : Addr) : List ConnectAddr → Connecting → Connecting
  | [], this => this
  | rp :: rest, this =>
      let this := this.nameAddress rp.name
      if rp.socket < 0 then
        connectFirst fresh rest { this with connectErrno := rp.errno }
      else if rp.setsockopt = -1 then
        connectFirst fresh rest ({ this with connectErrno := rp.errno }.close rp.socket)
      else if rp.connect = -1 then
        connectFirst fresh rest ({ this with connectErrno := rp.errno }.close rp.socket)
      else
        { this with
          thread := this.thread.putSocket iotCmdIoThreadEstablish fresh
            (IoThread.connectedSocket rp.socket rp.family rp.socktype rp.protocol rp.addr) }

/-- The report behind the loop. -/
def report (this : Connecting) : Connecting :=
  if this.connectErrno ≠ 0 then
    { this with
      log := this.log ++ [.errno this.connectErrno ("Error when establishing connection to " ++
        this.hoststr ++ " " ++ this.portstr)] }
  else
    this

def errors (this : Connecting) : List LogLine := this.log.filter LogLine.isError

end Connecting

def IoThread.ioThreadConnect (fresh : Addr) (resolved : Resolved ConnectAddr) (this : IoThread) :
    Connecting :=
  let connecting : Connecting := ⟨this, 0, "?", "?", [], 0⟩
  match resolved with
  | .failed rc gaiStrerror =>
      { connecting with
        log := [.error ("Failed to resolve connect address: (" ++ toString rc ++ ") " ++
          gaiStrerror)] }
  | .found ans => (connecting.connectFirst fresh ans).report

/-- The descriptors that `socket` returned for the given addresses. -/
def triedSockets (ans : List ConnectAddr) : List Int :=
  (ans.map fun rp => rp.socket).filter fun fd => fd ≥ 0

private theorem triedSockets_append (left right : List ConnectAddr) :
    triedSockets (left ++ right) = triedSockets left ++ triedSockets right := by
  simp [triedSockets]

/-- The connection is made to the given address, behind the given others. -/
structure ConnectedTo (fresh : Addr) (earlier : List ConnectAddr) (rp : ConnectAddr)
    (before : IoThread) (after : Connecting) : Prop where
  accepted : after.thread.cmdQ.pending =
    before.cmdQ.pending ++ [⟨iotCmdIoThreadEstablish, some fresh⟩]
  sockobj : after.thread.heap = Function.update before.heap fresh (some
    (IoThread.connectedSocket rp.socket rp.family rp.socktype rp.protocol rp.addr))
  closed : after.thread.closed = before.closed ++ triedSockets earlier
  tried : after.tried = earlier.length + 1
  silent : after.errors = []

structure NotConnected (ans : List ConnectAddr) (before : IoThread) (after : Connecting) :
    Prop where
  pending : after.thread.cmdQ.pending = before.cmdQ.pending
  heap : after.thread.heap = before.heap
  closed : after.thread.closed = before.closed ++ triedSockets ans
  reported : after.errors.length = 1

/-- The first usable address is taken, and its lack is reported. -/
structure ConnectsFirstUsable (fresh : Addr) (ans : List ConnectAddr) (before : IoThread)
    (after : Connecting) : Prop where
  connected : ∀ earlier rp later, ans = earlier ++ rp :: later → rp.usable = true →
    (∀ other ∈ earlier, other.usable = false) → ConnectedTo fresh earlier rp before after
  not_connected : (∀ rp ∈ ans, rp.usable = false) → NotConnected ans before after

namespace Connecting

variable {this : Connecting} {fresh : Addr}

@[simp] theorem nameAddress_thread (name : NameInfo) :
    (this.nameAddress name).thread = this.thread := rfl

@[simp] theorem nameAddress_connectErrno (name : NameInfo) :
    (this.nameAddress name).connectErrno = this.connectErrno := rfl

@[simp] theorem nameAddress_tried (name : NameInfo) :
    (this.nameAddress name).tried = this.tried + 1 := rfl

/-- A name that cannot be found is only worth a warning. -/
private theorem nameAddress_errors (name : NameInfo) : (this.nameAddress name).errors =
    this.errors := by
  cases name with
  | found host port => simp [errors, nameAddress, NameInfo.resolve]
  | failed gaiStrerror => simp [errors, nameAddress, NameInfo.resolve, LogLine.isError]

/-- What the loop has done once it has given up on the given addresses. -/
structure Passed (rps : List ConnectAddr) (this next : Connecting) : Prop where
  thread : next.thread = { this.thread with closed := this.thread.closed ++ triedSockets rps }
  connectErrno : next.connectErrno = 0 ↔ this.connectErrno = 0 ∧ rps = []
  errors : next.errors = this.errors
  tried : next.tried = this.tried + rps.length

/-- One round without success: the error is kept and the socket, where there is
one, is closed. -/
private theorem connectFirst_unusable {rp : ConnectAddr} (unusable : rp.usable = false) :
    ∃ next, Passed [rp] this next ∧
      ∀ rest, connectFirst fresh (rp :: rest) this = connectFirst fresh rest next := by
  have named : (this.nameAddress rp.name).errors = this.errors := nameAddress_errors rp.name
  by_cases refused : rp.socket < 0
  · refine ⟨{ this.nameAddress rp.name with connectErrno := rp.errno }, ⟨?_, ?_, named, rfl⟩, ?_⟩
    · simp [triedSockets, Int.not_le.mpr refused]
    · simp [rp.errno_ne]
    · intro rest
      rw [connectFirst, if_pos refused]
  · have created : rp.socket ≥ 0 := Int.not_lt.mp refused
    refine ⟨({ this.nameAddress rp.name with connectErrno := rp.errno } : Connecting).close
      rp.socket,
      ⟨?_, ?_, named, rfl⟩, ?_⟩
    · simp [triedSockets, created, Connecting.close, SocketHeap.close]
    · simp [rp.errno_ne, Connecting.close]
    · intro rest
      rw [connectFirst, if_neg refused]
      by_cases unset : rp.setsockopt = -1
      · rw [if_pos unset]
      · have unconnected : rp.connect = -1 := by
          simpa [ConnectAddr.usable, created, unset] using unusable
        rw [if_neg unset, if_pos unconnected]

private theorem connectFirst_passes (rps : List ConnectAddr) : ∀ {this : Connecting},
    (∀ rp ∈ rps, rp.usable = false) → ∃ next, Passed rps this next ∧
      ∀ rest, connectFirst fresh (rps ++ rest) this = connectFirst fresh rest next := by
  induction rps with
  | nil =>
      intro this _
      exact ⟨this, ⟨by simp [triedSockets], by simp, rfl, rfl⟩, fun _ => rfl⟩
  | cons rp rps ih =>
      intro this unusable
      obtain ⟨first, others⟩ := List.forall_mem_cons.mp unusable
      obtain ⟨middle, passed, same⟩ := @connectFirst_unusable this fresh rp first
      obtain ⟨next, later, rest⟩ := @ih middle others
      have set : middle.connectErrno ≠ 0 := by simp [passed.connectErrno]
      refine ⟨next, ⟨?_, ?_, later.errors.trans passed.errors, ?_⟩, ?_⟩
      · have both : triedSockets (rp :: rps) = triedSockets [rp] ++ triedSockets rps :=
          triedSockets_append [rp] rps
        rw [later.thread, passed.thread, both, ← List.append_assoc]
      · simp [later.connectErrno, set]
      · rw [later.tried, passed.tried, Nat.add_assoc, ← List.length_append, List.singleton_append]
      · intro more
        rw [List.cons_append, same, rest]

private theorem connectFirst_usable {rp : ConnectAddr} (usable : rp.usable = true)
    (rest : List ConnectAddr) :
    connectFirst fresh (rp :: rest) this = { this.nameAddress rp.name with
      thread := this.thread.putSocket iotCmdIoThreadEstablish fresh
        (IoThread.connectedSocket rp.socket rp.family rp.socktype rp.protocol rp.addr) } := by
  simp only [ConnectAddr.usable, Bool.and_eq_true, decide_eq_true_eq] at usable
  obtain ⟨⟨created, set⟩, connected⟩ := usable
  rw [connectFirst, if_neg (Int.not_lt.mpr created), if_neg set, if_neg connected]
  rfl

@[simp] theorem report_thread : this.report.thread = this.thread := by
  unfold report
  split <;> rfl

@[simp] theorem report_tried : this.report.tried = this.tried := by
  unfold report
  split <;> rfl

private theorem report_errors_length : this.report.errors.length =
    if this.connectErrno = 0 then this.errors.length else this.errors.length + 1 := by
  unfold report
  by_cases unset : this.connectErrno = 0
  · simp [unset]
  · rw [if_pos unset, if_neg unset, errors, List.filter_append, List.length_append]
    rfl

end Connecting

namespace IoThread

variable {fresh : Addr} {ans : List ConnectAddr} {before : IoThread}

/-- Before the report, the loop as a whole has passed the unusable addresses. -/
private theorem ioThreadConnect_passes {rps : List ConnectAddr} (rest : List ConnectAddr)
    (unusable : ∀ rp ∈ rps, rp.usable = false) : ∃ next,
    Connecting.Passed rps ⟨before, 0, "?", "?", [], 0⟩ next ∧
      before.ioThreadConnect fresh (.found (rps ++ rest)) =
        (next.connectFirst fresh rest).report := by
  obtain ⟨next, passed, same⟩ := @Connecting.connectFirst_passes fresh rps
    ⟨before, 0, "?", "?", [], 0⟩ unusable
  exact ⟨next, passed, by rw [ioThreadConnect, same]⟩

/-- The error of an earlier address is reported even so, and the socket is lost
when the queue is full. -/
theorem ioThreadConnect_usable (valid : before.cmdQ.WellFormed) {earlier later : List ConnectAddr}
    {rp : ConnectAddr} (usable : rp.usable = true)
    (unusable : ∀ other ∈ earlier, other.usable = false) :
    ConnectedTo fresh earlier rp before
        (before.ioThreadConnect fresh (.found (earlier ++ rp :: later))) ↔
      earlier = [] ∧ 0 < before.cmdQ.room := by
  obtain ⟨next, passed, result⟩ := @ioThreadConnect_passes fresh before earlier
    (rp :: later) unusable
  have queue : next.thread.cmdQ = before.cmdQ := by rw [passed.thread]
  obtain ⟨_, appended, _⟩ := valid.put_pending ⟨iotCmdIoThreadEstablish, some fresh⟩
  have reported : (next.connectFirst fresh (rp :: later)).report.errors.length =
      if earlier = [] then 0 else 1 := by
    have named : (next.nameAddress rp.name).errors = [] :=
      (Connecting.nameAddress_errors rp.name).trans passed.errors
    have error := passed.connectErrno
    rw [Connecting.connectFirst_usable usable, Connecting.report_errors_length]
    simp only [Connecting.nameAddress_connectErrno, error, true_and]
    change (if earlier = [] then (next.nameAddress rp.name).errors.length
      else (next.nameAddress rp.name).errors.length + 1) = _
    rw [named, List.length_nil]
  rw [result]
  constructor
  · intro connected
    rw [connected.silent, List.length_nil] at reported
    have accepted := connected.accepted
    rw [Connecting.connectFirst_usable usable, Connecting.report_thread] at accepted
    simp only [putSocket, queue, appended, List.append_cancel_left_eq] at accepted
    refine ⟨by by_contra some; simp [some] at reported, Nat.pos_of_ne_zero fun full => ?_⟩
    simp [full] at accepted
  · intro served
    obtain ⟨first, room⟩ := served
    rw [first, if_pos rfl] at reported
    constructor
    · rw [Connecting.connectFirst_usable usable, Connecting.report_thread]
      simp only [putSocket, queue, appended]
      rw [List.take_of_length_le room]
    · rw [Connecting.connectFirst_usable usable, Connecting.report_thread, passed.thread]
      rfl
    · rw [Connecting.connectFirst_usable usable, Connecting.report_thread, passed.thread]
      rfl
    · rw [Connecting.connectFirst_usable usable, Connecting.report_tried]
      simp [passed.tried]
    · exact List.eq_nil_of_length_eq_zero reported

theorem ioThreadConnect_unusable (unusable : ∀ rp ∈ ans, rp.usable = false) :
    NotConnected ans before (before.ioThreadConnect fresh (.found ans)) ↔ ans ≠ [] := by
  obtain ⟨next, passed, result⟩ := @ioThreadConnect_passes fresh before ans []
    unusable
  rw [List.append_nil] at result
  have reported : next.report.errors.length = if ans = [] then 0 else 1 := by
    rw [Connecting.report_errors_length, passed.errors]
    simp [passed.connectErrno, Connecting.errors]
  rw [result, Connecting.connectFirst]
  constructor
  · intro nothing none
    rw [nothing.reported, if_pos none] at reported
    exact absurd reported (by decide)
  · intro some
    rw [if_neg some] at reported
    exact ⟨by simp [passed.thread], by simp [passed.thread], by simp [passed.thread], reported⟩

private theorem connectsFirstUsable_of_first (valid : before.cmdQ.WellFormed) {rp : ConnectAddr}
    (usable : rp.usable = true) (room : 0 < before.cmdQ.room) (rest : List ConnectAddr) :
    ConnectsFirstUsable fresh (rp :: rest) before
      (before.ioThreadConnect fresh (.found (rp :: rest))) where
  connected := by
    intro earlier other later split taken passed
    cases earlier with
    | nil =>
        cases split
        exact (@ioThreadConnect_usable fresh before valid [] rest rp usable passed).mpr ⟨rfl, room⟩
    | cons head earlier =>
        cases split
        have refused := passed rp List.mem_cons_self
        exact absurd (usable.symm.trans refused) (by decide)
  not_connected := by
    intro unusable
    have refused := unusable rp List.mem_cons_self
    exact absurd (usable.symm.trans refused) (by decide)

private theorem connectsFirstUsable_of_unusable (some : ans ≠ [])
    (unusable : ∀ rp ∈ ans, rp.usable = false) :
    ConnectsFirstUsable fresh ans before (before.ioThreadConnect fresh (.found ans)) where
  connected := by
    intro earlier rp later split usable _
    have refused := unusable rp (by simp [split])
    exact absurd (usable.symm.trans refused) (by decide)
  not_connected _ := (ioThreadConnect_unusable unusable).mpr some

private theorem first_or_unusable_of_connects (valid : before.cmdQ.WellFormed)
    (sound : ConnectsFirstUsable fresh ans before (before.ioThreadConnect fresh (.found ans))) :
    (∃ rp, ans.head? = some rp ∧ rp.usable = true ∧ 0 < before.cmdQ.room) ∨
      (ans ≠ [] ∧ ∀ rp ∈ ans, rp.usable = false) := by
  cases first : ans.find? ConnectAddr.usable with
  | none =>
      have unusable : ∀ rp ∈ ans, rp.usable = false := by simpa using first
      exact .inr ⟨(ioThreadConnect_unusable unusable).mp (sound.not_connected unusable), unusable⟩
  | some rp =>
      obtain ⟨usable, earlier, later, rfl, skipped⟩ := List.find?_eq_some_iff_append.mp first
      have passed : ∀ other ∈ earlier, other.usable = false := by simpa using skipped
      have connected := sound.connected earlier rp later rfl usable passed
      obtain ⟨rfl, room⟩ := (ioThreadConnect_usable valid usable passed).mp connected
      exact .inl ⟨rp, rfl, usable, room⟩

theorem ioThreadConnect_firstUsable_iff (fresh : Addr) (resolved : Resolved ConnectAddr)
    (before : IoThread) (valid : before.cmdQ.WellFormed) :
    ConnectsFirstUsable fresh resolved.ans before (before.ioThreadConnect fresh resolved) ↔
      ∀ ans, resolved = .found ans →
        (∃ rp, ans.head? = some rp ∧ rp.usable = true ∧ 0 < before.cmdQ.room) ∨
          (ans ≠ [] ∧ ∀ rp ∈ ans, rp.usable = false) := by
  cases resolved with
  | failed rc gaiStrerror =>
      apply iff_of_true
      · refine ⟨fun earlier rp later split => ?_, fun _ => ?_⟩
        · simp [Resolved.ans] at split
        · exact ⟨rfl, rfl, (List.append_nil _).symm, rfl⟩
      · exact fun ans found => by cases found
  | found ans =>
      constructor
      · intro sound all same
        cases same
        exact first_or_unusable_of_connects valid sound
      · intro served
        rcases served ans rfl with ⟨rp, first, usable, room⟩ | ⟨some, unusable⟩
        · obtain ⟨rest, rfl⟩ := List.head?_eq_some_iff.mp first
          exact connectsFirstUsable_of_first valid usable room rest
        · exact connectsFirstUsable_of_unusable some unusable

def connectAddr (family socket connect : Int) : ConnectAddr :=
  ⟨⟨family, 1, 6, [], .found "host" "80", socket, 0, 111, by decide⟩, connect⟩

/-- Of three addresses the first takes the connection; of two none does. -/
theorem ioThreadConnect_first_of_three :
    let usable := [connectAddr 2 7 0, connectAddr 10 8 (-1), connectAddr 2 9 0]
    let unusable := [connectAddr 10 7 (-1), connectAddr 2 (-1) 0]
    ConnectsFirstUsable 5 usable (queuedUp 0) ((queuedUp 0).ioThreadConnect 5 (.found usable)) ∧
      ConnectsFirstUsable 5 unusable (queuedUp 0)
        ((queuedUp 0).ioThreadConnect 5 (.found unusable)) := by
  intro usable unusable
  have valid : (queuedUp 0).cmdQ.WellFormed := ⟨by decide, by decide⟩
  refine ⟨(ioThreadConnect_firstUsable_iff 5 (.found usable) _ valid).mpr fun _ found => ?_,
    (ioThreadConnect_firstUsable_iff 5 (.found unusable) _ valid).mpr fun _ found => ?_⟩
  · cases found
    exact .inl ⟨_, rfl, by decide, by decide⟩
  · cases found
    exact .inr ⟨by decide, by decide⟩

/-- Refused on its first address, the connection is made to the second one, and
the error of the first is reported. -/
theorem not_connectsFirstUsable_second_address :
    ¬ ConnectsFirstUsable 5 [connectAddr 10 7 (-1), connectAddr 2 8 0] (queuedUp 0)
      ((queuedUp 0).ioThreadConnect 5 (.found [connectAddr 10 7 (-1), connectAddr 2 8 0])) := by
  intro sound
  have connected := sound.connected [connectAddr 10 7 (-1)] (connectAddr 2 8 0) [] rfl rfl
    (by decide)
  have silent := connected.silent
  exact absurd silent (by decide)

end IoThread

/-- A connection to the first address is a step of the thread's runs, and the
wakeup unless the queue is full. -/
theorem IoThreadTraffic.reachable_ioThreadConnect {layout : IoBufferLayout} {state : State}
    {fresh : Addr} {rp : ConnectAddr} (reachable : (system layout).Reachable state)
    (free : state.thread.heap fresh = none) (usable : rp.usable = true) (rest : List ConnectAddr) :
    ∃ next, (system layout).Reachable next ∧
      next.thread = (state.thread.ioThreadConnect fresh (.found (rp :: rest))).thread := by
  rw [IoThread.ioThreadConnect, Connecting.report_thread, Connecting.connectFirst_usable usable]
  exact reachable_putSocket reachable (.connect free)

end Striga.Greenev
