import Striga.Greenev.IoThreadTeardown
import Striga.Greenev.IoThreadTraffic

/-! What becomes of the descriptors that the IO thread is given or accepts: each
is closed once or held by one object, and each object is on a list, in a command
that is on its way, or lost because its command was refused. -/

set_option autoImplicit false

namespace Striga.Greenev

open Lib

namespace SocketHeap

variable {this after : SocketHeap} {opened : List Int} {live : List Addr} {addr : Addr} {fd : Int}

private theorem load_eq {node : SockObj} (loaded : this.load addr = .ok node) :
    this.heap addr = some node := by
  cases found : this.heap addr with
  | none =>
      rw [SocketHeap.load, found] at loaded
      cases loaded
  | some stored =>
      rw [SocketHeap.load, found] at loaded
      cases loaded
      rfl

/-- Of the descriptors opened so far, some are closed and the others are those of
the live objects. -/
structure Balanced (opened : List Int) (live : List Addr) (this : SocketHeap) : Prop where
  nodup : live.Nodup
  allocated : ∀ addr, addr ∈ live ↔ (this.fd? addr).isSome
  balance : opened.Perm (this.closed ++ live.filterMap this.fd?)

namespace Balanced

private theorem congr (balanced : Balanced opened live this)
    (fds : ∀ addr, after.fd? addr = this.fd? addr)
    (closed : after.closed = this.closed) : Balanced opened live after := by
  have same : after.fd? = this.fd? := funext fds
  refine ⟨balanced.nodup, fun addr => ?_, ?_⟩
  · rw [same]
    exact balanced.allocated addr
  · rw [same, closed]
    exact balanced.balance

/-- A new object, with its descriptor. -/
private theorem store (balanced : Balanced opened live this) (fresh : this.heap addr = none)
    (sockobj : SockObj) :
    Balanced (opened ++ [sockobj.watcher.fd]) (addr :: live) (this.store addr sockobj) := by
  have absent : addr ∉ live := by
    rw [balanced.allocated, fd?, fresh]
    exact Bool.false_ne_true
  have others : ∀ other ∈ live, (this.store addr sockobj).fd? other = this.fd? other := by
    intro other member
    have differs : other ≠ addr := ne_of_mem_of_not_mem member absent
    simp [fd?, SocketHeap.store, differs]
  have here : (this.store addr sockobj).fd? addr = some sockobj.watcher.fd := by
    simp [fd?, SocketHeap.store]
  refine ⟨List.nodup_cons.mpr ⟨absent, balanced.nodup⟩, fun other => ?_, ?_⟩
  · by_cases same : other = addr
    · simp [same, here]
    · rw [List.mem_cons, or_iff_right same, balanced.allocated]
      simp [fd?, SocketHeap.store, same]
  · rw [List.filterMap_cons, here, List.filterMap_congr others]
    refine (balanced.balance.append_right _).trans ?_
    rw [List.append_assoc]
    exact (List.perm_append_singleton _ _).append_left _

/-- An object is freed once its descriptor is closed. -/
private theorem release (balanced : Balanced opened live this) (found : this.fd? addr = some fd)
    (closed : after.closed = this.closed ++ [fd]) (gone : after.fd? addr = none)
    (others : ∀ other ≠ addr, after.fd? other = this.fd? other) :
    Balanced opened (live.erase addr) after := by
  have member : addr ∈ live := by
    rw [balanced.allocated, found]
    rfl
  refine ⟨balanced.nodup.erase addr, fun other => ?_, ?_⟩
  · rw [balanced.nodup.mem_erase_iff, balanced.allocated]
    by_cases same : other = addr
    · simp [same, gone]
    · simp [same, others other same]
  · have rest : (live.erase addr).filterMap after.fd? = (live.erase addr).filterMap this.fd? := by
      refine List.filterMap_congr fun other inside => ?_
      exact others other (balanced.nodup.mem_erase_iff.mp inside).1
    have split := (List.perm_cons_erase member).filterMap this.fd?
    rw [List.filterMap_cons, found] at split
    rw [closed, rest, List.append_assoc]
    exact balanced.balance.trans (split.append_left _)

/-- A descriptor that is closed as soon as it is there. -/
private theorem through (balanced : Balanced opened live this) (fd : Int) :
    Balanced (opened ++ [fd]) live (this.close fd) := by
  refine ⟨balanced.nodup, balanced.allocated, ?_⟩
  refine (balanced.balance.append_right [fd]).trans ?_
  simp only [SocketHeap.close, List.append_assoc]
  exact List.perm_append_comm.append_left _

end Balanced

/-- What closing an object does to the descriptors. -/
structure Closes (addr : Addr) (this after : SocketHeap) : Prop where
  closed : ∃ fd, this.fd? addr = some fd ∧ after.closed = this.closed ++ [fd]
  gone : after.heap addr = none
  others : ∀ other ≠ addr, after.fd? other = this.fd? other

theorem Closes.balanced (closes : Closes addr this after) (balanced : Balanced opened live this) :
    Balanced opened (live.erase addr) after := by
  obtain ⟨fd, found, closed⟩ := closes.closed
  exact balanced.release found closed (by rw [fd?, closes.gone]; rfl) closes.others

private theorem closes_discard {sockobj : SockObj} (found : this.heap addr = some sockobj) :
    Closes addr this (((this.close sockobj.watcher.fd).ioStop addr sockobj).free addr) := by
  refine ⟨⟨sockobj.watcher.fd, by rw [fd?, found]; rfl, rfl⟩, Function.update_self _ _ _, ?_⟩
  intro other differs
  rw [fd?, fd?, discard_of_ne differs]

end SocketHeap

open SocketHeap

/-- A loop of `IO_THREAD_DIE` closes what it frees. -/
private theorem teardown_balanced {reads : Addr → FreedRead} {fuel : Nat}
    {list head rest : Option Addr} {this after : SocketHeap} {opened : List Int} {live : List Addr}
    (balanced : Balanced opened live this)
    (done : teardown reads fuel list head this = .ok (rest, after)) :
    ∃ left, Balanced opened left after := by
  induction fuel generalizing list head this live with
  | zero =>
      cases head with
      | none =>
          cases done
          exact ⟨live, balanced⟩
      | some addr => cases done
  | succ fuel ih =>
      cases head with
      | none =>
          cases done
          exact ⟨live, balanced⟩
      | some addr =>
          cases found : this.heap addr with
          | none =>
              simp only [teardown, SocketHeap.load, found] at done
              cases done
          | some sockobj =>
              simp only [teardown, SocketHeap.load, found, pure_bind] at done
              obtain ⟨next, _, later⟩ := IoThread.bind_ok done
              exact ih ((closes_discard found).balanced balanced) later

/-- What is left after it is as it was. -/
private theorem teardown_heap {reads : Addr → FreedRead} {fuel : Nat} {list head rest : Option Addr}
    {this after : SocketHeap} (done : teardown reads fuel list head this = .ok (rest, after))
    (addr : Addr) : after.heap addr = none ∨ after.heap addr = this.heap addr := by
  induction fuel generalizing list head this with
  | zero =>
      cases head with
      | none =>
          cases done
          exact .inr rfl
      | some first => cases done
  | succ fuel ih =>
      cases head with
      | none =>
          cases done
          exact .inr rfl
      | some first =>
          cases found : this.heap first with
          | none =>
              simp only [teardown, SocketHeap.load, found] at done
              cases done
          | some sockobj =>
              simp only [teardown, SocketHeap.load, found, pure_bind] at done
              obtain ⟨next, _, later⟩ := IoThread.bind_ok done
              rcases ih later with gone | same
              · exact .inl gone
              · by_cases here : addr = first
                · left
                  rw [same, here]
                  exact Function.update_self _ _ _
                · exact .inr (same.trans (discard_of_ne here))

namespace IoThread

variable {this after : IoThread} {sockobj addr : Addr} {opened : List Int} {live : List Addr}

private theorem assign_fds {value : Option Addr} {place : Place}
    (done : this.assign value place = .ok after) :
    after.closed = this.closed ∧ ∀ addr, after.fd? addr = this.fd? addr := by
  cases place with
  | head =>
      cases done
      exact ⟨rfl, fun _ => rfl⟩
  | next node =>
      obtain ⟨sockobj, loaded, done⟩ := bind_ok done
      cases done
      refine ⟨rfl, fun addr => ?_⟩
      by_cases same : addr = node
      · simp [fd?, SocketHeap.store, same, load_eq loaded]
      · simp [fd?, SocketHeap.store, same]

private theorem unlink_fds {fuel : Nat} {prev : Place} {i : Option Addr}
    (done : this.unlink sockobj fuel prev i = .ok after) :
    after.closed = this.closed ∧ after.heap sockobj = none ∧
      ∀ other ≠ sockobj, after.fd? other = this.fd? other := by
  induction fuel generalizing prev i with
  | zero => cases i <;> cases done
  | succ fuel ih =>
      cases i with
      | none => cases done
      | some addr =>
          unfold unlink at done
          obtain ⟨node, _, done⟩ := bind_ok done
          split at done
          · obtain ⟨middle, assigned, done⟩ := bind_ok done
            cases done
            obtain ⟨closed, fds⟩ := assign_fds assigned
            refine ⟨closed, Function.update_self _ _ _, fun other differs => ?_⟩
            rw [← fds other]
            exact congrArg (Option.map _) (release_heap differs)
          · exact ih done

private theorem sockobjClose_closes {fuel : Nat}
    (done : this.sockobjClose fuel sockobj = .ok after) :
    Closes sockobj this.toSocketHeap after.toSocketHeap := by
  unfold sockobjClose at done
  obtain ⟨node, loaded, done⟩ := bind_ok done
  have found := load_eq loaded
  obtain ⟨closed, gone, others⟩ := unlink_fds done
  refine ⟨⟨node.watcher.fd, by rw [fd?, found]; rfl, closed⟩, gone, fun other differs => ?_⟩
  refine (others other differs).trans ?_
  exact congrArg (Option.map _) (closing_heap_of_ne differs)

private theorem onIoThreadReadwrite_closes {layout : IoBufferLayout} {fuel : Nat}
    {revents : EvEvents}
    {size : Int} (done : this.onIoThreadReadwrite layout fuel sockobj revents size = .ok after) :
    after.toSocketHeap = this.toSocketHeap ∨
      Closes sockobj this.toSocketHeap after.toSocketHeap := by
  unfold onIoThreadReadwrite at done
  split at done
  · simp only at done
    split at done
    · cases done
      exact .inl rfl
    split at done
    · obtain ⟨closed, closing, putting⟩ := bind_ok done
      obtain ⟨buffer, rfl⟩ := putBack_ok putting
      have closes := sockobjClose_closes closing
      exact .inr closes
    split at done
    · cases done
      exact .inl rfl
    split at done
    · obtain ⟨buffer, rfl⟩ := putBack_ok done
      exact .inl rfl
    · cases done
      exact .inl rfl
  · cases done
    exact .inl rfl

private theorem ioStart_fds {this : SocketHeap} {node prepared : SockObj}
    (found : this.heap addr = some node)
    (same : prepared.watcher.fd = node.watcher.fd) (other : Addr) :
    (this.ioStart addr prepared).fd? other = this.fd? other := by
  have kept : (prepared.watcher.start this.loop).2.fd = prepared.watcher.fd := by
    unfold EvIo.start
    split <;> rfl
  by_cases here : other = addr
  · subst here
    simp [fd?, SocketHeap.ioStart, SocketHeap.store, found, kept, same]
  · simp [fd?, SocketHeap.ioStart, SocketHeap.store, here]

private theorem onIotCmd_balanced {reads : Addr → FreedRead} {fuel : Nat} {cmd : Cmd (Option Addr)}
    (balanced : Balanced opened live this.toSocketHeap)
    (done : this.onIotCmd reads fuel cmd = .ok after) :
    ∃ left, Balanced opened left after.toSocketHeap := by
  unfold onIotCmd at done
  split at done
  · obtain ⟨⟨listening, sockets⟩, first, done⟩ := bind_ok done
    obtain ⟨⟨established, sockets'⟩, second, done⟩ := bind_ok done
    cases done
    obtain ⟨middle, halfway⟩ := teardown_balanced balanced first
    obtain ⟨left, both⟩ := teardown_balanced halfway second
    exact ⟨left, both.congr (fun _ => rfl) rfl⟩
  split at done
  · split at done
    · cases done
    · obtain ⟨node, loaded, done⟩ := bind_ok done
      cases done
      exact ⟨live, balanced.congr (ioStart_fds (load_eq loaded) rfl) rfl⟩
  split at done
  · split at done
    · cases done
    · obtain ⟨node, loaded, done⟩ := bind_ok done
      cases done
      exact ⟨live, balanced.congr (ioStart_fds (load_eq loaded) rfl) rfl⟩
  · cases done
    exact ⟨live, balanced⟩

private theorem onIotCmd_die_heap {reads : Addr → FreedRead} {fuel : Nat} {arg : Option Addr}
    (done : this.onIotCmd reads fuel ⟨iotCmdIoThreadDie, arg⟩ = .ok after) (addr : Addr) :
    after.heap addr = none ∨ after.heap addr = this.heap addr := by
  simp only [onIotCmd, if_true] at done
  obtain ⟨⟨listening, sockets⟩, first, done⟩ := bind_ok done
  obtain ⟨⟨established, sockets'⟩, second, done⟩ := bind_ok done
  cases done
  rcases teardown_heap second addr with gone | same
  · exact .inl gone
  · rcases teardown_heap first addr with gone | before
    · exact .inl (same.trans gone)
    · exact .inr (same.trans before)

/-- The descriptor that `accept` returns, where it is called and does not fail. -/
def Accepted.opens (accepted : Accepted) (revents : EvEvents) : List Int :=
  if revents.error then []
  else if revents.read then
    if accepted.clientSocket < 0 then [] else [accepted.clientSocket]
  else []

private theorem onIoThreadAccept_balanced {app : Bool} {revents : EvEvents} {accepted : Accepted}
    (balanced : Balanced opened live this.toSocketHeap) (fresh : this.heap addr = none)
    (done : this.onIoThreadAccept app sockobj revents accepted addr = .ok after) :
    ∃ left, Balanced (opened ++ accepted.opens revents) left after.toSocketHeap := by
  unfold onIoThreadAccept at done
  obtain ⟨listening, _, done⟩ := bind_ok done
  unfold Accepted.opens
  split at done
  · cases done
    rw [if_pos ‹_›, List.append_nil]
    exact ⟨live, balanced⟩
  rw [if_neg ‹_›]
  split at done
  · rw [if_pos ‹_›]
    split at done
    · cases done
      rw [if_pos ‹_›, List.append_nil]
      exact ⟨live, balanced⟩
    rw [if_neg ‹_›]
    split at done
    · cases done
      exact ⟨live, balanced.through _⟩
    · cases done
      have stored := balanced.store fresh
        (SockObj.mk this.established
          ⟨.onIoThreadReadwrite, accepted.clientSocket, ⟨true, false, false⟩, true⟩
          listening.domain listening.type listening.protocol accepted.clientAddr)
      exact ⟨_, stored.congr (fun _ => rfl) rfl⟩
  · cases done
    rw [if_neg ‹_›, List.append_nil]
    exact ⟨live, balanced⟩

end IoThread

namespace IoThreadDescriptors

variable {layout : IoBufferLayout}

/-- The IO thread, the descriptors that were opened for it, and the objects whose
command was refused. -/
structure State where
  io : IoThreadTraffic.State
  opened : List Int
  lost : List Addr

def State.handOver (state : State) (id : Int) (addr : Addr) (sockobj : SockObj) : State where
  io := state.io.handOver id addr sockobj
  opened := state.opened ++ [sockobj.watcher.fd]
  lost := if (state.io.thread.cmdQ.enqueue ⟨id, some addr⟩).1 then state.lost
    else state.lost ++ [addr]

def opens : IoThreadTraffic.Label → Bool
  | .listen _ | .connect _ | .accept _ => true
  | _ => false

/-- The steps of the IO thread, with what they open. -/
inductive Step (layout : IoBufferLayout) : State → IoThreadTraffic.Label → State → Prop where
  | listen {state addr fd domain type protocol address} :
      state.io.thread.heap addr = none →
      Step layout state (.listen addr) (state.handOver iotCmdIoThreadListen addr
        (IoThread.listeningSocket fd domain type protocol address))
  | connect {state addr fd domain type protocol address} :
      state.io.thread.heap addr = none →
      Step layout state (.connect addr) (state.handOver iotCmdIoThreadEstablish addr
        (IoThread.connectedSocket fd domain type protocol address))
  | accept {state sockobj app revents accepted addr thread} :
      state.io.control = .waiting →
      state.io.thread.Watched .onIoThreadAccept sockobj →
      state.io.thread.heap addr = none →
      state.io.thread.onIoThreadAccept app sockobj revents accepted addr = .ok thread →
      Step layout state (.accept sockobj) { state with
        io := { state.io with thread := thread }
        opened := state.opened ++ accepted.opens revents }
  | other {state label io} :
      IoThreadTraffic.Step layout state.io label io →
      opens label = false →
      Step layout state label { state with io := io }

def system (layout : IoBufferLayout) : System State IoThreadTraffic.Label where
  initial state := ∃ io, (IoThreadTraffic.system layout).initial io ∧ state = ⟨io, [], []⟩
  step := Step layout

/-- An object that nobody watches. -/
def Unwatched (this : SocketHeap) (addr : Addr) : Prop :=
  ∃ sockobj, this.heap addr = some sockobj ∧ sockobj.watcher.active = false

def State.unwatched (state : State) : List Addr :=
  state.io.inFlight.filterMap Cmd.arg ++ state.lost

structure Valid (state : State) : Prop where
  io : ∃ lists, IoThreadTraffic.Valid state.io lists
  balanced : ∃ live, Balanced state.opened live state.io.thread.toSocketHeap
  unwatched : ∀ addr, Unwatched state.io.thread.toSocketHeap addr ↔ addr ∈ state.unwatched
  distinct : state.unwatched.Nodup

variable {state next : State}

private theorem io_step {label : IoThreadTraffic.Label} (taken : Step layout state label next) :
    IoThreadTraffic.Step layout state.io label next.io := by
  cases taken with
  | listen free => exact .listen free
  | connect free => exact .connect free
  | accept waiting watched free done => exact .accept waiting watched free done
  | other taken => exact taken

/-- A step that lets every unwatched object be. -/
theorem Valid.same (valid : Valid state) (io : ∃ lists, IoThreadTraffic.Valid next.io lists)
    (balanced : ∃ live, Balanced next.opened live next.io.thread.toSocketHeap)
    (unwatched : ∀ addr, Unwatched next.io.thread.toSocketHeap addr ↔
      Unwatched state.io.thread.toSocketHeap addr)
    (flight : next.unwatched = state.unwatched) : Valid next := by
  refine ⟨io, balanced, fun addr => ?_, ?_⟩
  · rw [unwatched, flight]
    exact valid.unwatched addr
  · rw [flight]
    exact valid.distinct

theorem Valid.handOver (valid : Valid state) (cb : SocketCallback) {addr : Addr}
    {sockobj : SockObj} (free : state.io.thread.heap addr = none)
    (inactive : sockobj.watcher.active = false) (kind : sockobj.watcher.cb = cb) :
    Valid (state.handOver (IoThread.handOverCmd cb) addr sockobj) := by
  obtain ⟨⟨lists, inner⟩, ⟨live, balanced⟩, unwatched, distinct⟩ := valid
  have absent : addr ∉ state.unwatched := by
    intro member
    obtain ⟨node, found, _⟩ := (unwatched addr).mpr member
    cases found.symm.trans free
  have flight : (state.handOver (IoThread.handOverCmd cb) addr sockobj).unwatched.Perm
      (addr :: state.unwatched) := by
    rcases inner.queue.enqueue_cases ⟨IoThread.handOverCmd cb, some addr⟩ with
      ⟨_, refused⟩ | ⟨_, after, accepted, _, appended, _⟩
    · have same : (state.handOver (IoThread.handOverCmd cb) addr sockobj).unwatched =
          state.unwatched ++ [addr] := by
        simp [State.unwatched, State.handOver, IoThreadTraffic.State.handOver, IoThread.handOver,
          IoThreadTraffic.State.inFlight, refused]
      rw [same]
      exact List.perm_append_singleton _ _
    · have same : (state.handOver (IoThread.handOverCmd cb) addr sockobj).unwatched =
          state.io.inFlight.filterMap Cmd.arg ++ [addr] ++ state.lost := by
        simp [State.unwatched, State.handOver, IoThreadTraffic.State.handOver, IoThread.handOver,
          IoThreadTraffic.State.inFlight, accepted, appended]
      rw [same]
      exact (List.perm_append_singleton _ _).append_right _
  refine ⟨⟨lists, inner.handOver cb free inactive kind⟩, ⟨_, balanced.store free sockobj⟩, ?_, ?_⟩
  · intro other
    rw [flight.mem_iff, List.mem_cons, ← unwatched]
    by_cases same : other = addr
    · subst same
      simp [Unwatched, State.handOver, IoThreadTraffic.State.handOver, IoThread.handOver,
        SocketHeap.store, inactive]
    · simp [Unwatched, State.handOver, IoThreadTraffic.State.handOver, IoThread.handOver,
        SocketHeap.store, same]
  · exact flight.nodup_iff.mpr (List.nodup_cons.mpr ⟨absent, distinct⟩)

private theorem unwatched_congr {this after : SocketHeap} {addr : Addr}
    (same : (after.heap addr).map SockObj.watcher = (this.heap addr).map SockObj.watcher) :
    Unwatched after addr ↔ Unwatched this addr := by
  have shape (heap : SocketHeap) : Unwatched heap addr ↔
      ∃ watcher, (heap.heap addr).map SockObj.watcher = some watcher ∧ watcher.active = false := by
    simp [Unwatched]
  rw [shape, shape, same]

private theorem not_unwatched_of_watched {this : SocketHeap} {cb : SocketCallback} {addr : Addr}
    (watched : this.Watched cb addr) : ¬ Unwatched this addr := by
  intro unwatched
  obtain ⟨sockobj, found, active, _⟩ := watched
  obtain ⟨other, met, inactive⟩ := unwatched
  cases found.symm.trans met
  rw [active] at inactive
  cases inactive

/-- The object of an accepted connection is watched from the start. -/
private theorem onIoThreadAccept_fresh {this after : IoThread} {sockobj addr : Addr} {app : Bool}
    {revents : EvEvents} {accepted : IoThread.Accepted} (free : this.heap addr = none)
    (done : this.onIoThreadAccept app sockobj revents accepted addr = .ok after) :
    ¬ Unwatched after.toSocketHeap addr := by
  have nothing : ¬ Unwatched this.toSocketHeap addr := by
    intro unwatched
    obtain ⟨node, found, _⟩ := unwatched
    cases found.symm.trans free
  unfold IoThread.onIoThreadAccept at done
  obtain ⟨listening, _, done⟩ := IoThread.bind_ok done
  split at done
  · cases done
    exact nothing
  split at done
  · split at done
    · cases done
      exact nothing
    split at done
    · cases done
      exact nothing
    · cases done
      intro unwatched
      obtain ⟨node, found, inactive⟩ := unwatched
      cases (Function.update_self _ _ _).symm.trans found
      cases inactive
  · cases done
    exact nothing

theorem Valid.accept (valid : Valid state) {sockobj addr : Addr} {app : Bool} {revents : EvEvents}
    {accepted : IoThread.Accepted} {thread : IoThread} (waiting : state.io.control = .waiting)
    (free : state.io.thread.heap addr = none)
    (done : state.io.thread.onIoThreadAccept app sockobj revents accepted addr = .ok thread) :
    Valid { state with
      io := { state.io with thread := thread }
      opened := state.opened ++ accepted.opens revents } := by
  obtain ⟨lists, inner⟩ := valid.io
  obtain ⟨live, balanced⟩ := valid.balanced
  obtain ⟨_, others, sameQueue⟩ := IoThread.onIoThreadAccept_lists inner.sockets free done
  refine valid.same (inner.accept waiting free done)
    (IoThread.onIoThreadAccept_balanced balanced free done) ?_ ?_
  · intro other
    by_cases same : other = addr
    · subst same
      refine iff_of_false (onIoThreadAccept_fresh free done) fun unwatched => ?_
      obtain ⟨node, found, _⟩ := unwatched
      cases found.symm.trans free
    · exact unwatched_congr (congrArg _ (others other same))
  · simp only [State.unwatched, IoThreadTraffic.State.inFlight, sameQueue]

theorem Valid.readwrite (valid : Valid state) {sockobj : Addr} {fuel : Nat} {revents : EvEvents}
    {size : Int} {thread : IoThread} (waiting : state.io.control = .waiting)
    (watched : state.io.thread.Watched .onIoThreadReadwrite sockobj)
    (done : state.io.thread.onIoThreadReadwrite layout fuel sockobj revents size = .ok thread) :
    Valid { state with io := { state.io with thread := thread } } := by
  obtain ⟨lists, inner⟩ := valid.io
  obtain ⟨live, balanced⟩ := valid.balanced
  obtain ⟨_, others, sameQueue⟩ := IoThread.onIoThreadReadwrite_lists inner.sockets
    ((inner.sockets.watched _ _).mp watched) done
  have flight : State.unwatched { state with io := { state.io with thread := thread } } =
      state.unwatched := by
    simp only [State.unwatched, IoThreadTraffic.State.inFlight, sameQueue]
  rcases IoThread.onIoThreadReadwrite_closes done with same | closes
  · refine valid.same (inner.readwrite waiting watched done) ⟨live, ?_⟩ ?_ flight
    · rw [same]
      exact balanced
    · rw [same]
      exact fun _ => Iff.rfl
  · refine valid.same (inner.readwrite waiting watched done) ⟨_, closes.balanced balanced⟩ ?_ flight
    intro other
    by_cases same : other = sockobj
    · subst same
      refine iff_of_false ?_ (not_unwatched_of_watched watched)
      intro unwatched
      obtain ⟨node, found, _⟩ := unwatched
      cases closes.gone.symm.trans found
    · exact unwatched_congr (others other same)

theorem Valid.command (valid : Valid state) {cmd : Cmd (Option Addr)} {reads : Addr → FreedRead}
    {fuel : Nat} {thread : IoThread} (draining : state.io.control = .draining (some cmd))
    (done : state.io.thread.onIotCmd reads fuel cmd = .ok thread)
    (io : ∃ lists, IoThreadTraffic.Valid (state.io.handled cmd thread) lists) :
    Valid { state with io := state.io.handled cmd thread } := by
  obtain ⟨lists, inner⟩ := valid.io
  obtain ⟨live, balanced⟩ := valid.balanced
  obtain ⟨left, after⟩ := IoThread.onIotCmd_balanced balanced done
  obtain ⟨sockets, _, commands, _⟩ := inner.at draining
  rcases commands.deliverable cmd (by simp [IoThreadTraffic.Control.hand]) with
    rfl | ⟨cb, addr, rfl, idle⟩
  · obtain ⟨_, _, _, kept, sameQueue⟩ := IoThread.onIotCmd_die sockets done
    refine valid.same io ⟨left, after⟩ ?_ ?_
    · intro other
      by_cases watched : ∃ cb, state.io.thread.Watched cb other
      · obtain ⟨cb, watched⟩ := watched
        refine iff_of_false ?_ (not_unwatched_of_watched watched)
        intro unwatched
        obtain ⟨node, found, inactive⟩ := unwatched
        rcases IoThread.onIotCmd_die_heap done other with gone | same
        · cases gone.symm.trans found
        · exact not_unwatched_of_watched watched ⟨node, same.symm.trans found, inactive⟩
      · refine unwatched_congr (congrArg _ (kept other fun cb member => watched ⟨cb, ?_⟩))
        exact (sockets.watched cb other).mpr member
    · simp [State.unwatched, IoThreadTraffic.State.inFlight, IoThreadTraffic.State.handled,
        IoThreadTraffic.Control.hand, draining, sameQueue]
  · obtain ⟨after', run, inserted, kept, sameQueue⟩ :=
      @IoThread.onIotCmd_handOver _ _ _ _ _ sockets reads fuel idle
    cases done.symm.trans run
    have flight : state.unwatched = addr :: State.unwatched { state with
        io := state.io.handled ⟨IoThread.handOverCmd cb, some addr⟩ thread } := by
      simp [State.unwatched, IoThreadTraffic.State.inFlight, IoThreadTraffic.State.handled,
        IoThreadTraffic.Control.hand, draining, sameQueue]
    have distinct := valid.distinct
    rw [flight, List.nodup_cons] at distinct
    refine ⟨io, ⟨left, after⟩, fun other => ?_, distinct.2⟩
    have watched : thread.Watched cb addr := (inserted.watched cb addr).mpr (by simp)
    by_cases same : other = addr
    · subst same
      exact iff_of_false (not_unwatched_of_watched watched) distinct.1
    · have before := valid.unwatched other
      rw [flight, List.mem_cons, or_iff_right same] at before
      exact (unwatched_congr (congrArg _ (kept other same))).trans before

theorem Valid.step (valid : Valid state) {label : IoThreadTraffic.Label}
    (taken : Step layout state label next) : Valid next := by
  obtain ⟨lists, inner⟩ := valid.io
  obtain ⟨live, balanced⟩ := valid.balanced
  have io := inner.step (io_step taken)
  cases taken with
  | listen free => exact valid.handOver .onIoThreadAccept free rfl rfl
  | connect free => exact valid.handOver .onIoThreadReadwrite free rfl rfl
  | accept waiting _ free done => exact valid.accept waiting free done
  | other taken closed =>
      cases taken with
      | listen | connect | accept => cases closed
      | readwrite waiting watched done => exact valid.readwrite waiting watched done
      | command draining done => exact valid.command draining done io
      | die =>
          refine valid.same io ⟨live, balanced⟩ (fun _ => Iff.rfl) ?_
          have pending := (inner.queue.enqueue_pending ⟨iotCmdIoThreadDie, none⟩).2
          rcases pending with same | appended
          · simp [State.unwatched, IoThreadTraffic.State.inFlight, IoThreadTraffic.State.die,
              IoThread.die, same]
          · simp [State.unwatched, IoThreadTraffic.State.inFlight, IoThreadTraffic.State.die,
              IoThread.die, appended]
      | sendDie | send => exact valid.same io ⟨live, balanced⟩ (fun _ => Iff.rfl) rfl
      | start created =>
          have same := IoThreadTraffic.start_eq (inner.watching.trans (by rw [created]; rfl))
          refine valid.same io ⟨live, ?_⟩ ?_ ?_
          · rw [same]
            exact balanced.congr (fun _ => rfl) rfl
          · rw [same]
            exact fun _ => Iff.rfl
          · rw [same]
            simp only [State.unwatched, IoThreadTraffic.State.inFlight, created]
            rfl
      | wake waiting =>
          refine valid.same io ⟨live, balanced⟩ (fun _ => Iff.rfl) ?_
          simp only [State.unwatched, IoThreadTraffic.State.inFlight, waiting]
          rfl
      | leave waiting =>
          refine valid.same io ⟨live, balanced⟩ (fun _ => Iff.rfl) ?_
          simp [State.unwatched, IoThreadTraffic.State.inFlight, waiting,
            IoThreadTraffic.Control.hand]
      | stop left =>
          have same := IoThreadTraffic.stop_eq (inner.watching.trans (by rw [left]; rfl))
          refine valid.same io ⟨live, ?_⟩ ?_ ?_
          · rw [same]
            exact balanced.congr (fun _ => rfl) rfl
          · rw [same]
            exact fun _ => Iff.rfl
          · rw [same]
            simp only [State.unwatched, IoThreadTraffic.State.inFlight, left]
            rfl
      | iterate draining =>
          rcases inner.queue.take_cases with ⟨_, nothing⟩ | ⟨cmd, after, removed, _, shape, _⟩
          · have same : state.io.iterate = { state.io with control := .waiting } := by
              simp only [IoThreadTraffic.State.iterate, nothing]
            refine valid.same io ?_ ?_ ?_
            · exact ⟨live, by rw [same]; exact balanced⟩
            · rw [same]
              exact fun _ => Iff.rfl
            · rw [same]
              simp [State.unwatched, IoThreadTraffic.State.inFlight, draining,
                IoThreadTraffic.Control.hand]
          · have same : state.io.iterate = { state.io with
                thread := { state.io.thread with cmdQ := after }
                control := .draining (some cmd) } := by
              simp only [IoThreadTraffic.State.iterate, removed]
            refine valid.same io ?_ ?_ ?_
            · exact ⟨live, by rw [same]; exact balanced⟩
            · rw [same]
              exact fun _ => Iff.rfl
            · rw [same]
              simp [State.unwatched, IoThreadTraffic.State.inFlight, draining,
                IoThreadTraffic.Control.hand, shape]

theorem valid (reachable : (system layout).Reachable state) : Valid state := by
  refine reachable.invariant Valid ?_ fun _ _ _ before taken => before.step taken
  intro state starts
  obtain ⟨io, initial, rfl⟩ := starts
  obtain ⟨cells, block, memory, rfl⟩ := initial
  exact {
    io := ⟨_, IoThreadTraffic.fresh_valid layout cells block memory⟩
    balanced := ⟨[], List.nodup_nil, fun _ => by simp [fd?, IoThreadTraffic.State.fresh,
      IoThread.ctor], .nil⟩
    unwatched := fun _ => by simp [Unwatched, State.unwatched, IoThreadTraffic.State.fresh,
      IoThread.ctor, IoThreadTraffic.State.inFlight, IoThreadTraffic.Control.hand]
    distinct := List.nodup_nil }

/-- The objects that there are. -/
def State.held (state : State) (lists : SocketCallback → List Addr) : List Addr :=
  lists .onIoThreadAccept ++ lists .onIoThreadReadwrite ++ state.unwatched

/-- Every descriptor that was opened is closed, once for each time that it was
opened, or belongs to the one object that holds it; and every object is on one of
the two lists, in a command that has not been carried out, or lost. -/
structure Conserves (state : State) (lists : SocketCallback → List Addr) : Prop where
  chain : ∀ cb, LinkedList.Chain state.io.thread.links (state.io.thread.list cb) (lists cb)
  nodup : (state.held lists).Nodup
  allocated : ∀ addr, addr ∈ state.held lists ↔ (state.io.thread.heap addr).isSome
  balance : state.opened.Perm
    (state.io.thread.closed ++ (state.held lists).filterMap state.io.thread.fd?)
  stopped : state.io.control = .stopped → ∀ cb, lists cb = []

theorem conserves (layout : IoBufferLayout) (state : State)
    (reachable : (system layout).Reachable state) : ∃ lists, Conserves state lists := by
  obtain ⟨⟨lists, inner⟩, ⟨live, balanced⟩, unwatched, distinct⟩ := valid reachable
  have watched (cb : SocketCallback) (addr : Addr) := inner.sockets.watched cb addr
  have member : ∀ addr, addr ∈ state.held lists ↔
      (state.io.thread.Watched .onIoThreadAccept addr ∨
        state.io.thread.Watched .onIoThreadReadwrite addr) ∨
        Unwatched state.io.thread.toSocketHeap addr := by
    intro addr
    rw [State.held, List.mem_append, List.mem_append, ← watched, ← watched, ← unwatched]
  have allocated : ∀ addr, addr ∈ state.held lists ↔ (state.io.thread.heap addr).isSome := by
    intro addr
    rw [member, Option.isSome_iff_exists]
    constructor
    · intro held
      rcases held with (watched | watched) | ⟨sockobj, found, _⟩
      · obtain ⟨sockobj, found, _⟩ := watched
        exact ⟨sockobj, found⟩
      · obtain ⟨sockobj, found, _⟩ := watched
        exact ⟨sockobj, found⟩
      · exact ⟨sockobj, found⟩
    · intro live
      obtain ⟨sockobj, found⟩ := live
      cases active : sockobj.watcher.active with
      | false => exact .inr ⟨sockobj, found, active⟩
      | true =>
          left
          cases kind : sockobj.watcher.cb with
          | onIoThreadAccept => exact .inl ⟨sockobj, found, active, kind⟩
          | onIoThreadReadwrite => exact .inr ⟨sockobj, found, active, kind⟩
  have nodup : (state.held lists).Nodup := by
    refine List.nodup_append.mpr ⟨List.nodup_append.mpr ⟨(inner.sockets.chain _).nodup,
      (inner.sockets.chain _).nodup, ?_⟩, distinct, ?_⟩
    · intro addr first other second same
      subst same
      cases inner.sockets.apart first second
    · intro addr listed other waits same
      subst same
      rw [List.mem_append, ← watched, ← watched] at listed
      have idle := (unwatched addr).mpr waits
      rcases listed with watched | watched
      · exact not_unwatched_of_watched watched idle
      · exact not_unwatched_of_watched watched idle
  have perm : live.Perm (state.held lists) := by
    refine (List.perm_ext_iff_of_nodup balanced.nodup nodup).mpr fun addr => ?_
    rw [balanced.allocated, allocated, fd?, Option.isSome_map]
  exact ⟨lists, inner.sockets.chain, nodup, allocated,
    balanced.balance.trans ((perm.filterMap _).append_left _),
    fun stopped => (inner.ended (.inr stopped)).2⟩

/-- A connection accepted on a listening socket has been closed by its peer. -/
theorem conserves_closed : ∃ state lists, state.opened = [3, 5] ∧ state.io.thread.closed = [5] ∧
    Conserves state lists := by
  have fresh : (system .lp64).Reachable ⟨.fresh .lp64 (fun _ => ⟨0, none⟩) 0 fun _ => 0, [], []⟩ :=
    .start ⟨_, ⟨_, _, _, rfl⟩, rfl⟩
  have started := fresh.step (.other (.start rfl) rfl)
  have listen := started.step (@Step.listen _ _ 0 3 2 1 6 [] rfl)
  have sent := listen.step (.other (.send (by decide)) rfl)
  have woken := sent.step (.other (.wake rfl (by decide) rfl rfl) rfl)
  have taken := woken.step (.other (.iterate rfl) rfl)
  have listening := taken.step
    (.other (@IoThreadTraffic.Step.command _ _ _ (fun _ => .kept) 0 _ rfl rfl) rfl)
  have waiting := listening.step (.other (.iterate rfl) rfl)
  have accepted := waiting.step (@Step.accept _ _ 0 true ⟨true, false, false⟩ ⟨5, []⟩ 1 _
    rfl ⟨_, rfl, rfl, rfl⟩ rfl rfl)
  have closed := accepted.step (.other (@IoThreadTraffic.Step.readwrite _ _ 1 1
    ⟨true, false, false⟩ 0 _ rfl ⟨_, rfl, rfl, rfl⟩ rfl) rfl)
  obtain ⟨lists, conserves⟩ := conserves .lp64 _ closed
  exact ⟨_, lists, rfl, rfl, conserves⟩

end IoThreadDescriptors

end Striga.Greenev
