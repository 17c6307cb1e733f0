import Striga.Greenev.IoThreadTraffic

/-! `io_thread_listen` from the resolved addresses to the sockets handed to the
IO thread. Nothing else uses the thread's queue meanwhile. -/

set_option autoImplicit false

namespace Striga.Greenev

/-- A line of the log; `LOG_ERRNO` adds the text of the number. -/
inductive LogLine where
  | warning (text : String)
  | error (text : String)
  | errno (errno : Int) (text : String)
  deriving DecidableEq, Repr

def LogLine.isError : LogLine → Bool
  | .warning _ => false
  | .error _ | .errno _ _ => true

/-- What `getnameinfo` finds for an address. -/
inductive NameInfo where
  | found (host port : String)
  | failed (gaiStrerror : String)
  deriving DecidableEq, Repr

/-- `hoststr` and `portstr`, and what is logged on the way to them. -/
def NameInfo.resolve (kind : String) : NameInfo → List LogLine × String × String
  | .found host port => ([], host, port)
  | .failed gaiStrerror =>
      ([.warning ("Problem occured when resolving " ++ kind ++ " socket: " ++ gaiStrerror)],
        "?", "?")

/-- What `getaddrinfo` returns. -/
inductive Resolved (Candidate : Type) where
  | failed (rc : Int) (gaiStrerror : String)
  | found (ans : List Candidate)

def Resolved.ans {Candidate : Type} : Resolved Candidate → List Candidate
  | .failed _ _ => []
  | .found ans => ans

/-- `struct addrinfo` with what the calls on it return; `errno` is what the one
that fails leaves behind. -/
structure AddrInfo where
  family : Int
  socktype : Int
  protocol : Int
  addr : List UInt8
  name : NameInfo
  socket : Int
  setsockopt : Int
  errno : Int
  errno_ne : errno ≠ 0

structure ListenAddr extends AddrInfo where
  bind : Int
  listen : Int

namespace ListenAddr

/-- The text with which the loop over the addresses gives up on this one. -/
def gaveUp (rp : ListenAddr) (host port : String) : Option String :=
  if rp.socket < 0 then some "Failed creating listen socket"
  else if rp.setsockopt = -1 then
    some "Failed when setting option SO_REUSEADDR to listen socket"
  else if rp.bind ≠ 0 then some ("Failed when binding listen socket to " ++ host ++ " " ++ port)
  else if rp.listen ≠ 0 then some ("Listening on " ++ host ++ " " ++ port)
  else none

def listens (rp : ListenAddr) : Bool :=
  0 ≤ rp.socket && rp.setsockopt ≠ -1 && rp.bind = 0 && rp.listen = 0

private theorem gaveUp_eq_none_iff {rp : ListenAddr} {host port : String} :
    rp.gaveUp host port = none ↔ rp.listens = true := by
  unfold gaveUp listens
  split
  · rename_i refused
    simp [Int.not_le.mpr refused]
  · rename_i created
    have descriptor : 0 ≤ rp.socket := Int.not_lt.mp created
    split
    · rename_i unset
      simp [unset]
    · split
      · rename_i unset unbound
        simp [unbound]
      · split <;> simp_all

end ListenAddr

/-- `listen_socket` and `failure` behind the first loop of `io_thread_listen`. -/
structure Prepared where
  listenSocket : List Int
  failure : Bool
  log : List LogLine

def prepareSockets : List ListenAddr → Prepared
  | [] => ⟨[], false, []⟩
  | rp :: rest =>
      let (log, host, port) := rp.name.resolve "listen"
      match rp.gaveUp host port with
      | some text => ⟨rp.socket :: rest.map fun _ => -1, true, log ++ [.errno rp.errno text]⟩
      | none =>
          let prepared := prepareSockets rest
          { prepared with
            listenSocket := rp.socket :: prepared.listenSocket
            log := log ++ prepared.log }

namespace IoThread

/-- A new object put with its command; the result of the put is ignored. -/
def putSocket (this : IoThread) (id : Int) (addr : Addr) (sockobj : SockObj) : IoThread :=
  { this with
    toSocketHeap := this.store addr sockobj
    cmdQ := (this.cmdQ.put ⟨id, some addr⟩).2 }

/-- The second loop of `io_thread_listen`, from the given index on; `malloc`
tells what the call of each round returns. -/
def putSockets (malloc : Nat → Addr) : Nat → List (ListenAddr × Int) → IoThread → IoThread
  | _, [], this => this
  | i, (rp, fd) :: rest, this =>
      putSockets malloc (i + 1) rest (this.putSocket iotCmdIoThreadListen (malloc i)
        (listeningSocket fd rp.family rp.socktype rp.protocol rp.addr))

def closeSockets (this : IoThread) (listenSocket : List Int) : IoThread :=
  listenSocket.foldl
    (fun this fd => if fd ≥ 0 then { this with toSocketHeap := this.close fd } else this) this

def ioThreadListen (malloc : Nat → Addr) (resolved : Resolved ListenAddr) (this : IoThread) :
    IoThread × List LogLine :=
  match resolved with
  | .failed rc gaiStrerror =>
      (this, [.error ("Failed to resolve listen address: (" ++ toString rc ++ ") " ++ gaiStrerror)])
  | .found ans =>
      let prepared := prepareSockets ans
      if prepared.failure then
        (this.closeSockets prepared.listenSocket, prepared.log ++
          [.warning "Issue when preparing listen sockets, no listen socket created"])
      else
        (this.putSockets malloc 0 (ans.zip prepared.listenSocket), prepared.log)

end IoThread

/-- The descriptors that `socket` returned before and at the first failing call. -/
def openedSockets : List ListenAddr → List Int
  | [] => []
  | rp :: rest =>
      if rp.socket < 0 then []
      else rp.socket :: if rp.listens then openedSockets rest else []

private theorem prepareSockets_cons (rp : ListenAddr) (rest : List ListenAddr) : ∃ log,
    prepareSockets (rp :: rest) =
      if rp.listens then
        ⟨rp.socket :: (prepareSockets rest).listenSocket, (prepareSockets rest).failure, log⟩
      else
        ⟨rp.socket :: rest.map fun _ => -1, true, log⟩ := by
  generalize named : rp.name.resolve "listen" = resolved
  obtain ⟨log, host, port⟩ := resolved
  cases given : rp.gaveUp host port with
  | none =>
      have listens := ListenAddr.gaveUp_eq_none_iff.mp given
      exact ⟨_, by simp only [prepareSockets, named, given, listens, if_true]; rfl⟩
  | some text =>
      have fails : ¬ rp.listens = true := by
        rw [← @ListenAddr.gaveUp_eq_none_iff rp host port, given]
        exact Option.some_ne_none text
      exact ⟨_, by simp only [prepareSockets, named, given, if_neg fails]; rfl⟩

theorem prepareSockets_failure (ans : List ListenAddr) :
    (prepareSockets ans).failure = !ans.all ListenAddr.listens := by
  induction ans with
  | nil => rfl
  | cons rp rest ih =>
      obtain ⟨log, prepared⟩ := prepareSockets_cons rp rest
      rw [prepared]
      cases listens : rp.listens <;> simp [ih, listens]

theorem prepareSockets_opened (ans : List ListenAddr) :
    (prepareSockets ans).listenSocket.filter (fun fd => fd ≥ 0) = openedSockets ans := by
  induction ans with
  | nil => rfl
  | cons rp rest ih =>
      obtain ⟨log, prepared⟩ := prepareSockets_cons rp rest
      rw [prepared, openedSockets]
      cases listens : rp.listens with
      | true =>
          have created : rp.socket ≥ 0 := by simp_all [ListenAddr.listens]
          simp [ih, created, Int.not_lt.mpr created]
      | false =>
          by_cases refused : rp.socket < 0
          · simp [refused, Int.not_le.mpr refused]
          · simp [refused, Int.not_lt.mp refused]

private theorem prepareSockets_listening {ans : List ListenAddr}
    (all : ∀ rp ∈ ans, rp.listens = true) :
    (prepareSockets ans).listenSocket = ans.map fun rp => rp.socket := by
  induction ans with
  | nil => rfl
  | cons rp rest ih =>
      obtain ⟨log, prepared⟩ := prepareSockets_cons rp rest
      obtain ⟨listens, later⟩ := List.forall_mem_cons.mp all
      rw [prepared, if_pos listens, List.map_cons, ih later]

namespace IoThread

/-- The commands that hand over the objects of the second loop. -/
def listenCmds (malloc : Nat → Addr) (first count : Nat) : List (Cmd (Option Addr)) :=
  (List.range count).map fun i => ⟨iotCmdIoThreadListen, some (malloc (first + i))⟩

structure AllListening (malloc : Nat → Addr) (ans : List ListenAddr) (before after : IoThread) :
    Prop where
  listens : ∀ rp ∈ ans, rp.listens = true
  sockets : ∀ i rp, ans[i]? = some rp → after.heap (malloc i) = some
    (listeningSocket rp.socket rp.family rp.socktype rp.protocol rp.addr)
  accepted : after.cmdQ.pending = before.cmdQ.pending ++ listenCmds malloc 0 ans.length
  still_open : after.closed = before.closed

structure NoneListening (ans : List ListenAddr) (before after : IoThread) : Prop where
  accepted : after.cmdQ.pending = before.cmdQ.pending
  closed : after.closed = before.closed ++ openedSockets ans

/-- A socket object that a pending command hands over. -/
def Queued (this : IoThread) (addr : Addr) : Prop :=
  ∃ cmd ∈ this.cmdQ.pending, cmd.arg = some addr

structure AllOrNothing (malloc : Nat → Addr) (ans : List ListenAddr) (before after : IoThread) :
    Prop where
  outcome : AllListening malloc ans before after ∨ NoneListening ans before after
  objects : ∀ addr, after.heap addr ≠ none → before.heap addr = none → after.Queued addr
  descriptors : ∀ fd ∈ openedSockets ans, fd ∈ after.closed.drop before.closed.length ∨
    ∃ addr sockobj, after.heap addr = some sockobj ∧ sockobj.watcher.fd = fd ∧ after.Queued addr

private theorem closeSockets_eq (listenSocket : List Int) : ∀ {this : IoThread},
    this.closeSockets listenSocket = { this with
      closed := this.closed ++ listenSocket.filter fun fd => fd ≥ 0 } := by
  induction listenSocket with
  | nil =>
      intro this
      simp [closeSockets]
  | cons fd rest ih =>
      intro this
      unfold closeSockets at ih ⊢
      rw [List.foldl_cons, ih]
      by_cases created : fd ≥ 0 <;> simp [created, SocketHeap.close]

private theorem listenCmds_succ (malloc : Nat → Addr) (first count : Nat) :
    listenCmds malloc first (count + 1) =
      ⟨iotCmdIoThreadListen, some (malloc first)⟩ :: listenCmds malloc (first + 1) count := by
  simp only [listenCmds, List.range_succ_eq_map, List.map_cons, List.map_map, Nat.add_zero]
  congr 2
  funext i
  simp only [Function.comp_apply, Nat.succ_eq_add_one]
  rw [Nat.add_assoc, Nat.add_comm 1 i]

/-- The address with what the first loop has left in `listen_socket` for it. -/
def prepared (ans : List ListenAddr) : List (ListenAddr × Int) :=
  ans.map fun rp => (rp, rp.socket)

private theorem putSockets_cmdQ (malloc : Nat → Addr) (ans : List ListenAddr) :
    ∀ {first : Nat} {this : IoThread}, (this.putSockets malloc first (prepared ans)).cmdQ =
      (listenCmds malloc first ans.length).foldl (fun queue cmd => (queue.put cmd).2)
        this.cmdQ := by
  induction ans with
  | nil => exact rfl
  | cons rp rest ih =>
      intro first this
      rw [List.length_cons, listenCmds_succ]
      exact ih

private theorem putSockets_closed (malloc : Nat → Addr) (ans : List ListenAddr) :
    ∀ {first : Nat} {this : IoThread},
      (this.putSockets malloc first (prepared ans)).closed = this.closed := by
  induction ans with
  | nil => exact rfl
  | cons rp rest ih => exact ih

private theorem putSockets_elsewhere (malloc : Nat → Addr) (ans : List ListenAddr) {addr : Addr} :
    ∀ {first : Nat} {this : IoThread}, (∀ i < ans.length, addr ≠ malloc (first + i)) →
      (this.putSockets malloc first (prepared ans)).heap addr = this.heap addr := by
  induction ans with
  | nil => exact fun _ => rfl
  | cons rp rest ih =>
      intro first this apart
      have later : ∀ i < rest.length, addr ≠ malloc (first + 1 + i) := by
        intro i inside
        rw [Nat.add_assoc, Nat.add_comm 1 i]
        exact apart (i + 1) (by simpa using inside)
      refine (ih later).trans ?_
      exact Function.update_of_ne (apart 0 (by simp)) _ _

private theorem putSockets_at {malloc : Nat → Addr} (distinct : Function.Injective malloc)
    (ans : List ListenAddr) : ∀ {first i : Nat} {rp : ListenAddr} {this : IoThread},
      ans[i]? = some rp → (this.putSockets malloc first (prepared ans)).heap (malloc (first + i)) =
        some (listeningSocket rp.socket rp.family rp.socktype rp.protocol rp.addr) := by
  induction ans with
  | nil =>
      intro first i rp this found
      cases found
  | cons head rest ih =>
      intro first i rp this found
      cases i with
      | zero =>
          cases found
          refine (putSockets_elsewhere malloc rest ?_).trans (Function.update_self _ _ _)
          intro i _ same
          have index := distinct same
          omega
      | succ i =>
          rw [List.getElem?_cons_succ] at found
          rw [show first + (i + 1) = first + 1 + i by omega]
          exact ih found

/-- `malloc` returns addresses of no live object, one for each call. -/
structure Mallocs (malloc : Nat → Addr) (this : IoThread) : Prop where
  distinct : Function.Injective malloc
  free : ∀ i, this.heap (malloc i) = none

variable {malloc : Nat → Addr} {ans : List ListenAddr} {this : IoThread}

theorem ioThreadListen_failing (fails : ¬ ∀ rp ∈ ans, rp.listens = true) :
    (this.ioThreadListen malloc (.found ans)).1 =
      { this with closed := this.closed ++ openedSockets ans } := by
  have failure : (prepareSockets ans).failure = true := by
    rw [prepareSockets_failure, Bool.not_eq_true', ← Bool.not_eq_true, List.all_eq_true]
    exact fails
  simp only [ioThreadListen, failure, if_true]
  rw [closeSockets_eq, prepareSockets_opened]

theorem ioThreadListen_listening (all : ∀ rp ∈ ans, rp.listens = true) :
    (this.ioThreadListen malloc (.found ans)).1 = this.putSockets malloc 0 (prepared ans) := by
  have failure : (prepareSockets ans).failure = false := by
    rw [prepareSockets_failure, List.all_eq_true.mpr all, Bool.not_true]
  have pairs : ans.zip (prepareSockets ans).listenSocket = prepared ans := by
    rw [prepareSockets_listening all, prepared, List.map_prod_left_eq_zip]
  simp only [ioThreadListen, failure, Bool.false_eq_true, if_false, pairs]

private theorem putSockets_pending (valid : this.cmdQ.WellFormed) :
    (this.putSockets malloc 0 (prepared ans)).cmdQ.pending =
      this.cmdQ.pending ++ (listenCmds malloc 0 ans.length).take this.cmdQ.room := by
  rw [putSockets_cmdQ]
  exact valid.puts_pending _

end IoThread

private theorem openedSockets_listening {ans : List ListenAddr}
    (all : ∀ rp ∈ ans, rp.listens = true) :
    openedSockets ans = ans.map fun rp => rp.socket := by
  induction ans with
  | nil => rfl
  | cons rp rest ih =>
      obtain ⟨listens, later⟩ := List.forall_mem_cons.mp all
      have created : ¬ rp.socket < 0 := by
        have all := listens
        simp only [ListenAddr.listens, Bool.and_eq_true, decide_eq_true_eq] at all
        omega
      rw [openedSockets, if_neg created, if_pos listens, ih later, List.map_cons]

namespace IoThread

variable {malloc : Nat → Addr} {ans : List ListenAddr} {before : IoThread}

theorem AllOrNothing.of_failing (fails : ¬ ∀ rp ∈ ans, rp.listens = true) :
    AllOrNothing malloc ans before (before.ioThreadListen malloc (.found ans)).1 := by
  rw [ioThreadListen_failing fails]
  constructor
  · exact .inr ⟨rfl, rfl⟩
  · exact fun addr stored free => absurd free stored
  · intro fd opened
    rw [List.drop_left]
    exact .inl opened

theorem AllOrNothing.of_room (valid : before.cmdQ.WellFormed) (mallocs : Mallocs malloc before)
    (all : ∀ rp ∈ ans, rp.listens = true) (room : ans.length ≤ before.cmdQ.room) :
    AllOrNothing malloc ans before (before.putSockets malloc 0 (prepared ans)) := by
  have accepted := @putSockets_pending malloc ans before valid
  rw [List.take_of_length_le (by simpa [listenCmds] using room)] at accepted
  have placed : ∀ i rp, ans[i]? = some rp →
      (before.putSockets malloc 0 (prepared ans)).heap (malloc i) =
        some (listeningSocket rp.socket rp.family rp.socktype rp.protocol rp.addr) := by
    intro i rp found
    have stored := @putSockets_at malloc mallocs.distinct ans 0 i rp before found
    rwa [Nat.zero_add] at stored
  have queued : ∀ i < ans.length,
      (before.putSockets malloc 0 (prepared ans)).Queued (malloc i) := by
    intro i inside
    refine ⟨⟨iotCmdIoThreadListen, some (malloc i)⟩, ?_, rfl⟩
    rw [accepted, List.mem_append]
    exact .inr (List.mem_map.mpr ⟨i, List.mem_range.mpr inside, by rw [Nat.zero_add]⟩)
  constructor
  · exact .inl ⟨all, placed, accepted, putSockets_closed malloc ans⟩
  · intro addr stored free
    by_contra unowned
    have apart : ∀ i < ans.length, addr ≠ malloc (0 + i) := by
      intro i inside same
      rw [same, Nat.zero_add] at unowned
      exact unowned (queued i inside)
    exact stored ((putSockets_elsewhere malloc ans apart).trans free)
  · intro fd opened
    rw [openedSockets_listening all] at opened
    obtain ⟨rp, member, rfl⟩ := List.mem_map.mp opened
    obtain ⟨i, found⟩ := List.getElem?_of_mem member
    have inside := (List.getElem?_eq_some_iff.mp found).1
    exact .inr ⟨malloc i, _, placed i rp found, rfl, queued i inside⟩

/-- With too little room, some objects are neither queued nor given up. -/
theorem AllOrNothing.room (valid : before.cmdQ.WellFormed)
    (all : ∀ rp ∈ ans, rp.listens = true)
    (sound : AllOrNothing malloc ans before (before.putSockets malloc 0 (prepared ans))) :
    ans.length ≤ before.cmdQ.room := by
  have pending := @putSockets_pending malloc ans before valid
  rcases sound.outcome with listening | nothing
  · have whole := congrArg List.length
      (List.append_cancel_left (listening.accepted.symm.trans pending))
    simp only [List.length_take, listenCmds, List.length_map, List.length_range] at whole
    omega
  · have closed := nothing.closed
    rw [putSockets_closed, List.self_eq_append_right, openedSockets_listening all,
      List.map_eq_nil_iff] at closed
    simp [closed]

theorem ioThreadListen_allOrNothing_iff (malloc : Nat → Addr) (resolved : Resolved ListenAddr)
    (before : IoThread) (valid : before.cmdQ.WellFormed) (mallocs : Mallocs malloc before) :
    AllOrNothing malloc resolved.ans before (before.ioThreadListen malloc resolved).1 ↔
      ((∀ rp ∈ resolved.ans, rp.listens = true) → resolved.ans.length ≤ before.cmdQ.room) := by
  cases resolved with
  | failed rc gaiStrerror =>
      apply iff_of_true
      · exact ⟨.inr ⟨rfl, by simp [Resolved.ans, openedSockets, ioThreadListen]⟩,
          fun addr stored free => absurd free stored, by simp [Resolved.ans, openedSockets]⟩
      · exact fun _ => Nat.zero_le _
  | found ans =>
      by_cases all : ∀ rp ∈ ans, rp.listens = true
      · rw [ioThreadListen_listening all]
        constructor
        · exact fun sound _ => sound.room valid all
        · exact fun room => .of_room valid mallocs all (room all)
      · exact iff_of_true (.of_failing all) fun always => absurd always all

/-- A new thread whose queue has taken the given number of commands. -/
def queuedUp (count : UInt32) : IoThread :=
  let this := IoThread.ctor .lp64 (fun _ => ⟨iotCmdIoThreadDie, none⟩) 0 fun _ => 0
  { this with cmdQ := { this.cmdQ with qHead := count } }

def listeningAddr (family socket : Int) : ListenAddr :=
  ⟨⟨family, 1, 6, [], .found "::" "http", socket, 0, 98, by decide⟩, 0, 0⟩

theorem allOrNothing_idle :
    AllOrNothing id [listeningAddr 10 7, listeningAddr 2 8] (queuedUp 0)
      ((queuedUp 0).ioThreadListen id (.found [listeningAddr 10 7, listeningAddr 2 8])).1 :=
  (ioThreadListen_allOrNothing_iff id (.found [listeningAddr 10 7, listeningAddr 2 8])
    (queuedUp 0) ⟨by decide, by decide⟩ ⟨fun _ _ same => same, fun _ => rfl⟩).mpr
    fun _ => by decide

/-- With one place left in the queue, the second of two sockets stays open with
nobody to accept on it. -/
theorem not_allOrNothing_nearlyFull :
    ¬ AllOrNothing id [listeningAddr 10 7, listeningAddr 2 8] (queuedUp 254)
      ((queuedUp 254).ioThreadListen id (.found [listeningAddr 10 7, listeningAddr 2 8])).1 := by
  have all : ∀ rp ∈ [listeningAddr 10 7, listeningAddr 2 8], rp.listens = true := by decide
  rw [ioThreadListen_listening all]
  intro sound
  have room := sound.room ⟨by decide, by decide⟩ all
  have filled : (queuedUp 254).cmdQ.pending.length = 254 := Lib.Ring.contents_length
  rw [WatcherCmdQ.room, filled] at room
  exact absurd room (by decide)

end IoThread

namespace IoThreadTraffic

variable {layout : IoBufferLayout} {state : State} {malloc : Nat → Addr} {ans : List ListenAddr}

/-- A put of a new object is a hand-over, and the wakeup unless the queue is full. -/
theorem reachable_putSocket {label : Label} {id : Int} {addr : Addr} {sockobj : SockObj}
    (reachable : (system layout).Reachable state)
    (taken : (system layout).step state label (state.handOver id addr sockobj)) :
    ∃ next, (system layout).Reachable next ∧
      next.thread = state.thread.putSocket id addr sockobj := by
  have handed := reachable.step taken
  cases accepted : (state.thread.cmdQ.enqueue ⟨id, some addr⟩).1 with
  | true =>
      have waking : 0 < (state.handOver id addr sockobj).sending := by
        simp [State.handOver, accepted]
      refine ⟨_, handed.step (.send waking), ?_⟩
      simp [State.send, State.handOver, IoThread.handOver, IoThread.putSocket, WatcherCmdQ.put,
        accepted]
  | false =>
      refine ⟨_, handed, ?_⟩
      simp [State.handOver, IoThread.handOver, IoThread.putSocket, WatcherCmdQ.put, accepted]

/-- The second loop of `io_thread_listen` takes the thread from one state of its
runs to another. -/
private theorem reachable_putSockets (distinct : Function.Injective malloc)
    (ans : List ListenAddr) :
    ∀ {first : Nat} {state : State}, (system layout).Reachable state →
      (∀ i, first ≤ i → state.thread.heap (malloc i) = none) →
      ∃ next, (system layout).Reachable next ∧
        next.thread = state.thread.putSockets malloc first (IoThread.prepared ans) := by
  induction ans with
  | nil => exact fun reachable _ => ⟨_, reachable, rfl⟩
  | cons rp rest ih =>
      intro first state reachable free
      obtain ⟨middle, passed, put⟩ := reachable_putSocket reachable
        (@Step.listen layout state (malloc first) rp.socket rp.family rp.socktype rp.protocol
          rp.addr (free first (Nat.le_refl first)))
      have later : ∀ i, first + 1 ≤ i → middle.thread.heap (malloc i) = none := by
        intro i behind
        have differs : malloc i ≠ malloc first := distinct.ne (by omega)
        rw [put]
        exact (Function.update_of_ne differs _ _).trans (free i (Nat.le_of_succ_le behind))
      obtain ⟨next, reached, puts⟩ := ih passed later
      exact ⟨next, reached, puts.trans (by rw [put]; rfl)⟩

theorem reachable_ioThreadListen (reachable : (system layout).Reachable state)
    (mallocs : IoThread.Mallocs malloc state.thread) (all : ∀ rp ∈ ans, rp.listens = true) :
    ∃ next, (system layout).Reachable next ∧
      next.thread = (state.thread.ioThreadListen malloc (.found ans)).1 := by
  rw [IoThread.ioThreadListen_listening all]
  exact reachable_putSockets mallocs.distinct ans reachable fun i _ => mallocs.free i

end IoThreadTraffic

end Striga.Greenev
