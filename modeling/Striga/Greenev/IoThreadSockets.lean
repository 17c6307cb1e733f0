import Striga.Lib.LinkedList
import Striga.Greenev.IoThread

/-! The two socket lists of the IO thread: the watched socket objects are those
on the lists, and the loop counts them. Each operation on the lists is shown to
keep this up. -/

set_option autoImplicit false

namespace Striga.Greenev

open Lib.LinkedList

def SocketHeap.links (this : SocketHeap) : Links Addr :=
  fun addr => (this.heap addr).map SockObj.next

def SocketHeap.Watched (this : SocketHeap) (cb : SocketCallback) (addr : Addr) : Prop :=
  ∃ sockobj, this.heap addr = some sockobj ∧ sockobj.watcher.active = true ∧
    sockobj.watcher.cb = cb

def SocketHeap.Idle (this : SocketHeap) (cb : SocketCallback) (addr : Addr) : Prop :=
  ∃ sockobj, this.heap addr = some sockobj ∧ sockobj.watcher.active = false ∧
    sockobj.watcher.cb = cb

def IoThread.list (this : IoThread) : SocketCallback → Option Addr
  | .onIoThreadAccept => this.listening
  | .onIoThreadReadwrite => this.established

/-- Each list is well linked, holds exactly the watched objects of its kind,
and the loop counts the objects of both lists besides a given number. -/
structure Lists (count : Int) (this : SocketHeap) (heads : SocketCallback → Option Addr)
    (lists : SocketCallback → List Addr) : Prop where
  chain : ∀ cb, Chain this.links (heads cb) (lists cb)
  watched : ∀ cb addr, this.Watched cb addr ↔ addr ∈ lists cb
  activecnt : this.loop.activecnt =
    count + (lists .onIoThreadAccept).length + (lists .onIoThreadReadwrite).length

variable {count : Int} {this after : SocketHeap} {heads : SocketCallback → Option Addr}
  {lists : SocketCallback → List Addr} {cb : SocketCallback} {addr : Addr}

theorem SocketHeap.Watched.kind {other : SocketCallback} (watched : this.Watched cb addr)
    (again : this.Watched other addr) : cb = other := by
  obtain ⟨sockobj, found, _, kind⟩ := watched
  obtain ⟨sockobj', found', _, kind'⟩ := again
  cases found.symm.trans found'
  exact kind.symm.trans kind'

theorem SocketHeap.Idle.not_watched {other : SocketCallback} (idle : this.Idle cb addr) :
    ¬ this.Watched other addr := by
  intro watched
  obtain ⟨sockobj, found, active, _⟩ := watched
  obtain ⟨sockobj', found', inactive, _⟩ := idle
  cases found.symm.trans found'
  exact Bool.false_ne_true (inactive.symm.trans active)

theorem SocketHeap.watched_congr (same : after.heap addr = this.heap addr) :
    after.Watched cb addr ↔ this.Watched cb addr := by
  simp only [SocketHeap.Watched, same]

theorem SocketHeap.Idle.frame (idle : this.Idle cb addr)
    (same : (after.heap addr).map SockObj.watcher = (this.heap addr).map SockObj.watcher) :
    after.Idle cb addr := by
  obtain ⟨sockobj, found, inactive, kind⟩ := idle
  rw [found] at same
  obtain ⟨sockobj', found', watcher⟩ := Option.map_eq_some_iff.mp same
  exact ⟨sockobj', found', watcher ▸ inactive, watcher ▸ kind⟩

theorem Lists.apart (valid : Lists count this heads lists) {other : SocketCallback}
    (member : addr ∈ lists cb) (again : addr ∈ lists other) : cb = other :=
  ((valid.watched cb addr).mpr member).kind ((valid.watched other addr).mpr again)

theorem Lists.fresh_of_idle (valid : Lists count this heads lists) (idle : this.Idle cb addr)
    (other : SocketCallback) : addr ∉ lists other :=
  fun member => idle.not_watched ((valid.watched other addr).mpr member)

theorem Lists.fresh_of_free (valid : Lists count this heads lists)
    (free : this.heap addr = none) (other : SocketCallback) : addr ∉ lists other := by
  intro member
  obtain ⟨sockobj, found, _⟩ := (valid.watched other addr).mpr member
  cases found.symm.trans free

/-- Putting a new object in front of the list of its kind and starting its
watcher. -/
theorem Lists.insert (valid : Lists count this heads lists) (fresh : ∀ other, addr ∉ lists other)
    {sockobj : SockObj} (next : sockobj.next = heads cb)
    (inactive : sockobj.watcher.active = false) (kind : sockobj.watcher.cb = cb) :
    Lists count (this.ioStart addr sockobj) (Function.update heads cb (some addr))
      (Function.update lists cb (addr :: lists cb)) := by
  have heap : (this.ioStart addr sockobj).heap = Function.update this.heap addr
      (some { sockobj with watcher := { sockobj.watcher with active := true } }) := by
    simp [SocketHeap.ioStart, SocketHeap.store, EvIo.start, inactive]
  have links : (this.ioStart addr sockobj).links =
      Function.update this.links addr (some (heads cb)) := by
    funext node
    by_cases same : node = addr <;> simp [SocketHeap.links, heap, same, next]
  constructor
  · intro other
    rw [links]
    by_cases same : other = cb
    · subst same
      simpa using (valid.chain other).push (fresh other)
    · simpa [same] using (valid.chain other).forget (fresh other)
  · intro other node
    by_cases same : node = addr
    · subst same
      by_cases kinds : other = cb
      · subst kinds
        simp [SocketHeap.Watched, heap, kind]
      · simp [SocketHeap.Watched, heap, kind, kinds, fresh other, Ne.symm kinds]
    · have kept : (this.ioStart addr sockobj).heap node = this.heap node := by simp [heap, same]
      rw [SocketHeap.watched_congr kept, valid.watched]
      by_cases kinds : other = cb
      · subst kinds
        simp [same]
      · simp [kinds]
  · have counted := valid.activecnt
    have ref : (this.ioStart addr sockobj).loop.activecnt = this.loop.activecnt + 1 := by
      simp [SocketHeap.ioStart, EvIo.start, inactive, EvLoop.ref]
    rw [ref, counted]
    cases cb <;> simp <;> omega

theorem Lists.recount (valid : Lists count this heads lists) {loop : EvLoop} {other : Int}
    (counted : loop.activecnt - other = this.loop.activecnt - count) :
    Lists other { this with loop := loop } heads lists := by
  have before := valid.activecnt
  exact ⟨valid.chain, valid.watched, by simp only; omega⟩

theorem Lists.store_fresh (valid : Lists count this heads lists) (free : this.heap addr = none)
    {sockobj : SockObj} (inactive : sockobj.watcher.active = false) :
    Lists count (this.store addr sockobj) heads lists := by
  have others : ∀ node ≠ addr, (this.store addr sockobj).heap node = this.heap node :=
    fun node differs => Function.update_of_ne differs _ _
  constructor
  · intro other
    refine (valid.chain other).frame fun node member => ?_
    have differs := ne_of_mem_of_not_mem member (valid.fresh_of_free free other)
    simp only [SocketHeap.links, others node differs]
  · intro other node
    rw [← valid.watched]
    by_cases same : node = addr
    · subst same
      simp [SocketHeap.Watched, SocketHeap.store, inactive, free]
    · exact SocketHeap.watched_congr (others node same)
  · exact valid.activecnt

/-- Giving up an object of a list whose links go round it. -/
theorem Lists.remove (valid : Lists count this heads lists) (member : addr ∈ lists cb)
    {head : Option Addr} (chain : Chain after.links head ((lists cb).erase addr))
    (gone : after.heap addr = none)
    (links : ∀ node ∉ lists cb, after.links node = this.links node)
    (watcher : ∀ node ≠ addr,
      (after.heap node).map SockObj.watcher = (this.heap node).map SockObj.watcher)
    (unref : after.loop.activecnt = this.loop.activecnt - 1) :
    Lists count after (Function.update heads cb head)
      (Function.update lists cb ((lists cb).erase addr)) := by
  have distinct := (valid.chain cb).nodup
  constructor
  · intro other
    by_cases kinds : other = cb
    · subst kinds
      simpa using chain
    · rw [Function.update_of_ne kinds, Function.update_of_ne kinds]
      refine (valid.chain other).frame fun node again => links node fun shared => ?_
      exact kinds (valid.apart again shared)
  · intro other node
    by_cases same : node = addr
    · subst same
      have nowhere : ¬ after.Watched other node := by
        intro watched
        obtain ⟨sockobj, found, _⟩ := watched
        cases found.symm.trans gone
      refine iff_of_false nowhere ?_
      by_cases kinds : other = cb
      · subst kinds
        simp [distinct.mem_erase_iff]
      · rw [Function.update_of_ne kinds]
        exact fun again => kinds (valid.apart again member)
    · have kept : after.Watched other node ↔ this.Watched other node := by
        have shape := watcher node same
        simp only [SocketHeap.Watched]
        cases found : after.heap node <;> cases found' : this.heap node <;>
          simp_all
      rw [kept, valid.watched]
      by_cases kinds : other = cb
      · subst kinds
        simp [List.mem_erase_of_ne same]
      · simp [kinds]
  · have counted := valid.activecnt
    have shorter := List.length_erase_of_mem member
    have positive := List.length_pos_of_mem member
    rw [unref, counted]
    cases cb <;> simp [shorter] <;> omega

theorem SocketHeap.discard_of_ne {fd : Int} {sockobj : SockObj} {node : Addr}
    (differs : node ≠ addr) :
    (((this.close fd).ioStop addr sockobj).free addr).heap node = this.heap node := by
  simp [SocketHeap.free, SocketHeap.ioStop, SocketHeap.store, SocketHeap.close, differs]

theorem Lists.discard_first (valid : Lists count this heads lists) {rest : List Addr}
    (first : lists cb = addr :: rest) {sockobj : SockObj} (found : this.heap addr = some sockobj) :
    Lists count (((this.close sockobj.watcher.fd).ioStop addr sockobj).free addr)
      (Function.update heads cb sockobj.next) (Function.update lists cb rest) := by
  have member : addr ∈ lists cb := by simp [first]
  obtain ⟨sockobj', found', active, _⟩ := (valid.watched cb addr).mpr member
  cases found'.symm.trans found
  obtain ⟨_, next, link, later⟩ := first ▸ valid.chain cb
  have distinct := (valid.chain cb).nodup
  rw [first, List.nodup_cons] at distinct
  have stored : next = sockobj.next := by
    simpa [SocketHeap.links, found] using link.symm
  have removed : Lists count (((this.close sockobj.watcher.fd).ioStop addr sockobj).free addr)
      (Function.update heads cb sockobj.next)
      (Function.update lists cb ((lists cb).erase addr)) := by
    refine valid.remove member ?_ ?_ ?_ ?_ ?_
    · rw [first, List.erase_cons_head, ← stored]
      refine later.frame fun node inside => ?_
      simp only [SocketHeap.links,
        SocketHeap.discard_of_ne (ne_of_mem_of_not_mem inside distinct.1)]
    · simp [SocketHeap.free]
    · intro node outside
      simp only [SocketHeap.links,
        SocketHeap.discard_of_ne (ne_of_mem_of_not_mem member outside).symm]
    · intro node differs
      rw [SocketHeap.discard_of_ne differs]
    · simp [SocketHeap.free, SocketHeap.ioStop, EvIo.stop, active, EvLoop.unref, SocketHeap.close]
  simpa [first] using removed

/-- A loop of `IO_THREAD_DIE` that comes to its end frees the first objects of
its list, and all of them exactly when the link of each freed object but the
last still reads as it was. -/
theorem Lists.teardown {reads : Addr → FreedRead} {fuel : Nat} {head : Option Addr}
    (valid : Lists count this heads lists) (cb : SocketCallback)
    (done : teardown reads fuel (heads cb) (heads cb) this = .ok (head, after)) :
    ∃ torn rest, lists cb = torn ++ rest ∧
      Lists count after (Function.update heads cb head) (Function.update lists cb rest) ∧
      (∀ node ∉ torn, after.heap node = this.heap node) ∧
      (rest = [] ↔ ∀ node ∈ (lists cb).dropLast, reads node = .kept) := by
  generalize inside : lists cb = addrs at *
  induction addrs generalizing fuel this heads lists with
  | nil =>
      have null : heads cb = none := by simpa [inside] using valid.chain cb
      rw [null, Greenev.teardown] at done
      cases done
      refine ⟨[], [], rfl, ?_, by simp, by simp⟩
      rw [← inside, Function.update_eq_self, ← null, Function.update_eq_self]
      exact valid
  | cons addr addrs ih =>
      obtain ⟨start, next, link, _⟩ := inside ▸ valid.chain cb
      obtain ⟨sockobj, found, rfl⟩ := Option.map_eq_some_iff.mp link
      have discarded := valid.discard_first inside found
      cases fuel with
      | zero =>
          rw [start] at done
          cases done
      | succ fuel =>
          rw [start] at done
          simp only [Greenev.teardown, SocketHeap.load, found, pure_bind] at done
          cases read : reads addr with
          | kept =>
              simp only [read, FreedRead.value, pure_bind] at done
              obtain ⟨torn, rest, split, lists, kept, whole⟩ := ih discarded
                (by simpa using done) (by simp)
              refine ⟨addr :: torn, rest, by rw [split, List.cons_append],
                by simpa using lists, ?_, ?_⟩
              · intro node outside
                simp only [List.mem_cons, not_or] at outside
                rw [kept node outside.2, SocketHeap.discard_of_ne outside.1]
              · rw [whole]
                cases addrs <;> simp [read]
          | null =>
              simp only [read, FreedRead.value, pure_bind] at done
              have stopped : (sockobj.next,
                ((this.close sockobj.watcher.fd).ioStop addr sockobj).free
                  addr) = (head, after) := by
                cases fuel <;> exact Except.ok.inj done
              cases stopped
              refine ⟨[addr], addrs, rfl, discarded, ?_, ?_⟩
              · intro node outside
                exact SocketHeap.discard_of_ne (by simpa using outside)
              · cases addrs <;> simp [read]
          | wild =>
              rw [read] at done
              cases done

namespace IoThread

variable {thread : IoThread} {sockobj : Addr} {node : SockObj}

private theorem list_listening {after : IoThread} (same : after.established = thread.established) :
    after.list = Function.update thread.list .onIoThreadAccept after.listening := by
  funext cb
  cases cb
  · rfl
  · exact same

private theorem list_established {after : IoThread} (same : after.listening = thread.listening) :
    after.list = Function.update thread.list .onIoThreadReadwrite after.established := by
  funext cb
  cases cb
  · exact same
  · rfl

/-- What `prev` points to once the loop has passed the given objects. -/
def Place.behind (passed : List Addr) : Place :=
  match passed.getLast? with
  | none => .head
  | some addr => .next addr

/-- The loop of `io_thread_sockobj_close` on a list that holds the object. -/
theorem unlink_eq (found : thread.heap sockobj = some node) {later : List Addr}
    (before : List Addr) :
    ∀ {passed : List Addr} {fuel : Nat} {i : Option Addr},
      Chain thread.links i (before ++ sockobj :: later) → sockobj ∉ before →
      thread.unlink sockobj fuel (.behind passed) i =
        if fuel ≤ before.length then throw .exhausted
        else
          thread.assign node.next (.behind (passed ++ before)) >>= fun relinked =>
            pure { relinked with
              toSocketHeap := (relinked.store sockobj { node with next := none }).free
                sockobj } := by
  induction before with
  | nil =>
      intro passed fuel i chain _
      rw [chain.1]
      cases fuel with
      | zero => rfl
      | succ fuel => simp [unlink, SocketHeap.load, found]
  | cons addr before ih =>
      intro passed fuel i chain absent
      obtain ⟨start, next, link, chain⟩ := chain
      obtain ⟨other, met, rfl⟩ := Option.map_eq_some_iff.mp link
      rw [List.mem_cons, not_or] at absent
      obtain ⟨differs, absent⟩ := absent
      rw [start]
      cases fuel with
      | zero => rfl
      | succ fuel =>
          have place : Place.behind (passed ++ [addr]) = .next addr := by simp [Place.behind]
          have further := @ih (passed ++ [addr]) fuel _ chain absent
          rw [place] at further
          simp [unlink, SocketHeap.load, met, Ne.symm differs, further]

/-- The thread once `io_thread_sockobj_close` has closed the descriptor and stopped
the watcher. -/
def closing (thread : IoThread) (sockobj : Addr) (node : SockObj) : IoThread :=
  { thread with toSocketHeap := (thread.close node.watcher.fd).ioStop sockobj node }

theorem stop_eq (loop : EvLoop) (watcher : EvIo SocketCallback) :
    (watcher.stop loop).2 = { watcher with active := false } := by
  unfold EvIo.stop
  split
  · rfl
  · rename_i inactive
    rw [← Bool.eq_false_iff.mpr inactive]

private theorem closing_heap : (thread.closing sockobj node).heap =
    Function.update thread.heap sockobj
    (some { node with watcher := { node.watcher with active := false } }) := by
  simp [closing, SocketHeap.ioStop, stop_eq, SocketHeap.store, SocketHeap.close]

private theorem closing_links (found : thread.heap sockobj = some node) :
    (thread.closing sockobj node).links = thread.links := by
  funext addr
  by_cases same : addr = sockobj <;> simp [SocketHeap.links, closing_heap, same, found]

private theorem closing_activecnt (active : node.watcher.active = true) :
    (thread.closing sockobj node).loop.activecnt = thread.loop.activecnt - 1 := by
  simp [closing, SocketHeap.ioStop, EvIo.stop, active, EvLoop.unref, SocketHeap.close]

/-- The thread once the object, of the given contents, is freed. -/
def released (relinked : IoThread) (sockobj : Addr) (node : SockObj) : IoThread :=
  { relinked with
    toSocketHeap := (relinked.store sockobj { node with
      next := none
      watcher := { node.watcher with active := false } }).free sockobj }

theorem sockobjClose_eq (found : thread.heap sockobj = some node) {before later : List Addr}
    (chain : Chain thread.links thread.established (before ++ sockobj :: later))
    (absent : sockobj ∉ before) (fuel : Nat) :
    thread.sockobjClose fuel sockobj =
      if fuel ≤ before.length then throw .exhausted
      else
        (thread.closing sockobj node).assign node.next (.behind before) >>= fun relinked =>
          pure (relinked.released sockobj node) := by
  have run : thread.sockobjClose fuel sockobj =
      (thread.closing sockobj node).unlink sockobj fuel (.behind []) thread.established := by
    simp [sockobjClose, SocketHeap.load, found, closing, Place.behind]
  have stopped : (thread.closing sockobj node).heap sockobj =
      some { node with watcher := { node.watcher with active := false } } := by
    simp [closing_heap]
  rw [run, unlink_eq stopped before (closing_links found ▸ chain) absent]
  rfl

/-- The thread with the link of an object, which has the given contents, led round
the next one. -/
def relinked (closing : IoThread) (last : Addr) (previous : SockObj) (next : Option Addr) :
    IoThread :=
  { closing with toSocketHeap := closing.store last { previous with next := next } }

theorem sockobjClose_first (found : thread.heap sockobj = some node) {later : List Addr}
    (chain : Chain thread.links thread.established (sockobj :: later)) {fuel : Nat}
    (enough : 0 < fuel) :
    thread.sockobjClose fuel sockobj =
      .ok (released { thread.closing sockobj node with established := node.next } sockobj
        node) := by
  have closes := @sockobjClose_eq thread sockobj node found [] later chain List.not_mem_nil fuel
  rw [closes, List.length_nil, if_neg (Nat.not_le.mpr enough)]
  rfl

theorem sockobjClose_behind (found : thread.heap sockobj = some node)
    {front later : List Addr} {last : Addr} {previous : SockObj}
    (chain : Chain thread.links thread.established (front ++ last :: sockobj :: later))
    (absent : sockobj ∉ front ++ [last]) (met : thread.heap last = some previous) {fuel : Nat}
    (enough : front.length + 1 < fuel) :
    thread.sockobjClose fuel sockobj =
      .ok (((thread.closing sockobj node).relinked last previous node.next).released
        sockobj node) := by
  have differs : last ≠ sockobj := by
    intro same
    subst same
    simp at absent
  have others : (thread.closing sockobj node).heap last = some previous := by
    rw [closing_heap, Function.update_of_ne differs, met]
  have assigned : (thread.closing sockobj node).assign node.next (.behind (front ++ [last])) =
      pure ((thread.closing sockobj node).relinked last previous node.next) := by
    simp [Place.behind, assign, SocketHeap.load, others, relinked]
  have longer : ¬ fuel ≤ (front ++ [last]).length := by
    rw [List.length_append, List.length_singleton]
    omega
  rw [List.append_cons] at chain
  rw [sockobjClose_eq found chain absent, if_neg longer, assigned]
  rfl

theorem closing_heap_of_ne {addr : Addr} (differs : addr ≠ sockobj) :
    (thread.closing sockobj node).heap addr = thread.heap addr := by
  rw [closing_heap, Function.update_of_ne differs]

theorem relinked_heap_of_ne {last addr : Addr} {previous : SockObj} {next : Option Addr}
    (differs : addr ≠ sockobj) :
    ((thread.closing sockobj node).relinked last previous next).heap addr =
      Function.update thread.heap last (some { previous with next := next }) addr := by
  by_cases same : addr = last <;>
    simp [relinked, SocketHeap.store, same, closing_heap_of_ne differs]

theorem release_heap {this : SocketHeap} {addr : Addr} (differs : addr ≠ sockobj) :
    ((this.store sockobj node).free sockobj).heap addr = this.heap addr := by
  simp [SocketHeap.free, SocketHeap.store, differs]

theorem released_heap_of_ne {relinked : IoThread} {addr : Addr} (differs : addr ≠ sockobj) :
    (relinked.released sockobj node).heap addr = relinked.heap addr :=
  release_heap differs

/-- What `io_thread_sockobj_close` makes of the rest of the thread. -/
structure Unlinked (thread : IoThread) (sockobj : Addr) (after : IoThread) : Prop where
  gone : after.heap sockobj = none
  watcher : ∀ addr ≠ sockobj, (after.heap addr).map SockObj.watcher =
    (thread.heap addr).map SockObj.watcher
  activecnt : after.loop.activecnt = thread.loop.activecnt - 1
  listening : after.listening = thread.listening
  cmdQ : after.cmdQ = thread.cmdQ

theorem Unlinked.release (after : IoThread) (node : SockObj)
    (watcher : ∀ addr ≠ sockobj,
      (after.heap addr).map SockObj.watcher = (thread.heap addr).map SockObj.watcher)
    (activecnt : after.loop.activecnt = thread.loop.activecnt - 1)
    (listening : after.listening = thread.listening) (cmdQ : after.cmdQ = thread.cmdQ) :
    thread.Unlinked sockobj { after with
      toSocketHeap := (after.store sockobj node).free sockobj } where
  gone := by simp [SocketHeap.free]
  watcher addr differs := by
    rw [release_heap differs]
    exact watcher addr differs
  activecnt := activecnt
  listening := listening
  cmdQ := cmdQ

section Unlinked

variable {after : IoThread}

/-- The list once its head leads to what is behind the first object. -/
theorem chain_erase_first (found : thread.heap sockobj = some node) {later : List Addr}
    (chain : Chain thread.links thread.established (sockobj :: later))
    (head : after.established = node.next)
    (kept : ∀ addr ≠ sockobj, after.heap addr = thread.heap addr) :
    Chain after.links after.established ((sockobj :: later).erase sockobj) := by
  have absent : sockobj ∉ later := (List.nodup_cons.mp chain.nodup).1
  obtain ⟨_, next, link, rest⟩ := chain
  obtain ⟨_, met, rfl⟩ := Option.map_eq_some_iff.mp link
  cases met.symm.trans found
  rw [List.erase_cons_head, head]
  refine Chain.frame rest fun addr inside => ?_
  simp only [SocketHeap.links, kept addr (ne_of_mem_of_not_mem inside absent)]

/-- The list once the link of the object before leads round the object. -/
theorem chain_erase_behind (found : thread.heap sockobj = some node)
    {front later : List Addr} {last : Addr} {previous : SockObj}
    (chain : Chain thread.links thread.established (front ++ last :: sockobj :: later))
    (absent : sockobj ∉ front ++ [last]) (head : after.established = thread.established)
    (kept : ∀ addr ≠ sockobj, after.heap addr =
      Function.update thread.heap last (some { previous with next := node.next }) addr) :
    Chain after.links after.established ((front ++ last :: sockobj :: later).erase sockobj) := by
  have distinct := chain.nodup
  have link : thread.links sockobj = some node.next := by simp [SocketHeap.links, found]
  have erased : (front ++ last :: sockobj :: later).erase sockobj = front ++ last :: later := by
    rw [List.append_cons, List.erase_append_right _ absent, List.erase_cons_head,
      ← List.append_cons]
  rw [erased, head]
  refine (chain.bypass link).frame fun addr remaining => ?_
  have apart : addr ≠ sockobj := by
    intro same
    subst same
    exact distinct.not_mem_erase (erased ▸ remaining)
  simp only [SocketHeap.links, kept addr apart]
  by_cases same : addr = last <;> simp [same, SocketHeap.links]

/-- Closing has left the lists in order once it has led the links round the
object. -/
theorem Unlinked.keeps_lists (unlinked : thread.Unlinked sockobj after)
    (valid : Lists count thread.toSocketHeap thread.list lists)
    (member : sockobj ∈ lists .onIoThreadReadwrite)
    (chain : Chain after.links after.established ((lists .onIoThreadReadwrite).erase sockobj))
    (links : ∀ addr ∉ lists .onIoThreadReadwrite, after.links addr = thread.links addr) :
    Lists count after.toSocketHeap after.list
      (Function.update lists .onIoThreadReadwrite
        ((lists .onIoThreadReadwrite).erase sockobj)) := by
  rw [list_established unlinked.listening]
  exact valid.remove member chain unlinked.gone links unlinked.watcher unlinked.activecnt

theorem Unlinked.first (unlinked : thread.Unlinked sockobj after)
    (valid : Lists count thread.toSocketHeap thread.list lists) {later : List Addr}
    (split : lists .onIoThreadReadwrite = sockobj :: later)
    (found : thread.heap sockobj = some node) (head : after.established = node.next)
    (kept : ∀ addr ≠ sockobj, after.heap addr = thread.heap addr) :
    Lists count after.toSocketHeap after.list
      (Function.update lists .onIoThreadReadwrite
        ((lists .onIoThreadReadwrite).erase sockobj)) := by
  have member : sockobj ∈ lists .onIoThreadReadwrite := by simp [split]
  have chain := valid.chain .onIoThreadReadwrite
  refine unlinked.keeps_lists valid member ?_ ?_
  · rw [split] at chain ⊢
    exact chain_erase_first found chain head kept
  · intro addr outside
    simp only [SocketHeap.links, kept addr (ne_of_mem_of_not_mem member outside).symm]

theorem Unlinked.behind (unlinked : thread.Unlinked sockobj after)
    (valid : Lists count thread.toSocketHeap thread.list lists)
    {front later : List Addr} {last : Addr} (previous : SockObj)
    (split : lists .onIoThreadReadwrite = front ++ last :: sockobj :: later)
    (absent : sockobj ∉ front ++ [last]) (found : thread.heap sockobj = some node)
    (head : after.established = thread.established)
    (kept : ∀ addr ≠ sockobj, after.heap addr =
      Function.update thread.heap last (some { previous with next := node.next }) addr) :
    Lists count after.toSocketHeap after.list
      (Function.update lists .onIoThreadReadwrite
        ((lists .onIoThreadReadwrite).erase sockobj)) := by
  have member : sockobj ∈ lists .onIoThreadReadwrite := by simp [split]
  have inside : last ∈ lists .onIoThreadReadwrite := by simp [split]
  have chain := valid.chain .onIoThreadReadwrite
  refine unlinked.keeps_lists valid member ?_ ?_
  · rw [split] at chain ⊢
    exact chain_erase_behind found chain absent head kept
  · intro addr outside
    have apart := (ne_of_mem_of_not_mem member outside).symm
    have apartLast := (ne_of_mem_of_not_mem inside outside).symm
    simp only [SocketHeap.links, kept addr apart, Function.update_of_ne apartLast]

end Unlinked

theorem sockobjClose_cases (valid : Lists count thread.toSocketHeap thread.list lists)
    (member : sockobj ∈ lists .onIoThreadReadwrite) (fuel : Nat) :
    (fuel < (lists .onIoThreadReadwrite).length ∧
        thread.sockobjClose fuel sockobj = .error .exhausted) ∨
      ∃ after, thread.sockobjClose fuel sockobj = .ok after ∧
        Lists count after.toSocketHeap after.list
          (Function.update lists .onIoThreadReadwrite
            ((lists .onIoThreadReadwrite).erase sockobj)) ∧
        thread.Unlinked sockobj after := by
  obtain ⟨node, found, active, _⟩ := (valid.watched _ _).mpr member
  obtain ⟨before, later, split, absent⟩ := List.eq_append_cons_of_mem member
  have chain := split ▸ valid.chain .onIoThreadReadwrite
  have activecnt : (thread.closing sockobj node).loop.activecnt = thread.loop.activecnt - 1 :=
    closing_activecnt active
  by_cases short : fuel ≤ before.length
  · left
    rw [sockobjClose_eq found chain absent, if_pos short]
    refine ⟨?_, rfl⟩
    rw [split, List.length_append, List.length_cons]
    omega
  · right
    -- the link that is led round the object is the list's head or that of the object before it
    rcases before.eq_nil_or_concat' with rfl | ⟨front, last, rfl⟩
    · have unlinked := Unlinked.release
        { thread.closing sockobj node with established := node.next }
        { node with next := none, watcher := { node.watcher with active := false } }
        (fun addr differs => by rw [closing_heap_of_ne differs]) activecnt rfl rfl
      refine ⟨_, sockobjClose_first found chain (Nat.not_le.mp short),
        unlinked.first valid split found rfl fun addr differs => ?_, unlinked⟩
      exact (released_heap_of_ne differs).trans (closing_heap_of_ne differs)
    · have order : lists .onIoThreadReadwrite = front ++ last :: sockobj :: later := by
        rw [split, ← List.append_cons]
      have inside : last ∈ lists .onIoThreadReadwrite := by simp [order]
      obtain ⟨previous, met, _⟩ := (valid.watched _ _).mpr inside
      rw [List.length_append, List.length_singleton] at short
      rw [← List.append_cons] at chain
      have watcher : ∀ addr ≠ sockobj,
          (((thread.closing sockobj node).relinked last previous node.next).heap addr).map
            SockObj.watcher = (thread.heap addr).map SockObj.watcher := by
        intro addr apart
        rw [relinked_heap_of_ne apart]
        by_cases same : addr = last <;> simp [same, met]
      have unlinked := Unlinked.release
        ((thread.closing sockobj node).relinked last previous node.next)
        { node with next := none, watcher := { node.watcher with active := false } }
        watcher activecnt rfl rfl
      refine ⟨_, sockobjClose_behind found chain absent met (Nat.not_le.mp short),
        unlinked.behind valid previous order absent found rfl fun addr apart => ?_, unlinked⟩
      exact (released_heap_of_ne apart).trans (relinked_heap_of_ne apart)

theorem bind_ok {Value Result : Type} {action : Except Fault Value}
    {next : Value → Except Fault Result} {result : Result} (done : action >>= next = .ok result) :
    ∃ value, action = .ok value ∧ next value = .ok result := by
  cases action with
  | error fault => cases done
  | ok value => exact ⟨value, rfl, done⟩

/-- `IO_THREAD_DIE`, when it comes to its end, releases one reference, and has
emptied the lists exactly when each freed object but the last of its list could
still be read. -/
theorem onIotCmd_die (valid : Lists count thread.toSocketHeap thread.list lists)
    {reads : Addr → FreedRead} {fuel : Nat} {after : IoThread}
    (done : thread.onIotCmd reads fuel ⟨iotCmdIoThreadDie, none⟩ = .ok after) :
    ∃ left, Lists (count - 1) after.toSocketHeap after.list left ∧
      ((∀ cb, left cb = []) ↔ ∀ cb, ∀ addr ∈ (lists cb).dropLast, reads addr = .kept) ∧
      (∀ addr, (∀ cb, addr ∉ lists cb) → after.heap addr = thread.heap addr) ∧
      after.cmdQ = thread.cmdQ := by
  simp only [onIotCmd, if_true] at done
  obtain ⟨⟨listening, sockets⟩, first, done⟩ := bind_ok done
  obtain ⟨⟨established, sockets'⟩, second, done⟩ := bind_ok done
  cases done
  obtain ⟨torn, rest, split, halfway, kept, whole⟩ :=
    valid.teardown .onIoThreadAccept first
  obtain ⟨torn', rest', split', both, kept', whole'⟩ :=
    halfway.teardown .onIoThreadReadwrite second
  simp only [Function.update_of_ne (by simp : SocketCallback.onIoThreadReadwrite ≠
    .onIoThreadAccept)] at split' whole'
  refine ⟨Function.update (Function.update lists .onIoThreadAccept rest) .onIoThreadReadwrite rest',
    ?_, ?_, ?_, rfl⟩
  · have first := @list_listening thread { thread with listening := listening } rfl
    have second := @list_established { thread with listening := listening }
      { thread with listening := listening, established := established } rfl
    rw [← first, ← second] at both
    exact both.recount (by simp only [EvLoop.unref]; omega)
  · constructor
    · intro empty cb
      have first := empty .onIoThreadAccept
      have second := empty .onIoThreadReadwrite
      cases cb
      · exact whole.mp first
      · exact whole'.mp second
    · intro readable cb
      cases cb
      · exact whole.mpr (readable .onIoThreadAccept)
      · exact whole'.mpr (readable .onIoThreadReadwrite)
  · intro addr outside
    have before : addr ∉ torn := fun member =>
      outside .onIoThreadAccept (split ▸ List.mem_append_left _ member)
    have behind : addr ∉ torn' := fun member =>
      outside .onIoThreadReadwrite (split' ▸ List.mem_append_left _ member)
    exact (kept' addr behind).trans (kept addr before)

def handOverCmd : SocketCallback → Int
  | .onIoThreadAccept => iotCmdIoThreadListen
  | .onIoThreadReadwrite => iotCmdIoThreadEstablish

theorem onIotCmd_handOver (valid : Lists count thread.toSocketHeap thread.list lists)
    {reads : Addr → FreedRead} {fuel : Nat} (idle : thread.Idle cb addr) :
    ∃ after, thread.onIotCmd reads fuel ⟨handOverCmd cb, some addr⟩ = .ok after ∧
      Lists count after.toSocketHeap after.list (Function.update lists cb (addr :: lists cb)) ∧
      (∀ node ≠ addr, after.heap node = thread.heap node) ∧ after.cmdQ = thread.cmdQ := by
  have fresh := valid.fresh_of_idle idle
  obtain ⟨sockobj, found, inactive, kind⟩ := idle
  cases cb with
  | onIoThreadAccept =>
      let prepared : SockObj := { sockobj with next := thread.listening }
      let after : IoThread := { thread with
        toSocketHeap := thread.ioStart addr prepared
        listening := some addr }
      have run : thread.onIotCmd reads fuel ⟨handOverCmd .onIoThreadAccept, some addr⟩ =
          .ok after := by
        simp [onIotCmd, handOverCmd, iotCmdIoThreadListen, iotCmdIoThreadDie,
          SocketHeap.load, found]
        rfl
      refine ⟨after, run, ?_, fun node differs => ?_, rfl⟩
      · rw [@list_listening thread after rfl]
        exact valid.insert fresh (show prepared.next = _ from rfl) inactive kind
      · exact Function.update_of_ne differs _ _
  | onIoThreadReadwrite =>
      let prepared : SockObj := { sockobj with
        next := thread.established
        watcher := sockobj.watcher.set sockobj.watcher.fd ⟨true, false, false⟩ }
      let after : IoThread := { thread with
        toSocketHeap := thread.ioStart addr prepared
        established := some addr }
      have run : thread.onIotCmd reads fuel ⟨handOverCmd .onIoThreadReadwrite, some addr⟩ =
          .ok after := by
        simp [onIotCmd, handOverCmd, iotCmdIoThreadEstablish, iotCmdIoThreadListen,
          iotCmdIoThreadDie, SocketHeap.load, found]
        rfl
      refine ⟨after, run, ?_, fun node differs => ?_, rfl⟩
      · rw [@list_established thread after rfl]
        exact valid.insert fresh (show prepared.next = _ from rfl) inactive kind
      · exact Function.update_of_ne differs _ _

theorem onIoThreadAccept_lists (valid : Lists count thread.toSocketHeap thread.list lists)
    {app : Bool} {revents : EvEvents} {accepted : Accepted} {fresh : Addr} {after : IoThread}
    (free : thread.heap fresh = none)
    (done : thread.onIoThreadAccept app sockobj revents accepted fresh = .ok after) :
    (∃ changed, Lists count after.toSocketHeap after.list changed) ∧
      (∀ node ≠ fresh, after.heap node = thread.heap node) ∧ after.cmdQ = thread.cmdQ := by
  obtain ⟨listening, _, done⟩ := bind_ok done
  by_cases error : revents.error = true
  · rw [if_pos error] at done
    cases done
    exact ⟨⟨lists, valid⟩, fun _ _ => rfl, rfl⟩
  rw [if_neg error] at done
  by_cases read : revents.read = true
  · rw [if_pos read] at done
    by_cases failed : accepted.clientSocket < 0
    · rw [if_pos failed] at done
      cases done
      exact ⟨⟨lists, valid⟩, fun _ _ => rfl, rfl⟩
    rw [if_neg failed] at done
    by_cases gone : app = false
    · rw [if_pos gone] at done
      cases done
      exact ⟨⟨lists, valid.chain, valid.watched, valid.activecnt⟩, fun _ _ => rfl, rfl⟩
    · rw [if_neg gone] at done
      cases done
      refine ⟨⟨Function.update lists .onIoThreadReadwrite
        (fresh :: lists .onIoThreadReadwrite), ?_⟩,
        fun node differs => Function.update_of_ne differs _ _, rfl⟩
      let newSockobj : SockObj :=
        { next := thread.list .onIoThreadReadwrite
          watcher := ⟨.onIoThreadReadwrite, accepted.clientSocket, ⟨true, false, false⟩, false⟩
          domain := listening.domain
          type := listening.type
          protocol := listening.protocol
          address := accepted.clientAddr }
      have inserted := valid.insert (valid.fresh_of_free free)
        (show newSockobj.next = thread.list .onIoThreadReadwrite from rfl) rfl rfl
      rw [← @list_established thread { thread with established := some fresh } rfl] at inserted
      exact inserted
  · rw [if_neg read] at done
    cases done
    exact ⟨⟨lists, valid⟩, fun _ _ => rfl, rfl⟩

theorem putBack_ok {iovecs : List Iovec} {after : IoThread}
    (done : thread.putBack iovecs = .ok after) :
    ∃ buffer, after = { thread with tmpIoBuf := buffer } := by
  unfold putBack at done
  split at done
  · cases done
  · rename_i buffer _
    exact ⟨buffer, (Except.ok.inj done).symm⟩

theorem onIoThreadReadwrite_lists (valid : Lists count thread.toSocketHeap thread.list lists)
    (member : sockobj ∈ lists .onIoThreadReadwrite) {layout : IoBufferLayout} {fuel : Nat}
    {revents : EvEvents} {size : Int} {after : IoThread}
    (done : thread.onIoThreadReadwrite layout fuel sockobj revents size = .ok after) :
    (∃ changed, Lists count after.toSocketHeap after.list changed) ∧
      (∀ node ≠ sockobj, (after.heap node).map SockObj.watcher =
        (thread.heap node).map SockObj.watcher) ∧ after.cmdQ = thread.cmdQ := by
  have unchanged : ∀ buffer, { thread with tmpIoBuf := buffer } = after →
      (∃ changed, Lists count after.toSocketHeap after.list changed) ∧
        (∀ node ≠ sockobj, (after.heap node).map SockObj.watcher =
          (thread.heap node).map SockObj.watcher) ∧ after.cmdQ = thread.cmdQ := by
    intro buffer same
    subst same
    exact ⟨⟨lists, valid⟩, fun _ _ => rfl, rfl⟩
  unfold onIoThreadReadwrite at done
  by_cases read : revents.read = true
  · rw [if_pos read] at done
    simp only at done
    split at done
    · exact unchanged _ (Except.ok.inj done)
    split at done
    · obtain ⟨closed, closing, putting⟩ := bind_ok done
      obtain ⟨buffer, rfl⟩ := putBack_ok putting
      let reading : IoThread := { thread with
        tmpIoBuf := (thread.tmpIoBuf.get layout wantedIovcnt).2 }
      have started : Lists count reading.toSocketHeap reading.list lists := valid
      rcases sockobjClose_cases started member fuel with
        ⟨_, exhausted⟩ | ⟨result, run, kept, unlinked⟩
      · cases closing.symm.trans exhausted
      · cases closing.symm.trans run
        exact ⟨⟨_, kept⟩, unlinked.watcher, unlinked.cmdQ⟩
    split at done
    · exact unchanged _ (Except.ok.inj done)
    split at done
    · obtain ⟨buffer, rfl⟩ := putBack_ok done
      exact unchanged _ rfl
    · exact unchanged _ (Except.ok.inj done)
  · rw [if_neg read] at done
    exact unchanged _ (Except.ok.inj done)

end IoThread

end Striga.Greenev
