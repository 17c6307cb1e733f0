import Striga.Greenev.IoThreadSockets

/-! What `io_thread_sockobj_close` makes of the list of established sockets, of
the other objects, and of the descriptor and the memory of the one it closes. -/

set_option autoImplicit false

namespace Striga.Greenev

open Lib.LinkedList

/-- All of an object but its place in the list. -/
def SockObj.contents (node : SockObj) : SockObj := { node with next := none }

namespace IoThread

variable {thread : IoThread} {sockobj : Addr} {node : SockObj}

structure ClosedOne (thread : IoThread) (addrs : List Addr) (sockobj : Addr)
    (after : IoThread) : Prop where
  chain : Chain after.links after.established (addrs.erase sockobj)
  contents : ∀ addr ≠ sockobj,
    (after.heap addr).map SockObj.contents = (thread.heap addr).map SockObj.contents
  outside : ∀ addr ∉ addrs, after.heap addr = thread.heap addr
  gone : after.heap sockobj = none
  closed : ∃ node, thread.heap sockobj = some node ∧
    after.closed = thread.closed ++ [node.watcher.fd]
  freed : after.freed = thread.freed ++ [sockobj]
  listening : after.listening = thread.listening
  cmdQ : after.cmdQ = thread.cmdQ
  tmpIoBuf : after.tmpIoBuf = thread.tmpIoBuf

private theorem released_heap_self {relinked : IoThread} :
    (relinked.released sockobj node).heap sockobj = none := by
  simp [released, SocketHeap.free]

private theorem closedOne_first (found : thread.heap sockobj = some node) {later : List Addr}
    (chain : Chain thread.links thread.established (sockobj :: later)) :
    ClosedOne thread (sockobj :: later) sockobj
      (released { thread.closing sockobj node with established := node.next } sockobj node) := by
  have kept : ∀ addr ≠ sockobj,
      (released { thread.closing sockobj node with established := node.next } sockobj node).heap
        addr = thread.heap addr :=
    fun addr differs => (released_heap_of_ne differs).trans (closing_heap_of_ne differs)
  exact {
    chain := chain_erase_first found chain rfl kept
    contents := fun addr differs => by rw [kept addr differs]
    outside := fun addr outside => kept addr fun same => outside (by simp [same])
    gone := released_heap_self
    closed := ⟨node, found, rfl⟩
    freed := rfl
    listening := rfl
    cmdQ := rfl
    tmpIoBuf := rfl }

private theorem closedOne_behind (found : thread.heap sockobj = some node)
    {front later : List Addr} {last : Addr} {previous : SockObj}
    (chain : Chain thread.links thread.established (front ++ last :: sockobj :: later))
    (absent : sockobj ∉ front ++ [last]) (met : thread.heap last = some previous) :
    ClosedOne thread (front ++ last :: sockobj :: later) sockobj
      (((thread.closing sockobj node).relinked last previous node.next).released sockobj node) := by
  have kept : ∀ addr ≠ sockobj,
      (((thread.closing sockobj node).relinked last previous node.next).released sockobj node).heap
        addr = Function.update thread.heap last (some { previous with next := node.next }) addr :=
    fun addr differs => (released_heap_of_ne differs).trans (relinked_heap_of_ne differs)
  exact {
    chain := chain_erase_behind found chain absent rfl kept
    contents := by
      intro addr differs
      rw [kept addr differs]
      by_cases same : addr = last <;> simp [same, met, SockObj.contents]
    outside := by
      intro addr outside
      have apart : addr ≠ sockobj := fun same => outside (by simp [same])
      have apartLast : addr ≠ last := fun same => outside (by simp [same])
      rw [kept addr apart, Function.update_of_ne apartLast]
    gone := released_heap_self
    closed := ⟨node, found, rfl⟩
    freed := rfl
    listening := rfl
    cmdQ := rfl
    tmpIoBuf := rfl }

private theorem heap_of_chain {head : Option Addr} {addrs : List Addr}
    (chain : Chain thread.links head addrs) {addr : Addr} (member : addr ∈ addrs) :
    ∃ node, thread.heap addr = some node := by
  induction addrs generalizing head with
  | nil => cases member
  | cons first addrs ih =>
    obtain ⟨_, next, link, rest⟩ := chain
    rcases List.mem_cons.mp member with rfl | later
    · obtain ⟨node, met, _⟩ := Option.map_eq_some_iff.mp link
      exact ⟨node, met⟩
    · exact ih rest later

/-- With as many rounds as the list is long, the loop finds the object, follows
no pointer to freed memory, and leaves the assert behind it satisfied. -/
theorem sockobjClose_closedOne (thread : IoThread) (addrs : List Addr) (sockobj : Addr)
    (fuel : Nat) (chain : Chain thread.links thread.established addrs) (member : sockobj ∈ addrs)
    (enough : addrs.length ≤ fuel) :
    ∃ after, thread.sockobjClose fuel sockobj = .ok after ∧
      ClosedOne thread addrs sockobj after := by
  obtain ⟨node, found⟩ := heap_of_chain chain member
  obtain ⟨before, later, rfl, absent⟩ := List.eq_append_cons_of_mem member
  rw [List.length_append, List.length_cons] at enough
  rcases before.eq_nil_or_concat' with rfl | ⟨front, last, rfl⟩
  · exact ⟨_, sockobjClose_first found chain (by omega), closedOne_first found chain⟩
  · rw [List.length_append, List.length_singleton] at enough
    rw [← List.append_cons] at chain ⊢
    obtain ⟨previous, met⟩ := heap_of_chain chain (List.mem_append_right front List.mem_cons_self)
    exact ⟨_, sockobjClose_behind found chain absent met (by omega),
      closedOne_behind found chain absent met⟩

/-- The middle one of three. -/
theorem sockobjClose_closedOne_middle :
    let node (next : Option Addr) (fd : Int) : SockObj :=
      { connectedSocket fd 2 1 0 [] with next := next }
    let heap : Addr → Option SockObj
      | 1 => some (node (some 2) 11)
      | 2 => some (node (some 3) 12)
      | 3 => some (node none 13)
      | _ => none
    let thread : IoThread := { IoThread.ctor .lp64 (fun _ => ⟨0, none⟩) 0 (fun _ => 0) with
      heap := heap
      established := some 1 }
    ∃ after, thread.sockobjClose 3 2 = .ok after ∧ ClosedOne thread [1, 2, 3] 2 after := by
  intro node heap thread
  have chain : Chain thread.links thread.established [1, 2, 3] :=
    ⟨rfl, some 2, rfl, rfl, some 3, rfl, rfl, none, rfl, rfl⟩
  exact sockobjClose_closedOne thread [1, 2, 3] 2 3 chain (by simp) (by simp)

end IoThread

end Striga.Greenev
