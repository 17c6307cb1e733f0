import Striga.Greenev.IoThreadSockets

/-! `IO_THREAD_DIE` on a heap that no longer has an object once it is freed,
against what it does while the freed objects stay readable. -/

set_option autoImplicit false

namespace Striga.Greenev

open Lib.LinkedList

namespace SocketHeap

def fd? (this : SocketHeap) (addr : Addr) : Option Int :=
  (this.heap addr).map fun sockobj => sockobj.watcher.fd

def watches (this : SocketHeap) (addr : Addr) : Bool :=
  (this.heap addr).any fun sockobj => sockobj.watcher.active

/-- The given objects are closed, stopped and freed, each of them once. -/
structure Torn (addrs : List Addr) (this after : SocketHeap) : Prop where
  closed : after.closed = this.closed ++ addrs.filterMap this.fd?
  freed : after.freed = this.freed ++ addrs
  heap : ∀ addr, after.heap addr = if addr ∈ addrs then none else this.heap addr
  activecnt : after.loop.activecnt = this.loop.activecnt - (addrs.filter this.watches).length

variable {this middle after : SocketHeap}

theorem Torn.refl : Torn [] this this := ⟨by simp, by simp, by simp, by simp⟩

theorem Torn.append {first second : List Addr} (before : Torn first this middle)
    (later : Torn second middle after) (apart : ∀ addr ∈ second, addr ∉ first) :
    Torn (first ++ second) this after := by
  have same : ∀ addr ∈ second, middle.heap addr = this.heap addr := by
    intro addr member
    rw [before.heap, if_neg (apart addr member)]
  constructor
  · have fds : second.filterMap middle.fd? = second.filterMap this.fd? :=
      List.filterMap_congr fun addr member => by rw [fd?, fd?, same addr member]
    rw [later.closed, before.closed, fds, List.filterMap_append, List.append_assoc]
  · rw [later.freed, before.freed, List.append_assoc]
  · intro addr
    rw [later.heap, before.heap]
    by_cases member : addr ∈ second
    · simp [member]
    · simp [member]
  · have active : second.filter middle.watches = second.filter this.watches :=
      List.filter_congr fun addr member => by rw [watches, watches, same addr member]
    rw [later.activecnt, before.activecnt, active, List.filter_append, List.length_append]
    omega

theorem Torn.one {addr : Addr} {sockobj : SockObj} (found : this.heap addr = some sockobj) :
    Torn [addr] this (((this.close sockobj.watcher.fd).ioStop addr sockobj).free addr) := by
  have watched : this.watches addr = sockobj.watcher.active := by simp [watches, found]
  constructor
  · simp [SocketHeap.free, SocketHeap.ioStop, SocketHeap.store, SocketHeap.close, fd?, found]
  · simp [SocketHeap.free, SocketHeap.ioStop, SocketHeap.store, SocketHeap.close]
  · intro other
    by_cases same : other = addr
    · simp [same, SocketHeap.free]
    · simp [same, discard_of_ne same]
  · cases active : sockobj.watcher.active <;>
      simp [SocketHeap.free, SocketHeap.ioStop, SocketHeap.store, SocketHeap.close, EvIo.stop,
        EvLoop.unref, active, watched]

end SocketHeap

variable {this : SocketHeap}

/-- Where the link of a freed object still reads as it was, a loop of the
teardown takes down its whole list. -/
private theorem teardown_kept (addrs : List Addr) : ∀ {this : SocketHeap} {fuel : Nat}
    {head : Option Addr}, Chain this.links head addrs → addrs.length ≤ fuel →
      ∃ after, teardown (fun _ => .kept) fuel head head this = .ok (none, after) ∧
        this.Torn addrs after := by
  induction addrs with
  | nil =>
      intro this fuel head chain _
      rw [chain_nil.mp chain]
      exact ⟨this, by rw [teardown]; rfl, .refl⟩
  | cons addr addrs ih =>
      intro this fuel head chain enough
      have distinct := List.nodup_cons.mp chain.nodup
      obtain ⟨rfl, next, link, later⟩ := chain
      obtain ⟨sockobj, found, rfl⟩ := Option.map_eq_some_iff.mp link
      cases fuel with
      | zero => simp at enough
      | succ fuel =>
          have one := SocketHeap.Torn.one found
          have rest : Chain (((this.close sockobj.watcher.fd).ioStop addr sockobj).free addr).links
              sockobj.next addrs := by
            refine later.frame fun node inside => ?_
            have differs := ne_of_mem_of_not_mem inside distinct.1
            simp only [SocketHeap.links, SocketHeap.discard_of_ne differs]
          obtain ⟨after, done, torn⟩ := ih rest (Nat.le_of_succ_le_succ enough)
          refine ⟨after, ?_, one.append torn fun node inside => ?_⟩
          · simp only [teardown, SocketHeap.load, found, FreedRead.value, pure_bind]
            exact done
          · simpa using ne_of_mem_of_not_mem inside distinct.1

/-- Where a freed object is gone, a loop over an object never comes to its end. -/
private theorem teardown_wild_ok {fuel : Nat} {list head : Option Addr}
    {result : Option Addr × SocketHeap}
    (done : teardown (fun _ => .wild) fuel list head this = .ok result) : head = none := by
  cases head with
  | none => rfl
  | some addr =>
      cases fuel with
      | zero => cases done
      | succ fuel =>
          cases found : this.heap addr with
          | none => simp [teardown, SocketHeap.load, found] at done; cases done
          | some sockobj =>
              simp only [teardown, SocketHeap.load, found, FreedRead.value, pure_bind] at done
              cases done

namespace IoThread

/-- Both lists are taken down and the thread's own reference is given up. -/
structure TornDown (listening established : List Addr) (before after : IoThread) : Prop where
  no_listening : after.listening = none
  no_established : after.established = none
  sockets : ∃ sockets, before.toSocketHeap.Torn (listening ++ established) sockets ∧
    after.toSocketHeap = { sockets with loop := sockets.loop.unref }

/-- The thread with its lists given up and the given socket objects. -/
def dead (this : IoThread) (sockets : SocketHeap) : IoThread :=
  { this with
    toSocketHeap := { sockets with loop := sockets.loop.unref }
    listening := none
    established := none }

variable {thread : IoThread} {listening established : List Addr}

theorem onIotCmd_die_kept (listened : Chain thread.links thread.listening listening)
    (connected : Chain thread.links thread.established established)
    (apart : ∀ addr ∈ established, addr ∉ listening) {fuel : Nat}
    (first : listening.length ≤ fuel) (second : established.length ≤ fuel) (arg : Option Addr) :
    ∃ after, thread.onIotCmd (fun _ => .kept) fuel ⟨iotCmdIoThreadDie, arg⟩ = .ok after ∧
      TornDown listening established thread after := by
  obtain ⟨middle, stopped, torn⟩ := teardown_kept listening listened first
  have kept : Chain middle.links thread.established established := by
    refine connected.frame fun addr member => ?_
    rw [SocketHeap.links, torn.heap, if_neg (apart addr member)]
    rfl
  obtain ⟨sockets, finished, later⟩ := teardown_kept established kept second
  refine ⟨thread.dead sockets, ?_, rfl, rfl, sockets, torn.append later apart, rfl⟩
  · simp only [onIotCmd, if_true]
    rw [stopped]
    simp only [Except.bind, bind]
    rw [finished]
    rfl

private theorem onIotCmd_die_wild_ok {fuel : Nat} {arg : Option Addr} {after : IoThread}
    (done : thread.onIotCmd (fun _ => .wild) fuel ⟨iotCmdIoThreadDie, arg⟩ = .ok after) :
    thread.listening = none ∧ thread.established = none := by
  simp only [onIotCmd, if_true] at done
  cases first : teardown (fun _ => .wild) fuel thread.listening thread.listening
      thread.toSocketHeap with
  | error fault =>
      rw [first] at done
      cases done
  | ok stopped =>
      rw [first] at done
      cases second : teardown (fun _ => .wild) fuel thread.established thread.established
          stopped.2 with
      | error fault =>
          simp only [Except.bind, bind, second] at done
          cases done
      | ok finished => exact ⟨teardown_wild_ok first, teardown_wild_ok second⟩

theorem onIotCmd_die_tornDown_iff (thread : IoThread) (listening established : List Addr)
    (listened : Chain thread.links thread.listening listening)
    (connected : Chain thread.links thread.established established) (fuel : Nat)
    (arg : Option Addr) :
    (∃ after, thread.onIotCmd (fun _ => .wild) fuel ⟨iotCmdIoThreadDie, arg⟩ = .ok after ∧
        TornDown listening established thread after) ↔
      listening = [] ∧ established = [] := by
  rw [← listened.null_iff, ← connected.null_iff]
  constructor
  · intro torn
    obtain ⟨after, done, _⟩ := torn
    exact onIotCmd_die_wild_ok done
  · intro empty
    obtain ⟨noListening, noEstablished⟩ := empty
    refine ⟨thread.dead thread.toSocketHeap, ?_, rfl, rfl, thread.toSocketHeap, ?_, rfl⟩
    · simp only [onIotCmd, if_true, noListening, noEstablished]
      cases fuel <;> rfl
    · rw [listened.null_iff.mp noListening, connected.null_iff.mp noEstablished]
      exact .refl

theorem onIotCmd_die_tornDown_idle :
    let thread := IoThread.ctor .lp64 (fun _ => ⟨0, none⟩) 0 fun _ => 0
    ∃ after, thread.onIotCmd (fun _ => .wild) 0 ⟨iotCmdIoThreadDie, none⟩ = .ok after ∧
      TornDown [] [] thread after :=
  (onIotCmd_die_tornDown_iff (IoThread.ctor .lp64 (fun _ => ⟨0, none⟩) 0 fun _ => 0) [] [] rfl rfl
    0 none).mpr ⟨rfl, rfl⟩

/-- With one listening socket, its link is read once more after it is freed. -/
theorem not_tornDown_one_listening :
    ∃ thread : IoThread, Chain thread.links thread.listening [5] ∧
      Chain thread.links thread.established [] ∧
      ¬ ∃ fuel after, thread.onIotCmd (fun _ => .wild) fuel ⟨iotCmdIoThreadDie, none⟩ = .ok after ∧
        TornDown [5] [] thread after := by
  let idle := IoThread.ctor .lp64 (fun _ => ⟨0, none⟩) 0 fun _ => 0
  let thread := { idle with
    toSocketHeap := idle.ioStart 5 (listeningSocket 7 2 1 6 [])
    listening := some 5 }
  refine ⟨thread, ⟨rfl, none, rfl, rfl⟩, rfl, ?_⟩
  intro torn
  obtain ⟨fuel, after, done, _⟩ := torn
  have empty := (onIotCmd_die_wild_ok done).1
  cases empty

end IoThread

end Striga.Greenev
