import Striga.Greenev.IoThreadListen
import Mathlib.Data.Finset.Basic
import Mathlib.Data.Finset.Lattice.Lemmas

/-! `application_listen` of `singlev/src/app.c`. It prepares sockets as
`io_thread_listen` of greenev does, but what would hand them over is commented
out: nobody learns of the sockets that come to listen. -/

set_option autoImplicit false

namespace Striga.Singlev

open Greenev

/-- The descriptors that are open, and those that were closed while they were not. -/
structure Descriptors where
  opened : Finset Int
  badCloses : List Int

namespace Descriptors

/-- What `socket` has returned, negative where it failed. -/
def sockets (this : Descriptors) (listenSocket : List Int) : Descriptors :=
  { this with opened := this.opened ∪ (listenSocket.filter fun fd => fd ≥ 0).toFinset }

def close (this : Descriptors) (fd : Int) : Descriptors :=
  if fd ∈ this.opened then { this with opened := this.opened.erase fd }
  else { this with badCloses := this.badCloses ++ [fd] }

def closeSockets (this : Descriptors) (listenSocket : List Int) : Descriptors :=
  listenSocket.foldl (fun this fd => if fd ≥ 0 then this.close fd else this) this

end Descriptors

/-- A call of `application_listen`, with what `getaddrinfo` returns for a node. -/
structure ListenCall where
  host : String
  getaddrinfo : Option String → Resolved ListenAddr

namespace ListenCall

def resolved (call : ListenCall) : Resolved ListenAddr :=
  call.getaddrinfo (if call.host = "*" then none else some call.host)

def applicationListen (call : ListenCall) (fds : Descriptors) : Descriptors × List LogLine :=
  match call.resolved with
  | .failed rc gaiStrerror =>
      (fds, [.error ("Failed to resolve listen address: (" ++ toString rc ++ ") " ++ gaiStrerror)])
  | .found ans =>
      let prepared := prepareSockets ans
      let fds := fds.sockets prepared.listenSocket
      if prepared.failure then
        (fds.closeSockets prepared.listenSocket, prepared.log ++
          [.warning "Issue when preparing listen sockets, no listen socket created"])
      else
        (fds, prepared.log)

/-- The sockets that the call opens. -/
def sockets (call : ListenCall) : List Int := openedSockets call.resolved.ans

def succeeds (call : ListenCall) : Bool := call.resolved.ans.all ListenAddr.listens

/-- The system returns no descriptor twice and none that is open. -/
structure Fresh (call : ListenCall) (fds : Descriptors) : Prop where
  nodup : call.sockets.Nodup
  apart : ∀ fd ∈ call.sockets, fd ∉ fds.opened

end ListenCall

/-- Calls one after another. -/
def applicationListens (calls : List ListenCall) (fds : Descriptors) : Descriptors :=
  calls.foldl (fun fds call => (call.applicationListen fds).1) fds

def FreshCalls : List ListenCall → Descriptors → Prop
  | [], _ => True
  | call :: calls, fds => call.Fresh fds ∧ FreshCalls calls (call.applicationListen fds).1

theorem Descriptors.close_all (closed : List Int) : ∀ {this : Descriptors}, closed.Nodup →
    (∀ fd ∈ closed, fd ∈ this.opened) →
    closed.foldl Descriptors.close this =
      { this with opened := this.opened \ closed.toFinset } := by
  induction closed with
  | nil =>
      intro this _ _
      simp
  | cons fd closed ih =>
      intro this nodup inside
      obtain ⟨absent, distinct⟩ := List.nodup_cons.mp nodup
      have present : fd ∈ this.opened := inside fd List.mem_cons_self
      rw [List.foldl_cons, Descriptors.close, if_pos present, ih distinct]
      · congr 1
        rw [List.toFinset_cons, Finset.erase_sdiff_comm, Finset.sdiff_insert]
      · intro other member
        refine Finset.mem_erase.mpr ⟨ne_of_mem_of_not_mem member absent, ?_⟩
        exact inside other (List.mem_cons_of_mem _ member)

theorem Descriptors.closeSockets_eq (listenSocket : List Int) : ∀ {this : Descriptors},
    this.closeSockets listenSocket =
      (listenSocket.filter fun fd => fd ≥ 0).foldl Descriptors.close this := by
  induction listenSocket with
  | nil => exact rfl
  | cons fd rest ih =>
      intro this
      rw [Descriptors.closeSockets, List.foldl_cons]
      by_cases created : fd ≥ 0
      · rw [if_pos created, List.filter_cons_of_pos (by simpa using created), List.foldl_cons]
        exact ih
      · rw [if_neg created, List.filter_cons_of_neg (by simpa using created)]
        exact ih

/-- A call that fails leaves no trace; one that succeeds leaves all its sockets. -/
theorem ListenCall.applicationListen_fst {call : ListenCall} {fds : Descriptors}
    (fresh : call.Fresh fds) :
    (call.applicationListen fds).1 = { fds with
      opened := fds.opened ∪ if call.succeeds then call.sockets.toFinset else ∅ } := by
  obtain ⟨nodup, apart⟩ := fresh
  unfold applicationListen
  unfold ListenCall.sockets ListenCall.succeeds at *
  cases resolved : call.resolved with
  | failed rc gaiStrerror =>
      simp only [Resolved.ans, openedSockets, List.all_nil, if_true, List.toFinset_nil,
        Finset.union_empty]
  | found ans =>
      rw [resolved] at nodup apart
      simp only [Resolved.ans] at nodup apart ⊢
      rw [prepareSockets_failure]
      by_cases all : ans.all ListenAddr.listens = true
      · simp [Descriptors.sockets, prepareSockets_opened, all]
      · have inside : ∀ fd ∈ openedSockets ans,
            fd ∈ (fds.sockets (prepareSockets ans).listenSocket).opened := by
          intro fd member
          rw [Descriptors.sockets, prepareSockets_opened]
          exact Finset.mem_union_right _ (List.mem_toFinset.mpr member)
        have disjoint : Disjoint fds.opened (openedSockets ans).toFinset := by
          refine Finset.disjoint_right.mpr fun fd member => ?_
          exact apart fd (List.mem_toFinset.mp member)
        rw [Bool.not_eq_true] at all
        simp only [all, Bool.not_false, if_true, Bool.false_eq_true, if_false]
        rw [Descriptors.closeSockets_eq, prepareSockets_opened, Descriptors.close_all _
          nodup inside]
        simp only [Descriptors.sockets, prepareSockets_opened, Finset.union_empty,
          Finset.union_sdiff_right, disjoint.sdiff_eq_left]

/-- Whatever fails on the way, nothing is closed that is not open, and what stays
open is what the calls that found no failure have opened. -/
theorem applicationListens_leak (calls : List ListenCall) (fds : Descriptors)
    (fresh : FreshCalls calls fds) :
    (applicationListens calls fds).badCloses = fds.badCloses ∧
      (applicationListens calls fds).opened = fds.opened ∪
        ((calls.filter ListenCall.succeeds).flatMap ListenCall.sockets).toFinset := by
  induction calls generalizing fds with
  | nil => simp [applicationListens]
  | cons call calls ih =>
      obtain ⟨first, later⟩ := fresh
      obtain ⟨bad, opened⟩ := ih _ later
      have shape := call.applicationListen_fst first
      rw [applicationListens, List.foldl_cons]
      unfold applicationListens at bad opened
      rw [shape] at bad opened ⊢
      refine ⟨bad, opened.trans ?_⟩
      cases succeeds : call.succeeds with
      | true => simp [succeeds, Finset.union_assoc, List.toFinset_append]
      | false => simp [succeeds]

/-- The second address of the first call cannot be bound; the second call finds
an address to listen on. -/
theorem applicationListens_leak_twice :
    let refused : ListenAddr := { IoThread.listeningAddr 2 8 with bind := -1 }
    let failing : ListenCall := ⟨"*", fun _ => .found [IoThread.listeningAddr 10 7, refused]⟩
    let working : ListenCall := ⟨"localhost", fun _ => .found [IoThread.listeningAddr 2 7]⟩
    (applicationListens [failing, working] ⟨{0, 1, 2}, []⟩).opened = {0, 1, 2} ∪ {7} := by
  intro refused failing working
  have first : failing.Fresh ⟨{0, 1, 2}, []⟩ := ⟨by decide, by decide⟩
  have opened : (failing.applicationListen ⟨{0, 1, 2}, []⟩).1.opened = {0, 1, 2} := by
    rw [ListenCall.applicationListen_fst first]
    decide
  have second : working.Fresh (failing.applicationListen ⟨{0, 1, 2}, []⟩).1 := by
    refine ⟨by decide, ?_⟩
    rw [opened]
    decide
  have leak := applicationListens_leak [failing, working] ⟨{0, 1, 2}, []⟩ ⟨first, second, trivial⟩
  exact leak.2.trans (by decide)

end Striga.Singlev
