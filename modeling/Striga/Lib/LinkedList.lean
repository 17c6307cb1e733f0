import Mathlib.Data.List.Nodup
import Mathlib.Logic.Function.Basic

/-! Singly linked lists on a heap. Only the link of each live node matters here:
a heap is seen as the partial map from addresses to links. -/

set_option autoImplicit false

namespace Striga.Lib.LinkedList

/-- The link of every live node; a link is an address or null. -/
abbrev Links (Addr : Type) := Addr → Option (Option Addr)

variable {Addr : Type} {links other : Links Addr} {head stop : Option Addr}

/-- Following the links from a head meets exactly the given live nodes, in
order, and arrives at a stop. -/
def Segment (links : Links Addr) : Option Addr → List Addr → Option Addr → Prop
  | head, [], stop => head = stop
  | head, addr :: addrs, stop =>
      head = some addr ∧ ∃ next, links addr = some next ∧ Segment links next addrs stop

def Chain (links : Links Addr) (head : Option Addr) (addrs : List Addr) : Prop :=
  Segment links head addrs none

theorem segment_append {left right : List Addr} :
    Segment links head (left ++ right) stop ↔
      ∃ middle, Segment links head left middle ∧ Segment links middle right stop := by
  induction left generalizing head with
  | nil => simp [Segment]
  | cons addr left ih =>
      simp only [List.cons_append, Segment, ih]
      constructor
      · intro whole
        obtain ⟨first, next, link, middle, before, after⟩ := whole
        exact ⟨middle, ⟨first, next, link, before⟩, after⟩
      · intro parts
        obtain ⟨middle, ⟨first, next, link, before⟩, after⟩ := parts
        exact ⟨first, next, link, middle, before, after⟩

theorem Segment.frame {addrs : List Addr} (segment : Segment links head addrs stop)
    (same : ∀ addr ∈ addrs, other addr = links addr) : Segment other head addrs stop := by
  induction addrs generalizing head with
  | nil => exact segment
  | cons addr addrs ih =>
      obtain ⟨first, next, link, later⟩ := segment
      refine ⟨first, next, ?_, ih later fun node member => same node (by simp [member])⟩
      rw [same addr (by simp), link]

theorem Chain.frame {addrs : List Addr} (chain : Chain links head addrs)
    (same : ∀ addr ∈ addrs, other addr = links addr) : Chain other head addrs :=
  Segment.frame chain same

@[simp] theorem chain_nil : Chain links head [] ↔ head = none := Iff.rfl

theorem Chain.null_iff {addrs : List Addr} (chain : Chain links head addrs) :
    head = none ↔ addrs = [] := by
  cases addrs with
  | nil => simpa using chain
  | cons addr addrs => simp [chain.1]

theorem Chain.unique {left right : List Addr} (first : Chain links head left)
    (second : Chain links head right) : left = right := by
  induction left generalizing head right with
  | nil => exact (second.null_iff.mp first).symm
  | cons addr left ih =>
      obtain ⟨rfl, next, link, later⟩ := first
      cases right with
      | nil => cases second
      | cons node right =>
          obtain ⟨same, after, next', later'⟩ := second
          cases same
          cases link.symm.trans next'
          rw [ih later later']

theorem Chain.nodup {addrs : List Addr} (chain : Chain links head addrs) : addrs.Nodup := by
  induction addrs generalizing head with
  | nil => exact List.nodup_nil
  | cons addr addrs ih =>
      obtain ⟨_, next, link, later⟩ := id chain
      refine List.nodup_cons.mpr ⟨fun again => ?_, ih later⟩
      obtain ⟨left, right, rfl⟩ := List.append_of_mem again
      obtain ⟨middle, _, suffix⟩ := segment_append.mp later
      have same : Chain links (some addr) (addr :: right) := suffix.1 ▸ suffix
      have whole : Chain links (some addr) (addr :: (left ++ addr :: right)) :=
        ⟨rfl, next, link, later⟩
      have lengths := congrArg List.length (whole.unique same)
      simp only [List.length_cons, List.length_append] at lengths
      omega

section Update

variable [DecidableEq Addr]

theorem Chain.push {addr : Addr} {addrs : List Addr} (chain : Chain links head addrs)
    (fresh : addr ∉ addrs) :
    Chain (Function.update links addr (some head)) (some addr) (addr :: addrs) := by
  refine ⟨rfl, head, Function.update_self .., chain.frame fun node member => ?_⟩
  exact Function.update_of_ne (ne_of_mem_of_not_mem member fresh) _ _

theorem Chain.forget {addr : Addr} {addrs : List Addr} {link : Option (Option Addr)}
    (chain : Chain links head addrs) (outside : addr ∉ addrs) :
    Chain (Function.update links addr link) head addrs :=
  chain.frame fun _ member => Function.update_of_ne (ne_of_mem_of_not_mem member outside) _ _

theorem Chain.bypass {before addr : Addr} {left right : List Addr} {next : Option Addr}
    (chain : Chain links head (left ++ before :: addr :: right)) (link : links addr = some next) :
    Chain (Function.update links before (some next)) head (left ++ before :: right) := by
  have distinct := chain.nodup
  obtain ⟨middle, segment, rest⟩ := segment_append.mp chain
  obtain ⟨first, _, _, _, after, found, later⟩ := rest
  cases found.symm.trans link
  simp only [List.nodup_append, List.nodup_cons, List.mem_cons, not_or] at distinct
  obtain ⟨_, ⟨⟨_, outsideRight⟩, _⟩, apart⟩ := distinct
  refine segment_append.mpr ⟨middle, segment.frame fun node member => ?_, first, next,
    Function.update_self .., Segment.frame later fun node member => ?_⟩
  · exact Function.update_of_ne (fun same => apart node member before (by simp) same) _ _
  · exact Function.update_of_ne (ne_of_mem_of_not_mem member outsideRight) _ _

end Update

end Striga.Lib.LinkedList
