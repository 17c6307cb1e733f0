import Striga.Greenev.IoBufferTable
import Mathlib.Data.List.Iterate
import Mathlib.Data.Nat.ModEq

/-! A get, and a put of some of what it has handed out: where the two leave the
indices, which entries of the table they read, and which they write. -/

set_option autoImplicit false

namespace Striga.Greenev.IoBuffer

open Lib

/-- The indices that so many rounds of a loop meet, from the given one on. -/
def visited (size index : UInt32) (rounds : Nat) : List UInt32 :=
  List.iterate (Ring.Machine.next size) index rounds

/-- The tail is inside the table. The head is, too, or it is where
`io_buffer_new` starts it or has gone on from there, and so many rounds do not
take it to the end of the unsigned range. -/
structure InOrder (this : IoBuffer) (rounds : Nat) : Prop where
  tail : this.freeSlotsTail < this.slotCount
  head : this.freeSlotsHead < this.slotCount ∨
    (this.slotCount ≤ this.freeSlotsHead ∧ this.freeSlotsHead.toNat + rounds < 2 ^ 32)

/-- What the two calls make of the buffer. -/
structure Exchanged (layout : IoBufferLayout) (this : IoBuffer) (taken returned : List Iovec)
    (after : IoBuffer) : Prop where
  data : after.data = this.data
  slotCount : after.slotCount = this.slotCount
  tail : after.freeSlotsTail =
    (Ring.Machine.next this.slotCount)^[taken.length] this.freeSlotsTail
  read : taken = (visited this.slotCount this.freeSlotsTail taken.length).map fun index =>
    ⟨this.freeSlots index.toNat, layout.slotSize⟩
  head : after.freeSlotsHead =
    (Ring.Machine.next this.slotCount)^[returned.length] this.freeSlotsHead
  written : (visited this.slotCount (Ring.Machine.next this.slotCount this.freeSlotsHead)
      returned.length).map (fun index => after.freeSlots index.toNat) =
    returned.map Iovec.iovBase
  kept : ∀ place, (∀ index ∈ visited this.slotCount
      (Ring.Machine.next this.slotCount this.freeSlotsHead) returned.length,
    index.toNat ≠ place) → after.freeSlots place = this.freeSlots place

variable {layout : IoBufferLayout} {this : IoBuffer}

theorem Runaway.inOrder {size : UInt32} {base lent returned rounds : Nat}
    (runaway : this.Runaway layout size base lent returned) (positive : 0 < size.toNat)
    (fits : size.toNat + returned + rounds < 2 ^ 32) : this.InOrder rounds := by
  have head := runaway.head
  constructor
  · rw [UInt32.lt_iff_toNat_lt, runaway.tail, runaway.slotCount]
    exact Nat.mod_lt _ positive
  · refine .inr ⟨?_, by omega⟩
    rw [UInt32.le_iff_toNat_le, runaway.slotCount, head]
    exact Nat.le_add_right _ _

private theorem visited_succ (size index : UInt32) (rounds : Nat) :
    visited size index (rounds + 1) =
      index :: visited size (Ring.Machine.next size index) rounds := rfl

private theorem mem_visited {size index met : UInt32} {rounds : Nat} :
    met ∈ visited size index rounds ↔
      ∃ round < rounds, met = (Ring.Machine.next size)^[round] index := by
  rw [visited, List.mem_iterate]

/-- The loop of `io_buffer_get` meets the head only where it stops. -/
theorem get_exchanged (count : Nat) : ∀ this : IoBuffer,
    Exchanged layout this (get layout count this).1 [] (get layout count this).2 ∧
      ∀ index ∈ visited this.slotCount this.freeSlotsTail (get layout count this).1.length,
        index ≠ this.freeSlotsHead := by
  induction count with
  | zero =>
      intro this
      exact ⟨⟨rfl, rfl, rfl, rfl, rfl, rfl, fun _ _ => rfl⟩, List.forall_mem_nil _⟩
  | succ count ih =>
      intro this
      obtain ⟨later, apart⟩ := ih { this with
        freeSlotsTail := Ring.Machine.next this.slotCount this.freeSlotsTail }
      unfold get
      split
      · exact ⟨⟨rfl, rfl, rfl, rfl, rfl, rfl, fun _ _ => rfl⟩, List.forall_mem_nil _⟩
      · rename_i some
        refine ⟨⟨later.data, later.slotCount, later.tail, ?_, later.head, rfl, later.kept⟩, ?_⟩
        · rw [List.length_cons, visited_succ, List.map_cons]
          exact congrArg _ later.read
        · rw [List.length_cons, visited_succ, List.forall_mem_cons]
          exact ⟨by simpa [empty] using some, apart⟩

theorem put_exchanged (iovecs : List Iovec) : ∀ this : IoBuffer,
    (∀ index ∈ visited this.slotCount (Ring.Machine.next this.slotCount this.freeSlotsHead)
      iovecs.length, index ≠ this.freeSlotsTail) →
    (visited this.slotCount (Ring.Machine.next this.slotCount this.freeSlotsHead)
      iovecs.length).Nodup →
    ∃ after, put iovecs this = some after ∧ Exchanged layout this [] iovecs after := by
  induction iovecs with
  | nil => exact fun this _ _ => ⟨this, rfl, rfl, rfl, rfl, rfl, rfl, rfl, fun _ _ => rfl⟩
  | cons iovec iovecs ih =>
      intro this apart distinct
      rw [List.length_cons, visited_succ, List.forall_mem_cons] at apart
      rw [List.length_cons, visited_succ, List.nodup_cons] at distinct
      obtain ⟨after, done, later⟩ := ih (this.putSlot iovec) apart.2 distinct.2
      have first : after.freeSlots
          (Ring.Machine.next this.slotCount this.freeSlotsHead).toNat = iovec.iovBase := by
        rw [later.kept]
        · exact Function.update_self _ _ _
        · intro index member same
          rw [UInt32.toNat_inj.mp same] at member
          exact distinct.1 member
      refine ⟨after, by rw [put_cons, if_neg apart.1, done],
        later.data, later.slotCount, later.tail, rfl, later.head, ?_, ?_⟩
      · rw [List.length_cons, visited_succ, List.map_cons, List.map_cons, first]
        exact congrArg _ later.written
      · intro place others
        rw [List.length_cons, visited_succ, List.forall_mem_cons] at others
        rw [later.kept place others.2]
        exact Function.update_of_ne (Ne.symm others.1) _ _

/-- Inside the table the indices go round. -/
private theorem toNat_iterate_next {size index : UInt32} (inside : index < size) (rounds : Nat) :
    ((Ring.Machine.next size)^[rounds] index).toNat = (index.toNat + rounds) % size.toNat ∧
      (Ring.Machine.next size)^[rounds] index < size := by
  induction rounds with
  | zero => exact ⟨(Nat.mod_eq_of_lt (UInt32.lt_iff_toNat_lt.mp inside)).symm, inside⟩
  | succ rounds ih =>
      obtain ⟨place, below⟩ := ih
      rw [Function.iterate_succ_apply']
      refine ⟨?_, Ring.Machine.next_lt below⟩
      rw [Ring.Machine.toNat_next below, Ring.next_eq_mod (UInt32.lt_iff_toNat_lt.mp below), place,
        Nat.mod_add_mod, Nat.add_assoc]

/-- Behind its end they go on and on. -/
private theorem toNat_iterate_next_beyond {size index : UInt32} (beyond : size ≤ index)
    {rounds : Nat} (fits : index.toNat + rounds < 2 ^ 32) :
    ((Ring.Machine.next size)^[rounds] index).toNat = index.toNat + rounds := by
  induction rounds with
  | zero => rfl
  | succ rounds ih =>
      have place := ih (by omega)
      have below := UInt32.le_iff_toNat_le.mp beyond
      have sum : ((Ring.Machine.next size)^[rounds] index + 1).toNat =
          index.toNat + (rounds + 1) := by
        rw [UInt32.toNat_add, UInt32.toNat_one, place]
        omega
      rw [Function.iterate_succ_apply', Ring.Machine.next, if_neg, sum]
      intro same
      rw [same] at sum
      omega

/-- What the head meets inside the table. -/
private theorem visited_next_map_toNat {size head : UInt32} (inside : head < size) (rounds : Nat) :
    (visited size (Ring.Machine.next size head) rounds).map UInt32.toNat =
      Residue.residues size.toNat (head.toNat + 1) rounds := by
  rw [visited, ← List.range_map_iterate, List.map_map, Residue.residues]
  refine List.map_congr_left fun round _ => ?_
  rw [Function.comp_apply, ← Function.iterate_succ_apply, (toNat_iterate_next inside _).1,
    Nat.add_assoc, Nat.add_comm 1]

private theorem visited_next_map_toNat_beyond {size head : UInt32} (beyond : size ≤ head)
    {rounds : Nat} (fits : head.toNat + rounds < 2 ^ 32) :
    (visited size (Ring.Machine.next size head) rounds).map UInt32.toNat =
      (List.range rounds).map (head.toNat + 1 + ·) := by
  rw [visited, ← List.range_map_iterate, List.map_map]
  refine List.map_congr_left fun round member => ?_
  have less := List.mem_range.mp member
  rw [Function.comp_apply, ← Function.iterate_succ_apply,
    toNat_iterate_next_beyond beyond (by omega)]
  omega

/-- As many slots as have been handed out can be put back: they go where the
table has no slot left to hand out. -/
theorem InOrder.apart {rounds : Nat} (inOrder : this.InOrder rounds)
    (apart : ∀ index ∈ visited this.slotCount this.freeSlotsTail rounds,
      index ≠ this.freeSlotsHead) {returned : Nat} (few : returned ≤ rounds) :
    (∀ index ∈ visited this.slotCount (Ring.Machine.next this.slotCount this.freeSlotsHead)
        returned, index ≠ (Ring.Machine.next this.slotCount)^[rounds] this.freeSlotsTail) ∧
      (visited this.slotCount (Ring.Machine.next this.slotCount this.freeSlotsHead)
        returned).Nodup := by
  obtain ⟨tail, head⟩ := inOrder
  obtain ⟨last, lastInside⟩ := toNat_iterate_next tail rounds
  have lastLess := UInt32.lt_iff_toNat_lt.mp lastInside
  rcases head with inside | ⟨beyond, fits⟩
  · have less := UInt32.lt_iff_toNat_lt.mp inside
    have differs : ∀ round < rounds,
        (this.freeSlotsTail.toNat + round) % this.slotCount.toNat ≠ this.freeSlotsHead.toNat := by
      intro round early same
      rw [← (toNat_iterate_next tail round).1, UInt32.toNat_inj] at same
      exact apart _ (mem_visited.mpr ⟨round, early, rfl⟩) same
    have narrow : rounds ≤ this.slotCount.toNat := by
      by_contra wide
      obtain ⟨round, early, same⟩ := Residue.mem_residues.mp
        (@Residue.residues_complete _ this.freeSlotsTail.toNat _ less)
      exact differs round (by omega) same
    have places := visited_next_map_toNat inside returned
    constructor
    · intro index member same
      have place := List.mem_map_of_mem (f := UInt32.toNat) member
      rw [places] at place
      obtain ⟨round, early, met⟩ := Residue.mem_residues.mp place
      rw [same, last] at met
      have back : Nat.ModEq this.slotCount.toNat (this.freeSlotsHead.toNat + (round + 1))
          (this.freeSlotsTail.toNat + (rounds - (round + 1)) + (round + 1)) := by
        rw [Nat.add_assoc this.freeSlotsTail.toNat, Nat.sub_add_cancel (by omega), Nat.ModEq,
          ← met]
        congr 1
        omega
      have behind := (Nat.ModEq.add_right_cancel' _ back).symm
      rw [Nat.ModEq, Nat.mod_eq_of_lt less] at behind
      exact differs _ (by omega) behind
    · refine List.Nodup.of_map UInt32.toNat ?_
      rw [places]
      exact Residue.residues_nodup (by omega)
  · have least := UInt32.le_iff_toNat_le.mp beyond
    have places := @visited_next_map_toNat_beyond _ _ beyond returned (by omega)
    constructor
    · intro index member same
      have place := List.mem_map_of_mem (f := UInt32.toNat) member
      rw [places] at place
      obtain ⟨round, _, met⟩ := List.mem_map.mp place
      rw [same] at met
      omega
    · refine List.Nodup.of_map UInt32.toNat ?_
      rw [places]
      exact List.nodup_range.map fun _ _ same => Nat.add_left_cancel same

/-- A get, and a put of so many slots as the get has handed out or fewer, go
through. -/
theorem InOrder.exchanges {count : Nat} {returned : List Iovec}
    (inOrder : this.InOrder (get layout count this).1.length)
    (few : returned.length ≤ (get layout count this).1.length) :
    ∃ after, put returned (get layout count this).2 = some after ∧
      Exchanged layout this (get layout count this).1 returned after := by
  obtain ⟨taken, apart⟩ := @get_exchanged layout count this
  obtain ⟨clear, distinct⟩ := inOrder.apart apart few
  rw [← taken.tail] at clear
  have head : (get layout count this).2.freeSlotsHead = this.freeSlotsHead := taken.head
  obtain ⟨after, done, put⟩ := @put_exchanged layout returned (get layout count this).2
    (by rw [taken.slotCount, head]; exact clear) (by rw [taken.slotCount, head]; exact distinct)
  obtain ⟨data, slotCount, tail, _, moved, written, kept⟩ := put
  rw [taken.slotCount, head] at moved written kept
  refine ⟨after, done, data.trans taken.data, slotCount.trans taken.slotCount,
    tail.trans taken.tail, taken.read, moved, written, ?_⟩
  intro place others
  rw [kept place others]
  exact taken.kept place (List.forall_mem_nil _)

end Striga.Greenev.IoBuffer
