import Striga.Greenev.IoBufferLending

/-! The entries of `free_slots` that gets read and puts write. -/

set_option autoImplicit false

namespace Striga.Greenev

namespace IoBuffer

variable {layout : IoBufferLayout}

/-- The indices that the loop of `io_buffer_get` reads. -/
def getIndices : Nat → IoBuffer → List UInt32
  | 0, _ => []
  | count + 1, this =>
      if this.empty then
        []
      else
        this.freeSlotsTail :: getIndices count { this with
          freeSlotsTail := Lib.Ring.Machine.next this.slotCount this.freeSlotsTail }

/-- The indices that the loop of `io_buffer_put` writes before its assert fails,
where it does. -/
def putIndices : List Iovec → IoBuffer → List UInt32
  | [], _ => []
  | iovec :: iovecs, this =>
      let head := Lib.Ring.Machine.next this.slotCount this.freeSlotsHead
      if head = this.freeSlotsTail then
        []
      else
        head :: putIndices iovecs { this with
          freeSlotsHead := head
          freeSlots := Function.update this.freeSlots head.toNat iovec.iovBase }

/-- One round of the loop of `io_buffer_put`, past its assert. -/
def putSlot (this : IoBuffer) (iovec : Iovec) : IoBuffer :=
  { this with
    freeSlotsHead := Lib.Ring.Machine.next this.slotCount this.freeSlotsHead
    freeSlots := Function.update this.freeSlots
      (Lib.Ring.Machine.next this.slotCount this.freeSlotsHead).toNat iovec.iovBase }

theorem put_cons (iovec : Iovec) (iovecs : List Iovec) (this : IoBuffer) :
    put (iovec :: iovecs) this =
      if Lib.Ring.Machine.next this.slotCount this.freeSlotsHead = this.freeSlotsTail then none
      else put iovecs (this.putSlot iovec) := rfl

private theorem putIndices_cons (iovec : Iovec) (iovecs : List Iovec) (this : IoBuffer) :
    putIndices (iovec :: iovecs) this =
      if Lib.Ring.Machine.next this.slotCount this.freeSlotsHead = this.freeSlotsTail then []
      else Lib.Ring.Machine.next this.slotCount this.freeSlotsHead ::
        putIndices iovecs (this.putSlot iovec) := rfl

theorem get_eq_map (count : Nat) : ∀ this : IoBuffer,
    (get layout count this).1 =
      (getIndices count this).map fun index => ⟨this.freeSlots index.toNat, layout.slotSize⟩ := by
  induction count with
  | zero => exact fun _ => rfl
  | succ count ih =>
      intro this
      unfold get getIndices
      split
      · rfl
      · rw [List.map_cons]
        exact congrArg _ (ih _)

/-- A put leaves every other entry of the table alone. -/
theorem put_frame (iovecs : List Iovec) : ∀ {this after : IoBuffer},
    put iovecs this = some after → ∀ index : Nat,
      (∀ written ∈ putIndices iovecs this, written.toNat ≠ index) →
      after.freeSlots index = this.freeSlots index := by
  induction iovecs with
  | nil =>
      intro this after done index _
      cases done
      rfl
  | cons iovec iovecs ih =>
      intro this after done index apart
      rw [put_cons] at done
      rw [putIndices_cons] at apart
      split at done
      · cases done
      · rename_i free
        rw [if_neg free] at apart
        rw [ih done index fun written member => apart written (List.mem_cons_of_mem _ member)]
        exact Function.update_of_ne (Ne.symm (apart _ List.mem_cons_self)) _ _

/-- Where gets and puts have left the indices: the tail is inside the table; the
head is still where it started, behind the end, or, in the largest table there
can be, has come round to the first entry through the end of the unsigned range. -/
structure Tracks (size : UInt32) (lent returned : Nat) (this : IoBuffer) : Prop where
  slotCount : this.slotCount = size
  tail : this.freeSlotsTail.toNat = lent % size.toNat
  head : (returned = 0 ∧ this.freeSlotsHead = size) ∨
    (size.toNat = 2 ^ 32 - 1 ∧
      (Lib.Ring.Machine.next size this.freeSlotsHead).toNat = returned % size.toNat)

/-- With so many slots out on loan, this many can come back to entries of the
table that the next get is not about to read. -/
def Fits (size : UInt32) (outstanding count : Nat) : Prop :=
  count = 0 ∨ (size.toNat = 2 ^ 32 - 1 ∧
    ∀ before < count, (outstanding - before) % size.toNat ≠ 0)

variable {size : UInt32} {lent returned : Nat} {this : IoBuffer}

theorem Tracks.tail_lt (tracks : this.Tracks size lent returned) (positive : 0 < size.toNat) :
    this.freeSlotsTail < this.slotCount := by
  rw [UInt32.lt_iff_toNat_lt, tracks.tail, tracks.slotCount]
  exact Nat.mod_lt _ positive

theorem Tracks.advance_tail (tracks : this.Tracks size lent returned) (positive : 0 < size.toNat) :
    ({ this with
        freeSlotsTail := Lib.Ring.Machine.next this.slotCount this.freeSlotsTail } :
      IoBuffer).Tracks size (lent + 1) returned := by
  refine ⟨tracks.slotCount, ?_, tracks.head⟩
  rw [Lib.Ring.Machine.toNat_next (tracks.tail_lt positive), tracks.tail, tracks.slotCount,
    Lib.Ring.next_eq_mod (Nat.mod_lt _ positive), Nat.mod_add_mod]

/-- Gets read inside the table, and move the tail by what they hand out. -/
theorem Tracks.get (layout : IoBufferLayout) (positive : 0 < size.toNat) (count : Nat) :
    ∀ {this : IoBuffer} {lent : Nat}, this.Tracks size lent returned →
      (∀ index ∈ getIndices count this, index < size) ∧
      (get layout count this).2.Tracks size (lent + (get layout count this).1.length) returned := by
  induction count with
  | zero =>
      intro this lent tracks
      exact ⟨fun _ none => absurd none List.not_mem_nil, tracks⟩
  | succ count ih =>
      intro this lent tracks
      obtain ⟨inside, after⟩ := ih (tracks.advance_tail positive)
      unfold IoBuffer.get getIndices
      split
      · exact ⟨fun _ none => absurd none List.not_mem_nil, tracks⟩
      · constructor
        · intro index member
          rcases List.mem_cons.mp member with first | later
          · rw [first, ← tracks.slotCount]
            exact tracks.tail_lt positive
          · exact inside index later
        · rw [List.length_cons, Nat.add_comm _ 1, ← Nat.add_assoc]
          exact after

private theorem fits_zero (outstanding : Nat) : Fits size outstanding 0 := .inl rfl

private theorem fits_succ {outstanding count : Nat} :
    Fits size outstanding (count + 1) ↔
      size.toNat = 2 ^ 32 - 1 ∧ outstanding % size.toNat ≠ 0 ∧
        Fits size (outstanding - 1) count := by
  constructor
  · intro fits
    obtain none | ⟨widest, places⟩ := fits
    · cases none
    · refine ⟨widest, places 0 (by omega), .inr ⟨widest, ?_⟩⟩
      intro before less
      have place := places (before + 1) (by omega)
      rwa [Nat.sub_add_eq, Nat.sub_right_comm] at place
  · intro fits
    obtain ⟨widest, first, rest⟩ := fits
    refine .inr ⟨widest, ?_⟩
    intro before less
    cases before with
    | zero => exact first
    | succ before =>
        rcases rest with none | ⟨_, places⟩
        · omega
        · rw [Nat.sub_add_eq, Nat.sub_right_comm]
          exact places before (by omega)

/-- Before the first slot comes back the next index is behind the end of every
table but the largest. -/
theorem Tracks.next_head (tracks : this.Tracks size lent returned) (positive : 0 < size.toNat) :
    (size.toNat = 2 ^ 32 - 1 ∧
      (Lib.Ring.Machine.next size this.freeSlotsHead).toNat = returned % size.toNat) ∨
    (size.toNat ≠ 2 ^ 32 - 1 ∧ Lib.Ring.Machine.next size this.freeSlotsHead = size + 1 ∧
      (size + 1).toNat = size.toNat + 1) := by
  rcases tracks.head with ⟨none, start⟩ | ⟨widest, around⟩
  · have wide := size.toNat_lt
    have differs : size + 1 ≠ size := by
      intro same
      have := congrArg UInt32.toNat same
      rw [UInt32.toNat_add, UInt32.toNat_one] at this
      omega
    have sum : Lib.Ring.Machine.next size this.freeSlotsHead = size + 1 := by
      rw [Lib.Ring.Machine.next, start, if_neg differs]
    by_cases widest : size.toNat = 2 ^ 32 - 1
    · refine .inl ⟨widest, ?_⟩
      rw [sum, none, UInt32.toNat_add, UInt32.toNat_one, widest]
      rfl
    · refine .inr ⟨widest, sum, ?_⟩
      rw [UInt32.toNat_add, UInt32.toNat_one]
      omega
  · exact .inl ⟨widest, around⟩

theorem Tracks.putSlot (tracks : this.Tracks size lent returned) (positive : 0 < size.toNat)
    (widest : size.toNat = 2 ^ 32 - 1)
    (around : (Lib.Ring.Machine.next size this.freeSlotsHead).toNat = returned % size.toNat)
    (iovec : Iovec) : (this.putSlot iovec).Tracks size lent (returned + 1) := by
  refine ⟨tracks.slotCount, tracks.tail, .inr ⟨widest, ?_⟩⟩
  have inside : Lib.Ring.Machine.next size this.freeSlotsHead < size := by
    rw [UInt32.lt_iff_toNat_lt, around]
    exact Nat.mod_lt _ positive
  simp only [IoBuffer.putSlot, tracks.slotCount]
  rw [Lib.Ring.Machine.toNat_next inside, around, Lib.Ring.next_eq_mod (Nat.mod_lt _ positive),
    Nat.mod_add_mod]

theorem Tracks.meets_tail_iff (tracks : this.Tracks size lent returned)
    (around : (Lib.Ring.Machine.next size this.freeSlotsHead).toNat = returned % size.toNat)
    (lends : returned ≤ lent) :
    Lib.Ring.Machine.next this.slotCount this.freeSlotsHead = this.freeSlotsTail ↔
      (lent - returned) % size.toNat = 0 := by
  rw [tracks.slotCount, ← UInt32.toNat_inj, around, tracks.tail]
  constructor
  · intro same
    exact Nat.sub_mod_eq_zero_of_mod_eq same.symm
  · intro divides
    have sum : lent = returned + (lent - returned) := by omega
    rw [sum, Nat.add_mod, divides, Nat.add_zero, Nat.mod_mod]

/-- A put keeps inside the table, and past its assert, exactly when what it
returns fits. -/
theorem Tracks.put (iovecs : List Iovec) (positive : 0 < size.toNat) :
    ∀ {this : IoBuffer} {returned : Nat}, this.Tracks size lent returned →
      returned + iovecs.length ≤ lent →
      (((∀ index ∈ putIndices iovecs this, index < size) ∧ (put iovecs this).isSome) ↔
        Fits size (lent - returned) iovecs.length) ∧
      (Fits size (lent - returned) iovecs.length → ∀ after, put iovecs this = some after →
        after.Tracks size lent (returned + iovecs.length)) := by
  induction iovecs with
  | nil =>
      intro this returned tracks _
      refine ⟨by simp [putIndices, IoBuffer.put, fits_zero], ?_⟩
      intro _ after done
      cases done
      exact tracks
  | cons iovec iovecs ih =>
      intro this returned tracks lends
      rw [List.length_cons] at lends ⊢
      rw [put_cons, putIndices_cons, fits_succ]
      rcases tracks.next_head positive with ⟨widest, around⟩ | ⟨narrow, beyond, sum⟩
      · have meets := tracks.meets_tail_iff around (by omega)
        obtain ⟨exact, after⟩ := ih (tracks.putSlot positive widest around iovec) (by omega)
        rw [Nat.sub_add_eq] at exact after
        have inside : Lib.Ring.Machine.next this.slotCount this.freeSlotsHead < size := by
          rw [tracks.slotCount, UInt32.lt_iff_toNat_lt, around]
          exact Nat.mod_lt _ positive
        by_cases met : Lib.Ring.Machine.next this.slotCount this.freeSlotsHead = this.freeSlotsTail
        · rw [if_pos met, if_pos met]
          constructor
          · simp [meets.mp met]
          · intro fits
            exact absurd (meets.mp met) fits.2.1
        · rw [if_neg met, if_neg met]
          constructor
          · rw [List.forall_mem_cons, and_assoc, exact]
            exact ⟨fun kept => ⟨widest, mt meets.mpr met, kept.2⟩,
              fun fits => ⟨inside, fits.2.2⟩⟩
          · intro fits last done
            have tracks := after fits.2.2 last done
            rwa [Nat.add_right_comm, Nat.add_assoc] at tracks
      · have apart : Lib.Ring.Machine.next this.slotCount this.freeSlotsHead ≠
          this.freeSlotsTail := by
          have less := UInt32.lt_iff_toNat_lt.mp (tracks.tail_lt positive)
          rw [tracks.slotCount] at less ⊢
          rw [beyond, ← UInt32.toNat_inj.ne, sum]
          omega
        rw [if_neg apart, if_neg apart, tracks.slotCount, beyond]
        constructor
        · refine iff_of_false ?_ fun fits => narrow fits.1
          intro kept
          have less := UInt32.lt_iff_toNat_lt.mp (kept.1 _ List.mem_cons_self)
          omega
        · intro fits
          exact absurd fits.1 narrow

end IoBuffer

namespace IoBufferTable

open Lib IoBufferLending

variable {layout : IoBufferLayout} {size : UInt32}

/-- The lending, and whether the assert of a put has failed. -/
structure State where
  lending : IoBufferLending.State
  aborted : Bool

inductive Step (layout : IoBufferLayout) : State → Label → State → Prop where
  | call {state label lending} :
      state.aborted = false → IoBufferLending.Step layout state.lending label lending →
      Step layout state label ⟨lending, false⟩
  | abort {state iovecs} :
      state.aborted = false → (iovecs.map Iovec.iovBase).Subperm state.lending.outstanding →
      state.lending.buffer.put iovecs = none →
      Step layout state (.put iovecs) { state with aborted := true }

def system (layout : IoBufferLayout) (size : UInt32) : System State Label where
  initial state := ∃ block memory, state = ⟨.fresh layout block size memory, false⟩
  step := Step layout

def indices (buffer : IoBuffer) : Label → List UInt32
  | .get slotCount => buffer.getIndices slotCount.toNat
  | .put iovecs => buffer.putIndices iovecs

/-- The call reads and writes entries of the table only, and no assert fails. -/
def WithinTable (size : UInt32) (state : State) (label : Label) (next : State) : Prop :=
  (∀ index ∈ indices state.lending.buffer label, index < size) ∧ next.aborted = false

/-- The call is a get, or a put that returns nothing; or the table is the largest
there can be and the slots out on loan are never a multiple of it as they come back. -/
def NothingReturned (size : UInt32) (state : State) (label : Label) (_ : State) : Prop :=
  match label with
  | .get _ => True
  | .put iovecs => IoBuffer.Fits size state.lending.outstanding.length iovecs.length

structure Sound (size : UInt32) (state : State) : Prop where
  tracks : state.lending.buffer.Tracks size state.lending.lent.length state.lending.returned
  balance : state.lending.outstanding.length + state.lending.returned = state.lending.lent.length

variable {state : State}

private theorem fresh_sound {block : Nat} {memory : Nat → Nat} :
    Sound size ⟨.fresh layout block size memory, false⟩ where
  tracks := ⟨rfl, (Nat.zero_mod _).symm, .inl ⟨rfl, rfl⟩⟩
  balance := rfl

theorem Sound.get (sound : Sound size state) (positive : 0 < size.toNat) (slotCount : UInt32) :
    Sound size ⟨state.lending.get layout slotCount, false⟩ := by
  obtain ⟨_, after⟩ := sound.tracks.get layout positive slotCount.toNat
  constructor
  · simpa [IoBufferLending.State.get, IoBufferLending.State.handed] using after
  · have balance := sound.balance
    simp [IoBufferLending.State.get]
    omega

private theorem length_diff_of_subperm {α : Type} [DecidableEq α] {taken all : List α}
    (subperm : taken.Subperm all) : (all.diff taken).length + taken.length = all.length := by
  have parts := (List.subperm_append_diff_self_of_count_le
    (List.subperm_ext_iff.mp subperm)).length_eq
  rw [List.length_append] at parts
  omega

theorem Sound.put (sound : Sound size state) {iovecs : List Iovec} {buffer : IoBuffer}
    (owned : (iovecs.map Iovec.iovBase).Subperm state.lending.outstanding)
    (tracks : buffer.Tracks size state.lending.lent.length
      (state.lending.returned + iovecs.length)) :
    Sound size ⟨state.lending.put iovecs buffer, false⟩ := by
  have split := length_diff_of_subperm owned
  have balance := sound.balance
  rw [List.length_map] at split
  constructor
  · exact tracks
  · simp only [IoBufferLending.State.put]
    omega

theorem Sound.put_exact (sound : Sound size state) (positive : 0 < size.toNat)
    {iovecs : List Iovec}
    (owned : (iovecs.map Iovec.iovBase).Subperm state.lending.outstanding) :
    (((∀ index ∈ state.lending.buffer.putIndices iovecs, index < size) ∧
        (state.lending.buffer.put iovecs).isSome) ↔
      IoBuffer.Fits size state.lending.outstanding.length iovecs.length) ∧
    (IoBuffer.Fits size state.lending.outstanding.length iovecs.length →
      ∀ after, state.lending.buffer.put iovecs = some after →
        after.Tracks size state.lending.lent.length (state.lending.returned + iovecs.length)) := by
  have balance := sound.balance
  have few := owned.length_le
  rw [List.length_map] at few
  have exact := sound.tracks.put iovecs positive (by omega)
  rwa [show state.lending.lent.length - state.lending.returned =
    state.lending.outstanding.length by omega] at exact

theorem withinTable_iff_nothingReturned (layout : IoBufferLayout) (size : UInt32)
    (positive : 0 < size) (start : State) (path : List (Label × State))
    (run : (system layout size).Run start path) :
    AllSteps (WithinTable size) start path ↔ AllSteps (NothingReturned size) start path := by
  have some : 0 < size.toNat := UInt32.lt_iff_toNat_lt.mp positive
  apply run.steps.allSteps_iff (Sound size)
  · obtain ⟨block, memory, rfl⟩ := run.starts
    exact fresh_sound
  · intro state label next sound taken
    cases taken with
    | call live taken =>
        cases taken with
        | get =>
            refine iff_of_true ⟨?_, rfl⟩ trivial
            exact (sound.tracks.get layout some _).1
        | @put iovecs buffer owned done =>
            have exact := (sound.put_exact some owned).1
            rw [done] at exact
            simpa [WithinTable, NothingReturned, indices] using exact
    | abort live owned failed =>
        have exact := (sound.put_exact some owned).1
        rw [failed] at exact
        simpa [WithinTable, NothingReturned] using exact
  · intro state label next sound taken met
    cases taken with
    | call live taken =>
        cases taken with
        | @get slotCount => exact sound.get some slotCount
        | put owned done =>
            apply sound.put owned
            exact (sound.put_exact some owned).2 met _ done
    | abort live owned failed =>
        have kept := (sound.put_exact some owned).1.mpr met
        rw [failed] at kept
        exact absurd kept.2 Bool.false_ne_true

/-- Three slots are lent, an empty list and then two of the three come back. -/
theorem withinTable_iff_nothingReturned_back :
    let start : State := ⟨.fresh .lp64 0 4 fun _ => 0, false⟩
    let iovecs := (start.lending.buffer.get .lp64 2).1
    let lent : State := ⟨start.lending.get .lp64 3, false⟩
    let kept : State := ⟨lent.lending.put [] lent.lending.buffer, false⟩
    let back : State :=
      ⟨kept.lending.put iovecs ((kept.lending.buffer.put iovecs).getD kept.lending.buffer), false⟩
    let path := [(Label.get 3, lent), (.put [], kept), (.put iovecs, back)]
    AllSteps (WithinTable 4) start path ↔ AllSteps (NothingReturned 4) start path := by
  intro start iovecs lent kept back path
  have owned : (iovecs.map Iovec.iovBase).Subperm kept.lending.outstanding := by decide
  have run : (system .lp64 4).Run start path :=
    ⟨⟨0, fun _ => 0, rfl⟩, .call rfl .get, .call rfl (.put List.nil_subperm rfl),
      .call rfl (.put owned rfl), trivial⟩
  exact withinTable_iff_nothingReturned .lp64 4 (by decide) start path run

/-- The first slot that comes back is written behind the end of the table. -/
theorem firstReturnLeavesTable :
    ¬∀ (size : UInt32), 0 < size → ∀ start path,
      (system .lp64 size).Run start path → AllSteps (WithinTable size) start path := by
  intro always
  let start : State := ⟨.fresh .lp64 0 8192 fun _ => 0, false⟩
  let lent : State := ⟨start.lending.get .lp64 1, false⟩
  let iovecs : List Iovec := (start.lending.buffer.get .lp64 1).1
  have positive : 0 < (8192 : UInt32).toNat := by decide
  have runaway : Runaway .lp64 8192 start.lending := fresh_runaway
  have one : iovecs.length = 1 := by
    have count := runaway.length_handed positive 1
    rwa [State.handed, List.length_map] at count
  have sound : Sound 8192 lent := fresh_sound.get positive 1
  have owned : (iovecs.map Iovec.iovBase).Subperm lent.lending.outstanding := List.Subperm.refl _
  have unfit : ¬IoBuffer.Fits 8192 lent.lending.outstanding.length iovecs.length := by
    rw [one]
    intro fits
    exact absurd (IoBuffer.fits_succ.mp fits).1 (by decide)
  have starts : (system .lp64 8192).initial start := ⟨0, fun _ => 0, rfl⟩
  have borrows : Step .lp64 start (.get 1) lent := .call rfl .get
  have exact := (sound.put_exact positive owned).1
  cases result : lent.lending.buffer.put iovecs with
  | none =>
      have stays := always 8192 (by decide) start [(.get 1, lent), (.put iovecs, _)]
        ⟨starts, borrows, .abort rfl owned result, trivial⟩
      exact absurd stays.2.1.2 (by simp)
  | some after =>
      have stays := always 8192 (by decide) start [(.get 1, lent), (.put iovecs, _)]
        ⟨starts, borrows, .call rfl (.put owned result), trivial⟩
      exact unfit (exact.mp ⟨stays.2.1.1, by rw [result]; rfl⟩)

end IoBufferTable

end Striga.Greenev
