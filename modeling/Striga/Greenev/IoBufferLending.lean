import Striga.Greenev.IoBuffer
import Striga.Lib.Transition

/-! Lending slots of an `io_buffer` and taking them back. The head starts at
`slot_count`, so the first put moves it past the end of the table, where the
wrap test no longer meets it, and no get ever meets it with its tail: slots are
lent round and round in the order of the table, returned or not. -/

set_option autoImplicit false

namespace Striga.Greenev.IoBufferLending

open Lib

variable {layout : IoBufferLayout} {size : UInt32} {memory : Nat → Nat} {block : Nat}

/-- The buffer, the slots out on loan, all slots lent so far in the order of
lending, and the number of slots returned. -/
structure State where
  buffer : IoBuffer
  outstanding : List Nat
  lent : List Nat
  returned : Nat

inductive Label where
  | get (slotCount : UInt32)
  | put (iovecs : List Iovec)

def State.handed (layout : IoBufferLayout) (state : State) (slotCount : UInt32) : List Nat :=
  (state.buffer.get layout slotCount.toNat).1.map Iovec.iovBase

def State.get (layout : IoBufferLayout) (state : State) (slotCount : UInt32) : State where
  buffer := (state.buffer.get layout slotCount.toNat).2
  outstanding := state.outstanding ++ state.handed layout slotCount
  lent := state.lent ++ state.handed layout slotCount
  returned := state.returned

def State.put (state : State) (iovecs : List Iovec) (buffer : IoBuffer) : State where
  buffer := buffer
  outstanding := state.outstanding.diff (iovecs.map Iovec.iovBase)
  lent := state.lent
  returned := state.returned + iovecs.length

inductive Step (layout : IoBufferLayout) : State → Label → State → Prop where
  | get {state slotCount} : Step layout state (.get slotCount) (state.get layout slotCount)
  | put {state iovecs buffer} :
      (iovecs.map Iovec.iovBase).Subperm state.outstanding →
      state.buffer.put iovecs = some buffer →
      Step layout state (.put iovecs) (state.put iovecs buffer)

def State.fresh (layout : IoBufferLayout) (block : Nat) (size : UInt32) (memory : Nat → Nat) :
    State :=
  ⟨.new layout block size memory, [], [], 0⟩

def system (layout : IoBufferLayout) (size : UInt32) : System State Label where
  initial state := ∃ block memory, state = .fresh layout block size memory
  step := Step layout

def State.slots (layout : IoBufferLayout) (state : State) : List Nat :=
  (List.range state.buffer.slotCount.toNat).map (IoBuffer.slot layout state.buffer.data)

def State.free (layout : IoBufferLayout) (state : State) : List Nat :=
  (state.slots layout).filter (· ∉ state.outstanding)

/-- Each slot is free or out on loan, and none is both or twice out. -/
def State.Partitioned (layout : IoBufferLayout) (state : State) : Prop :=
  (state.free layout ++ state.outstanding).Perm (state.slots layout)

/-- A get hands out no slot twice, none that is out on loan, and as many as it
is asked for as long as there are that many. -/
def LendsOnce (layout : IoBufferLayout) (state : State) (label : Label) (next : State) : Prop :=
  state.Partitioned layout ∧ next.Partitioned layout ∧
    match label with
    | .get slotCount =>
        (state.handed layout slotCount).Nodup ∧
          (∀ slot ∈ state.handed layout slotCount, slot ∉ state.outstanding) ∧
          (state.handed layout slotCount).length =
            min slotCount.toNat (state.buffer.slotCount.toNat - state.outstanding.length)
    | .put _ => True

/-- A get asks for no more slots than the buffer has, and every slot out on
loan is among the last ones lent, as many of these as the get leaves over. -/
def ReturnedInTime (state : State) (label : Label) (_ : State) : Prop :=
  match label with
  | .get slotCount =>
      slotCount.toNat ≤ state.buffer.slotCount.toNat ∧
        state.outstanding ⊆ state.lent.drop
          (state.lent.length - (state.buffer.slotCount.toNat - slotCount.toNat))
  | .put _ => True

/-- A put writes no entry behind the block. -/
def HeadFits (layout : IoBufferLayout) (state : State) (label : Label) (_ : State) : Prop :=
  match label with
  | .get _ => True
  | .put iovecs => layout.Holds state.buffer.slotCount
      (state.buffer.slotCount.toNat + state.returned + iovecs.length)

/-- Where the index updates lead, and what has been lent on the way. -/
structure Runaway (layout : IoBufferLayout) (size : UInt32) (state : State) : Prop where
  buffer : state.buffer.Runaway layout size state.buffer.data state.lent.length state.returned
  lent : state.lent = (Residue.residues size.toNat 0 state.lent.length).map
    (IoBuffer.slot layout state.buffer.data)

structure Sound (state : State) : Prop where
  nodup : state.outstanding.Nodup
  lent : state.outstanding ⊆ state.lent

variable {state : State}

theorem Runaway.size_eq (runaway : Runaway layout size state) :
    state.buffer.slotCount = size := runaway.buffer.slotCount

theorem Runaway.handed_eq (runaway : Runaway layout size state) (positive : 0 < size.toNat)
    (slotCount : UInt32) :
    state.handed layout slotCount =
      (Residue.residues size.toNat state.lent.length slotCount.toNat).map
        (IoBuffer.slot layout state.buffer.data) := by
  rw [State.handed, (runaway.buffer.get positive slotCount.toNat).1, List.map_map]
  rfl

theorem Runaway.length_handed (runaway : Runaway layout size state) (positive : 0 < size.toNat)
    (slotCount : UInt32) : (state.handed layout slotCount).length = slotCount.toNat := by
  rw [runaway.handed_eq positive, List.length_map, Residue.length_residues]

theorem Runaway.get (runaway : Runaway layout size state) (positive : 0 < size.toNat)
    (slotCount : UInt32) : Runaway layout size (state.get layout slotCount) := by
  obtain ⟨_, after⟩ := runaway.buffer.get positive slotCount.toNat
  have handed := runaway.handed_eq positive slotCount
  have count := runaway.length_handed positive slotCount
  constructor
  · simpa only [State.get, after.data, List.length_append, count] using after
  · simp only [State.get, after.data, List.length_append, count, Residue.residues_append,
      List.map_append, Nat.zero_add, ← handed, ← runaway.lent]

theorem Runaway.put (runaway : Runaway layout size state) (positive : 0 < size.toNat)
    {iovecs : List Iovec} {buffer : IoBuffer}
    (fits : size.toNat + state.returned + iovecs.length < 2 ^ 32)
    (done : state.buffer.put iovecs = some buffer) :
    Runaway layout size (state.put iovecs buffer) := by
  obtain ⟨after, same, kept⟩ := runaway.buffer.put iovecs positive fits
  obtain rfl : buffer = after := Option.some.inj (done.symm.trans same)
  constructor
  · simpa only [State.put, kept.data] using kept
  · simpa only [State.put, kept.data] using runaway.lent

theorem Runaway.lent_subset (runaway : Runaway layout size state) (positive : 0 < size.toNat) :
    state.lent ⊆ state.slots layout := by
  intro slot member
  rw [runaway.lent] at member
  obtain ⟨residue, met, rfl⟩ := List.mem_map.mp member
  obtain ⟨offset, _, rfl⟩ := Residue.mem_residues.mp met
  refine List.mem_map.mpr ⟨_, List.mem_range.mpr ?_, rfl⟩
  rw [runaway.size_eq]
  exact Nat.mod_lt _ positive

theorem partitioned (runaway : Runaway layout size state) (sound : Sound state)
    (positive : 0 < size.toNat) : state.Partitioned layout := by
  have slotsNodup : (state.slots layout).Nodup :=
    List.nodup_range.map IoBuffer.slot_injective
  have inside : state.outstanding ⊆ state.slots layout :=
    fun _ member => runaway.lent_subset positive (sound.lent member)
  have unionNodup : (state.free layout ++ state.outstanding).Nodup := by
    refine List.nodup_append.mpr ⟨slotsNodup.filter _, sound.nodup, ?_⟩
    intro slot free other out same
    subst same
    simp [State.free, out] at free
  refine (List.perm_ext_iff_of_nodup unionNodup slotsNodup).mpr fun slot => ?_
  by_cases out : slot ∈ state.outstanding
  · simp [out, inside out]
  · simp [State.free, out]

/-- The slots that a get hands out are, among those already lent, the ones not
lent lately. -/
theorem Runaway.mem_recent_iff (runaway : Runaway layout size state) (positive : 0 < size.toNat)
    {slotCount : UInt32} (fits : slotCount.toNat ≤ size.toNat) {slot : Nat}
    (met : slot ∈ state.lent) :
    slot ∈ state.lent.drop (state.lent.length - (size.toNat - slotCount.toNat)) ↔
      slot ∉ state.handed layout slotCount := by
  rw [runaway.handed_eq positive, runaway.lent, List.length_map, Residue.length_residues,
    ← List.map_drop]
  rw [runaway.lent] at met
  obtain ⟨residue, member, rfl⟩ := List.mem_map.mp met
  rw [List.mem_map_of_injective IoBuffer.slot_injective,
    List.mem_map_of_injective IoBuffer.slot_injective]
  exact Residue.mem_recent_iff positive fits member

theorem lends_iff (runaway : Runaway layout size state) (sound : Sound state)
    (positive : 0 < size.toNat) (slotCount : UInt32) :
    ((state.handed layout slotCount).Nodup ∧
        (∀ slot ∈ state.handed layout slotCount, slot ∉ state.outstanding) ∧
        (state.handed layout slotCount).length =
          min slotCount.toNat (state.buffer.slotCount.toNat - state.outstanding.length)) ↔
      slotCount.toNat ≤ state.buffer.slotCount.toNat ∧
        state.outstanding ⊆ state.lent.drop
          (state.lent.length - (state.buffer.slotCount.toNat - slotCount.toNat)) := by
  have handed := runaway.handed_eq positive slotCount
  have count := runaway.length_handed positive slotCount
  rw [runaway.size_eq, count]
  constructor
  · intro lends
    obtain ⟨_, apart, enough⟩ := lends
    have fits : slotCount.toNat ≤ size.toNat := by omega
    refine ⟨fits, fun slot out => ?_⟩
    rw [runaway.mem_recent_iff positive fits (sound.lent out)]
    exact fun again => apart slot again out
  · intro inTime
    obtain ⟨fits, recent⟩ := inTime
    refine ⟨?_, ?_, ?_⟩
    · rw [handed]
      exact (Residue.residues_nodup fits).map IoBuffer.slot_injective
    · intro slot again out
      exact (runaway.mem_recent_iff positive fits (sound.lent out)).mp (recent out) again
    · have few := sound.nodup.length_le_of_subset recent
      rw [List.length_drop] at few
      omega

theorem Sound.get (sound : Sound state) (runaway : Runaway layout size state)
    (positive : 0 < size.toNat) {slotCount : UInt32}
    (inTime : ReturnedInTime state (.get slotCount) (state.get layout slotCount)) :
    Sound (state.get layout slotCount) := by
  obtain ⟨distinct, apart, _⟩ := (lends_iff runaway sound positive slotCount).mpr inTime
  constructor
  · refine List.nodup_append.mpr ⟨sound.nodup, distinct, ?_⟩
    intro slot out other handed same
    subst same
    exact apart slot handed out
  · exact List.append_subset.mpr ⟨fun _ out => List.mem_append_left _ (sound.lent out),
      List.subset_append_right _ _⟩

theorem Sound.put (sound : Sound state) {iovecs : List Iovec} {buffer : IoBuffer} :
    Sound (state.put iovecs buffer) :=
  ⟨sound.nodup.diff, fun _ out => sound.lent (List.diff_subset _ _ out)⟩

theorem fresh_runaway : Runaway layout size (.fresh layout block size memory) where
  buffer := IoBuffer.new_runaway block size memory
  lent := rfl

/-- In a run whose puts do not write behind the block, all slots are lent as they
should exactly when everything is returned in time. -/
theorem lendsOnce_iff_returnedInTime (layout : IoBufferLayout) (size : UInt32)
    (positive : 0 < size) (start : State) (path : List (Label × State))
    (run : (system layout size).Run start path) (fits : AllSteps (HeadFits layout) start path) :
    AllSteps (LendsOnce layout) start path ↔ AllSteps ReturnedInTime start path := by
  have some : 0 < size.toNat := UInt32.lt_iff_toNat_lt.mp positive
  refine (run.steps.restrict fits).allSteps_iff
    (fun state => Runaway layout size state ∧ Sound state) ?_ ?_ ?_
  · obtain ⟨block, memory, rfl⟩ := run.starts
    exact ⟨fresh_runaway, List.nodup_nil, List.nil_subset _⟩
  · intro state label next valid taken
    obtain ⟨runaway, sound⟩ := valid
    obtain ⟨taken, inside⟩ := taken
    have before := partitioned runaway sound some
    cases taken with
    | @get slotCount =>
        constructor
        · intro lends
          exact (lends_iff runaway sound some slotCount).mp lends.2.2
        · intro inTime
          have after := partitioned (runaway.get some slotCount)
            (sound.get runaway some inTime) some
          exact ⟨before, after, (lends_iff runaway sound some slotCount).mpr inTime⟩
    | put owned done =>
        rw [HeadFits, runaway.size_eq] at inside
        have after := partitioned (runaway.put some inside.1 done) sound.put some
        exact iff_of_true ⟨before, after, trivial⟩ trivial
  · intro state label next valid taken inTime
    obtain ⟨runaway, sound⟩ := valid
    obtain ⟨taken, inside⟩ := taken
    cases taken with
    | @get slotCount =>
        exact ⟨runaway.get some slotCount, sound.get runaway some inTime⟩
    | put owned done =>
        rw [HeadFits, runaway.size_eq] at inside
        exact ⟨runaway.put some inside.1 done, sound.put⟩

theorem drained_buffer_lends_again :
    ¬ ∀ (size : UInt32), 0 < size → ∀ start path,
      (system .lp64 size).Run start path → AllSteps (LendsOnce .lp64) start path := by
  intro always
  let start : State := .fresh .lp64 0 8192 fun _ => 0
  let drained : State := start.get .lp64 8192
  have run : (system .lp64 8192).Run start
      [(.get 8192, drained), (.get 1, drained.get .lp64 1)] :=
    ⟨⟨0, fun _ => 0, rfl⟩, .get, .get, trivial⟩
  have runaway : Runaway .lp64 8192 start := fresh_runaway
  have positive : 0 < (8192 : UInt32).toNat := by decide
  have out : drained.outstanding.length = 8192 := by
    rw [show drained.outstanding = [] ++ start.handed .lp64 8192 from rfl, List.nil_append,
      runaway.length_handed positive]
    decide
  obtain ⟨_, lends, _⟩ := always 8192 (by decide) _ _ run
  have drainedRunaway : Runaway .lp64 8192 drained := runaway.get positive 8192
  have few := lends.2.2.2.2
  rw [drainedRunaway.length_handed positive, out, drainedRunaway.size_eq] at few
  simp at few

/-- Three of four slots are lent, two come back, and two are lent again, of which
one has not been out before. -/
theorem lendsOnce_iff_returnedInTime_around :
    let start : State := .fresh .lp64 0 4 fun _ => 0
    let lent := start.get .lp64 3
    let iovecs := (start.buffer.get .lp64 2).1
    let back := lent.put iovecs ((lent.buffer.put iovecs).getD lent.buffer)
    let path := [(Label.get 3, lent), (.put iovecs, back), (.get 2, back.get .lp64 2)]
    AllSteps (LendsOnce .lp64) start path ↔ AllSteps ReturnedInTime start path := by
  intro start lent iovecs back path
  have owned : (iovecs.map Iovec.iovBase).Subperm lent.outstanding := by decide
  have run : (system .lp64 4).Run start path :=
    ⟨⟨0, fun _ => 0, rfl⟩, .get, .put owned rfl, .get, trivial⟩
  exact lendsOnce_iff_returnedInTime .lp64 4 (by decide) start path run
    ⟨trivial, show IoBufferLayout.lp64.Holds 4 6 by decide, trivial, trivial⟩

end Striga.Greenev.IoBufferLending
