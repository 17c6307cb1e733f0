import Striga.AstChange.CodeLocationTransformer
import Striga.Lib.Lines

/-! The first half of `main` of `ast_change/main.py`: the text without its blank
lines, and the map from the lines of that text to those of the file. -/

set_option autoImplicit false

namespace Striga.AstChange

open Lib

abbrev Line := List UInt8

def newline : UInt8 := Char.toUInt8 '\n'

/-- `readlines` of a binary file. -/
def readlines (text : List UInt8) : List Line := Lines.split newline text

structure TransCompile where
  data : List UInt8
  transformer : CodeLocationTransformer
  outlineno : Nat

namespace TransCompile

def start : TransCompile := ⟨[], .new, 1⟩

/-- One round of the loop of `main`. -/
def step (this : TransCompile) (entry : Line × Nat) : TransCompile :=
  let (line, inlineno) := entry
  if line = [newline] then
    this
  else
    { data := this.data ++ line
      transformer := this.transformer.addLineMapping this.outlineno inlineno
      outlineno := this.outlineno + 1 }

/-- The loop over the lines, which `enumerate` numbers from one. -/
def run (origdata : List Line) : TransCompile := (origdata.zipIdx 1).foldl step start

def keeps (entry : Line × Nat) : Bool := entry.1 ≠ [newline]

section Loop

variable {this : TransCompile} {entry : Line × Nat} {entries : List (Line × Nat)}

private theorem step_kept (kept : keeps entry = true) :
    this.step entry = { data := this.data ++ entry.1
                        transformer := this.transformer.addLineMapping this.outlineno entry.2
                        outlineno := this.outlineno + 1 } :=
  if_neg (of_decide_eq_true kept)

private theorem step_dropped (dropped : keeps entry = false) : this.step entry = this :=
  if_pos (not_not.mp (of_decide_eq_false dropped))

private theorem data_foldl (entries : List (Line × Nat)) (this : TransCompile) :
    (entries.foldl step this).data =
      this.data ++ ((entries.filter keeps).map Prod.fst).flatten := by
  induction entries generalizing this with
  | nil => simp
  | cons entry entries ih =>
    rw [List.foldl_cons, ih]
    cases kept : keeps entry with
    | false => rw [step_dropped kept, List.filter_cons_of_neg (by simp [kept])]
    | true => simp [step_kept kept, kept]

private theorem linemap_foldl_below (entries : List (Line × Nat)) (this : TransCompile)
    {lineno : Nat} (below : lineno < this.outlineno) :
    (entries.foldl step this).transformer.linemap lineno = this.transformer.linemap lineno := by
  induction entries generalizing this with
  | nil => rfl
  | cons entry entries ih =>
    rw [List.foldl_cons]
    cases kept : keeps entry with
    | false => rw [step_dropped kept, ih this below]
    | true =>
      rw [step_kept kept, ih _ (Nat.lt_succ_of_lt below)]
      exact Function.update_of_ne (Nat.ne_of_lt below) _ _

/-- The kept lines have the next numbers, in order; all other numbers are mapped
as before. -/
private theorem linemap_foldl (entries : List (Line × Nat)) (this : TransCompile) (offset : Nat) :
    (entries.foldl step this).transformer.linemap (this.outlineno + offset) =
      (((entries.filter keeps)[offset]?).map Prod.snd).or
        (this.transformer.linemap (this.outlineno + offset)) := by
  induction entries generalizing this offset with
  | nil => rfl
  | cons entry entries ih =>
    rw [List.foldl_cons]
    cases kept : keeps entry with
    | false => rw [step_dropped kept, ih, List.filter_cons_of_neg (by simp [kept])]
    | true =>
      have next : (this.step entry).outlineno = this.outlineno + 1 := by rw [step_kept kept]
      rw [List.filter_cons_of_pos kept]
      cases offset with
      | zero =>
        rw [Nat.add_zero, linemap_foldl_below entries _ (by omega), step_kept kept]
        exact Function.update_self _ _ _
      | succ offset =>
        have further := ih (this.step entry) offset
        have other : (this.step entry).transformer.linemap (this.outlineno + 1 + offset) =
            this.transformer.linemap (this.outlineno + 1 + offset) := by
          rw [step_kept kept]
          exact Function.update_of_ne (by omega) _ _
        rw [next, other, Nat.add_assoc, Nat.add_comm 1 offset] at further
        rw [further, List.getElem?_cons_succ]

end Loop

/-- The lines that are kept, with their numbers in the file. -/
def kept (origdata : List Line) : List (Line × Nat) := (origdata.zipIdx 1).filter keeps

variable {origdata : List Line}

theorem data_run (origdata : List Line) :
    (run origdata).data = ((kept origdata).map Prod.fst).flatten := by
  rw [run, data_foldl]
  rfl

theorem linemap_run (origdata : List Line) (offset : Nat) :
    (run origdata).transformer.linemap (1 + offset) = ((kept origdata)[offset]?).map Prod.snd := by
  have mapped := linemap_foldl (origdata.zipIdx 1) start offset
  exact mapped.trans (Option.or_none)

theorem linemap_run_zero (origdata : List Line) :
    (run origdata).transformer.linemap 0 = none :=
  linemap_foldl_below (origdata.zipIdx 1) start Nat.one_pos

private theorem map_fst_kept (origdata : List Line) :
    (kept origdata).map Prod.fst = origdata.filter (· ≠ [newline]) := by
  have lines := congrArg (List.filter (· ≠ [newline])) (List.zipIdx_map_fst 1 origdata)
  rw [List.filter_map] at lines
  exact lines

theorem readlines_run (lines : Lines.Valid newline origdata) :
    readlines (run origdata).data = (kept origdata).map Prod.fst := by
  rw [readlines, data_run, map_fst_kept, (lines.filter _).split_flatten]

theorem mem_kept {line : Line} {inlineno : Nat} :
    (line, inlineno) ∈ kept origdata ↔
      1 ≤ inlineno ∧ origdata[inlineno - 1]? = some line ∧ line ≠ [newline] := by
  rw [kept, List.mem_filter, List.mk_mem_zipIdx_iff_le_and_getElem?_sub, keeps,
    decide_eq_true_iff, and_assoc]

private theorem pairwise_kept (origdata : List Line) :
    (kept origdata).Pairwise fun left right => left.2 < right.2 := by
  have numbers : ((origdata.zipIdx 1).map Prod.snd).Pairwise (· < ·) := by
    rw [List.zipIdx_map_snd]
    exact List.pairwise_lt_range'
  exact (List.pairwise_map.mp numbers).filter keeps

/-- The map takes the lines of the new text, in order, to the lines of the file
that they are, and leaves out those that are bare newlines. -/
structure Index (origdata : List Line) (after : TransCompile) : Prop where
  keys : ∀ lineno, (after.transformer.linemap lineno).isSome ↔
    1 ≤ lineno ∧ lineno ≤ (readlines after.data).length
  increasing : ∀ {lineno later inlineno inlater : Nat},
    after.transformer.linemap lineno = some inlineno →
      after.transformer.linemap later = some inlater → lineno < later → inlineno < inlater
  same : ∀ {lineno inlineno : Nat}, after.transformer.linemap lineno = some inlineno →
    1 ≤ inlineno ∧ ∃ line, (readlines after.data)[lineno - 1]? = some line ∧
      origdata[inlineno - 1]? = some line
  dropped : ∀ {inlineno : Nat}, 1 ≤ inlineno → inlineno ≤ origdata.length →
    ((∀ lineno, after.transformer.linemap lineno ≠ some inlineno) ↔
      origdata[inlineno - 1]? = some [newline])
  found : ∀ {lineno : Nat}, 1 ≤ lineno → lineno ≤ (readlines after.data).length →
    ∃ inlineno, after.transformer.lookup lineno = .ok inlineno

theorem linemap_run_eq_some_iff {lineno inlineno : Nat} :
    (run origdata).transformer.linemap lineno = some inlineno ↔
      1 ≤ lineno ∧ ∃ line, (kept origdata)[lineno - 1]? = some (line, inlineno) := by
  cases lineno with
  | zero => simp [linemap_run_zero]
  | succ offset =>
    rw [Nat.add_comm, linemap_run, Option.map_eq_some_iff, Nat.add_sub_cancel_left]
    constructor
    · intro mapped
      obtain ⟨⟨line, number⟩, placed, rfl⟩ := mapped
      exact ⟨Nat.le_add_right 1 offset, line, placed⟩
    · intro both
      obtain ⟨-, line, placed⟩ := both
      exact ⟨(line, inlineno), placed, rfl⟩

theorem isSome_linemap_run (lines : Lines.Valid newline origdata) (lineno : Nat) :
    ((run origdata).transformer.linemap lineno).isSome ↔
      1 ≤ lineno ∧ lineno ≤ (readlines (run origdata).data).length := by
  rw [readlines_run lines, List.length_map]
  cases lineno with
  | zero => simp [linemap_run_zero]
  | succ offset =>
    rw [Nat.add_comm, linemap_run, Option.isSome_map, Option.isSome_iff_ne_none, Ne,
      List.getElem?_eq_none_iff]
    omega

theorem linemap_run_increasing {lineno later inlineno inlater : Nat}
    (mapped : (run origdata).transformer.linemap lineno = some inlineno)
    (mappedLater : (run origdata).transformer.linemap later = some inlater)
    (order : lineno < later) : inlineno < inlater := by
  obtain ⟨positive, line, placed⟩ := linemap_run_eq_some_iff.mp mapped
  obtain ⟨_, lineLater, placedLater⟩ := linemap_run_eq_some_iff.mp mappedLater
  obtain ⟨inside, here⟩ := List.getElem?_eq_some_iff.mp placed
  obtain ⟨insideLater, there⟩ := List.getElem?_eq_some_iff.mp placedLater
  have ordered := List.pairwise_iff_getElem.mp (pairwise_kept origdata) (lineno - 1) (later - 1)
    inside insideLater (by omega)
  rw [here, there] at ordered
  exact ordered

theorem readlines_run_eq_original (lines : Lines.Valid newline origdata) {lineno inlineno : Nat}
    (mapped : (run origdata).transformer.linemap lineno = some inlineno) :
    1 ≤ inlineno ∧ ∃ line, (readlines (run origdata).data)[lineno - 1]? = some line ∧
      origdata[inlineno - 1]? = some line := by
  obtain ⟨positive, line, placed⟩ := linemap_run_eq_some_iff.mp mapped
  obtain ⟨number, original, _⟩ := mem_kept.mp (List.mem_of_getElem? placed)
  refine ⟨number, line, ?_, original⟩
  rw [readlines_run lines, List.getElem?_map, placed]
  rfl

/-- The kept lines are exactly those in the range of the map. -/
theorem linemap_run_ne_iff {inlineno : Nat} (positive : 1 ≤ inlineno)
    (inside : inlineno ≤ origdata.length) :
    (∀ lineno, (run origdata).transformer.linemap lineno ≠ some inlineno) ↔
      origdata[inlineno - 1]? = some [newline] := by
  obtain ⟨line, original⟩ : ∃ line, origdata[inlineno - 1]? = some line :=
    ⟨_, List.getElem?_eq_getElem (by omega)⟩
  rw [original, Option.some.injEq]
  constructor
  · intro missing
    by_contra differs
    have member := mem_kept.mpr ⟨positive, original, differs⟩
    obtain ⟨offset, placed⟩ := List.getElem?_of_mem member
    apply missing (offset + 1)
    exact linemap_run_eq_some_iff.mpr ⟨Nat.le_add_left 1 offset, line, placed⟩
  · intro bare lineno mapped
    obtain ⟨_, keptLine, placed⟩ := linemap_run_eq_some_iff.mp mapped
    obtain ⟨_, found, differs⟩ := mem_kept.mp (List.mem_of_getElem? placed)
    rw [original, Option.some.injEq] at found
    exact differs (found ▸ bare)

theorem lookup_run (lines : Lines.Valid newline origdata) {lineno : Nat} (positive : 1 ≤ lineno)
    (inside : lineno ≤ (readlines (run origdata).data).length) :
    ∃ inlineno, (run origdata).transformer.lookup lineno = .ok inlineno := by
  have key := (isSome_linemap_run lines lineno).mpr ⟨positive, inside⟩
  obtain ⟨inlineno, mapped⟩ := Option.isSome_iff_exists.mp key
  refine ⟨inlineno, ?_⟩
  rw [CodeLocationTransformer.lookup, mapped]
  rfl

theorem index_run (origdata : List Line) (lines : Lines.Valid newline origdata) :
    Index origdata (run origdata) where
  keys := isSome_linemap_run lines
  increasing := linemap_run_increasing
  same := readlines_run_eq_original lines
  dropped := linemap_run_ne_iff
  found := lookup_run lines

theorem index_run_blank_lines :
    let origdata := readlines (['\n', 'a', '\n', '\n', 'b'].map Char.toUInt8)
    Index origdata (run origdata) :=
  index_run _ (Lines.valid_split _)

/-- The lines of a file that a token occupies, as their numbers. -/
structure Span (origdata : List Line) where
  first : Nat
  last : Nat
  positive : 1 ≤ first
  ordered : first ≤ last
  inside : last ≤ origdata.length

namespace Span

def lines (span : Span origdata) : List Line := (origdata.take span.last).drop (span.first - 1)

/-- What the loop appends to the data from the first line of the span to its last. -/
def keptText (span : Span origdata) : List UInt8 :=
  (run (origdata.take span.last)).data.drop (run (origdata.take (span.first - 1))).data.length

def KeepsText (span : Span origdata) : Prop := span.keptText = span.lines.flatten

end Span

theorem data_run_eq_filter (origdata : List Line) :
    (run origdata).data = (origdata.filter (· ≠ [newline])).flatten := by
  rw [data_run, map_fst_kept]

/-- The rounds of the loop for the lines of a span come after those for the lines
before it. -/
theorem Span.keptText_eq (span : Span origdata) :
    span.keptText = (span.lines.filter (· ≠ [newline])).flatten := by
  have ordered := span.ordered
  have split : origdata.take span.last = origdata.take (span.first - 1) ++ span.lines := by
    have halves := List.take_append_drop (span.first - 1) (origdata.take span.last)
    rw [List.take_take, Nat.min_eq_left (by omega)] at halves
    exact halves.symm
  rw [keptText, data_run_eq_filter, data_run_eq_filter, split, List.filter_append,
    List.flatten_append, List.drop_left]

private theorem length_flatten_filter_le (keep : Line → Bool) (lines : List Line) :
    (lines.filter keep).flatten.length ≤ lines.flatten.length := by
  induction lines with
  | nil => exact Nat.le_refl 0
  | cons line lines ih =>
    rw [List.flatten_cons, List.length_append]
    cases kept : keep line with
    | false =>
      rw [List.filter_cons_of_neg (by simp [kept])]
      omega
    | true =>
      rw [List.filter_cons_of_pos kept, List.flatten_cons, List.length_append]
      omega

/-- Each line that is left out makes the text shorter. -/
private theorem flatten_filter_eq_iff (lines : List Line) :
    (lines.filter (· ≠ [newline])).flatten = lines.flatten ↔ ∀ line ∈ lines, line ≠ [newline] := by
  constructor
  · intro same
    induction lines with
    | nil => exact fun _ member => absurd member List.not_mem_nil
    | cons line lines ih =>
      by_cases bare : line = [newline]
      · have shorter := length_flatten_filter_le (· ≠ [newline]) lines
        rw [List.filter_cons_of_neg (by simpa using bare)] at same
        rw [same, List.flatten_cons, List.length_append, bare, List.length_singleton] at shorter
        omega
      · rw [List.filter_cons_of_pos (by simpa using bare), List.flatten_cons, List.flatten_cons,
          List.append_cancel_left_eq] at same
        exact List.forall_mem_cons.mpr ⟨bare, ih same⟩
  · intro none
    rw [List.filter_eq_self.mpr fun line member => decide_eq_true (none line member)]

/-- A token keeps its text exactly when none of its lines is blank. -/
theorem keepsText_iff (origdata : List Line) (span : Span origdata) :
    span.KeepsText ↔ ∀ line ∈ span.lines, line ≠ [newline] := by
  rw [Span.KeepsText, span.keptText_eq]
  exact flatten_filter_eq_iff span.lines

/-- The literal in the source `s = """a`, a blank line and `b"""`, all of it
three lines long. -/
def literalLines : List Line :=
  [['s', ' ', '=', ' ', '"', '"', '"', 'a', '\n'].map Char.toUInt8, [newline],
    ['b', '"', '"', '"', '\n'].map Char.toUInt8]

theorem not_keepsText_literal : ¬ (Span.mk 1 3 (by decide) (by decide) (by decide) :
    Span literalLines).KeepsText := by
  intro keeps
  exact absurd (congrArg List.length keeps) (by decide)

end TransCompile

end Striga.AstChange
