import Striga.AstChange.LineMap
import Mathlib.Data.List.Forall2

/-! `main` of `ast_change/main.py` from the file to the tree that is compiled:
where in the file the nodes of that tree are. -/

set_option autoImplicit false

namespace Striga.AstChange

open Lib

section Trees

variable {Plain : Type} (f g : Head → Head)

mutual

theorem Node.heads_map (node : Node Plain) : (node.map f).heads = node.heads.map f := by
  cases node with
  | mk className head fields => rw [Node.map, Node.heads, Node.heads, Fields.heads_map fields]; rfl

theorem Fields.heads_map (fields : Fields Plain) : (fields.map f).heads = fields.heads.map f := by
  cases fields with
  | nil => rfl
  | plain field value rest => exact Fields.heads_map rest
  | node field value rest =>
      rw [Fields.map, Fields.heads, Fields.heads, List.map_append, Node.heads_map value,
        Fields.heads_map rest]
  | list field values rest =>
      rw [Fields.map, Fields.heads, Fields.heads, List.map_append, Items.heads_map values,
        Fields.heads_map rest]

theorem Items.heads_map (items : Items Plain) : (items.map f).heads = items.heads.map f := by
  cases items with
  | nil => rfl
  | plain value rest => exact Items.heads_map rest
  | node value rest =>
      rw [Items.map, Items.heads, Items.heads, List.map_append, Node.heads_map value,
        Items.heads_map rest]

end

mutual

theorem Node.map_map (node : Node Plain) : (node.map f).map g = node.map (g ∘ f) := by
  cases node with
  | mk className head fields => rw [Node.map, Node.map, Node.map, Fields.map_map fields]; rfl

theorem Fields.map_map (fields : Fields Plain) : (fields.map f).map g = fields.map (g ∘ f) := by
  cases fields with
  | nil => rfl
  | plain field value rest => rw [Fields.map, Fields.map, Fields.map, Fields.map_map rest]
  | node field value rest =>
      rw [Fields.map, Fields.map, Fields.map, Node.map_map value, Fields.map_map rest]
  | list field values rest =>
      rw [Fields.map, Fields.map, Fields.map, Items.map_map values, Fields.map_map rest]

theorem Items.map_map (items : Items Plain) : (items.map f).map g = items.map (g ∘ f) := by
  cases items with
  | nil => rfl
  | plain value rest => rw [Items.map, Items.map, Items.map, Items.map_map rest]
  | node value rest =>
      rw [Items.map, Items.map, Items.map, Node.map_map value, Items.map_map rest]

end

mutual

theorem Node.map_id (node : Node Plain) : node.map id = node := by
  cases node with
  | mk className head fields => rw [Node.map, Fields.map_id fields]; rfl

theorem Fields.map_id (fields : Fields Plain) : fields.map id = fields := by
  cases fields with
  | nil => rfl
  | plain field value rest => rw [Fields.map, Fields.map_id rest]
  | node field value rest => rw [Fields.map, Node.map_id value, Fields.map_id rest]
  | list field values rest => rw [Fields.map, Items.map_id values, Fields.map_id rest]

theorem Items.map_id (items : Items Plain) : items.map id = items := by
  cases items with
  | nil => rfl
  | plain value rest => rw [Items.map, Items.map_id rest]
  | node value rest => rw [Items.map, Node.map_id value, Items.map_id rest]

end

end Trees

namespace Head

/-- The line number of a statement or an expression. -/
def visitedLineno : Head → Option Nat
  | .stmt lineno | .expr lineno => some lineno
  | .excepthandler _ | .other _ => none

/-- The class of a node without its line. -/
def unplaced (head : Head) : Head := head.mapLineno fun _ => 0

private theorem unplaced_relocated (image : Nat → Nat) (head : Head) :
    (head.relocated image).unplaced = head.unplaced := by
  cases head <;> rfl

private theorem visitedLineno_relocated (image : Nat → Nat) (head : Head) :
    (head.relocated image).visitedLineno = head.visitedLineno.map image := by
  cases head <;> rfl

end Head

section Visits

variable {Plain : Type}

/-- The line numbers of the statements and expressions among some nodes. -/
def visitedLinenos (heads : List Head) : List Nat := heads.filterMap Head.visitedLineno

private theorem mem_visitedLinenos {heads : List Head} {head : Head} {lineno : Nat}
    (member : head ∈ heads) (visited : head.visitedLineno = some lineno) :
    lineno ∈ visitedLinenos heads := List.mem_filterMap.mpr ⟨head, member, visited⟩

namespace CodeLocationTransformer

variable {this : CodeLocationTransformer}

/-- What a visit may come to: all line numbers that it looks up are known and the
result is as it should be, or it ends with the first one that is not. -/
def Visits {Result : Type} (this : CodeLocationTransformer) (heads : List Head)
    (image : Result) (visit : Except PyError Result) : Prop :=
  ((∀ lineno ∈ visitedLinenos heads, (this.linemap lineno).isSome = true) ∧ visit = .ok image) ∨
    ∃ lineno ∈ visitedLinenos heads, this.linemap lineno = none ∧ visit = .error (.keyError lineno)

namespace Visits

variable {First Second Result : Type} {first : First} {second : Second}
  {firstVisit : Except PyError First} {secondVisit : Except PyError Second}
  {heads later : List Head}

/-- One visit after the other. -/
private theorem bind (visits : this.Visits heads first firstVisit)
    (visitsLater : this.Visits later second secondVisit) (make : First → Second → Result) :
    this.Visits (heads ++ later) (make first second)
      (do let first ← firstVisit; let second ← secondVisit; pure (make first second)) := by
  rw [Visits, visitedLinenos, List.filterMap_append]
  rcases visits with ⟨known, rfl⟩ | ⟨lineno, member, missing, rfl⟩
  · rcases visitsLater with ⟨knownLater, rfl⟩ | ⟨lineno, member, missing, rfl⟩
    · exact .inl ⟨List.forall_mem_append.mpr ⟨known, knownLater⟩, rfl⟩
    · exact .inr ⟨lineno, List.mem_append_right _ member, missing, rfl⟩
  · exact .inr ⟨lineno, List.mem_append_left _ member, missing, rfl⟩

private theorem map (visits : this.Visits heads first firstVisit) (make : First → Result) :
    this.Visits heads (make first) (do let first ← firstVisit; pure (make first)) := by
  rcases visits with ⟨known, rfl⟩ | ⟨lineno, member, missing, rfl⟩
  · exact .inl ⟨known, rfl⟩
  · exact .inr ⟨lineno, member, missing, rfl⟩

private theorem relocate (this : CodeLocationTransformer) (head : Head) :
    this.Visits [head] (head.relocated this.image) (this.relocate head) := by
  cases head with
  | stmt lineno | expr lineno =>
      cases mapped : this.linemap lineno with
      | none =>
          refine .inr ⟨lineno, List.mem_singleton_self _, mapped, ?_⟩
          simp only [CodeLocationTransformer.relocate, lookup, mapped]
          rfl
      | some linenoto =>
          refine .inl ⟨?_, ?_⟩
          · intro other member
            obtain rfl := List.mem_singleton.mp member
            rw [mapped]
            rfl
          · simp only [CodeLocationTransformer.relocate, lookup, mapped, Head.relocated, image,
              Option.getD_some]
            rfl
  | excepthandler lineno | other lineno =>
      exact .inl ⟨fun _ none => absurd none List.not_mem_nil, rfl⟩

private theorem nil (this : CodeLocationTransformer) (result : Result) :
    this.Visits [] result (.ok result) :=
  .inl ⟨fun _ none => absurd none List.not_mem_nil, rfl⟩

end Visits

variable (this : CodeLocationTransformer)

mutual

theorem genericVisit_visits (node : Node Plain) :
    this.Visits node.heads (node.map (Head.relocated this.image)) (this.genericVisit node) := by
  cases node with
  | mk className head fields =>
      rw [genericVisit]
      exact (Visits.relocate this head).bind (visitFields_visits fields) (Node.mk className)

theorem visitFields_visits (fields : Fields Plain) :
    this.Visits fields.heads (fields.map (Head.relocated this.image))
      (this.visitFields fields) := by
  cases fields with
  | nil => exact Visits.nil this Fields.nil
  | plain field value rest =>
      rw [visitFields]
      exact (visitFields_visits rest).map (Fields.plain field value)
  | node field value rest =>
      rw [visitFields]
      exact (genericVisit_visits value).bind (visitFields_visits rest) (Fields.node field)
  | list field values rest =>
      rw [visitFields]
      exact (visitItems_visits values).bind (visitFields_visits rest) (Fields.list field)

theorem visitItems_visits (items : Items Plain) :
    this.Visits items.heads (items.map (Head.relocated this.image)) (this.visitItems items) := by
  cases items with
  | nil => exact Visits.nil this Items.nil
  | plain value rest =>
      rw [visitItems]
      exact (visitItems_visits rest).map (Items.plain value)
  | node value rest =>
      rw [visitItems]
      exact (genericVisit_visits value).bind (visitItems_visits rest) Items.node

end

end CodeLocationTransformer

end Visits

/-- `compile` with `PyCF_ONLY_AST`. -/
abbrev Parse (Plain : Type) := List UInt8 → Except String (Node Plain)

variable {Plain : Type}

/-- From the file to the tree that `main` compiles. -/
def modifiedTree (parse : Parse Plain) (text : List UInt8) :
    Except String (Except PyError (Node Plain)) := do
  let after := TransCompile.run (readlines text)
  let astnode ← parse after.data
  pure (after.transformer.genericVisit astnode)

/-- A line of the text that is parsed, and the line of the file that it is: among
the lines that are not blank it has the same place, and it reads the same. -/
def SameLine (data text : List UInt8) (lineno inlineno : Nat) : Prop :=
  1 ≤ lineno ∧ 1 ≤ inlineno ∧
    ((readlines text).take inlineno).countP (· ≠ [newline]) = lineno ∧
    ∃ line, line ≠ [newline] ∧ (readlines data)[lineno - 1]? = some line ∧
      (readlines text)[inlineno - 1]? = some line

/-- The tree has the shape of the one that was parsed. Its statements and
expressions are where they are in the file, in the order in which they were, and
all other nodes where they were in the text without its blank lines. -/
structure Relocates (data text : List UInt8) (astnode node : Node Plain) : Prop where
  shape : node.map Head.unplaced = astnode.map Head.unplaced
  visited : List.Forall₂ (fun before after => ∀ lineno, before.visitedLineno = some lineno →
    ∃ inlineno, after.visitedLineno = some inlineno ∧ SameLine data text lineno inlineno)
    astnode.heads node.heads
  others : List.Forall₂ (fun before after => before.visitedLineno = none → after = before)
    astnode.heads node.heads
  ordered : ∀ pair ∈ astnode.heads.zip node.heads, ∀ other ∈ astnode.heads.zip node.heads,
    ∀ lineno later, pair.1.visitedLineno = some lineno → other.1.visitedLineno = some later →
    lineno < later → ∃ inlineno inlater, pair.2.visitedLineno = some inlineno ∧
      other.2.visitedLineno = some inlater ∧ inlineno < inlater
  unchanged : [newline] ∉ readlines text → data = text ∧ node = astnode

private theorem mem_zip_map {α β : Type} {f : α → β} {list : List α} {pair : α × β}
    (member : pair ∈ list.zip (list.map f)) : pair.1 ∈ list ∧ pair.2 = f pair.1 := by
  induction list with
  | nil => cases member
  | cons head rest ih =>
      rcases List.mem_cons.mp member with here | later
      · exact ⟨here ▸ List.mem_cons_self, by rw [here]⟩
      · obtain ⟨inside, image⟩ := ih later
        exact ⟨List.mem_cons_of_mem _ inside, image⟩

namespace TransCompile

variable {text : List UInt8} {origdata : List Line}

private theorem valid_readlines (text : List UInt8) : Lines.Valid newline (readlines text) :=
  Lines.valid_split text

theorem image_run {lineno inlineno : Nat}
    (mapped : (run origdata).transformer.linemap lineno = some inlineno) :
    (run origdata).transformer.image lineno = inlineno := by
  rw [CodeLocationTransformer.image, mapped, Option.getD_some]

/-- Up to a kept line there are as many kept lines as its place among them says. -/
private theorem countP_kept {offset inlineno start : Nat} {line : Line}
    (placed : ((origdata.zipIdx start).filter keeps)[offset]? = some (line, inlineno)) :
    (origdata.take (inlineno + 1 - start)).countP (· ≠ [newline]) = offset + 1 := by
  induction origdata generalizing offset start with
  | nil => cases placed
  | cons first rest ih =>
      have further {offset : Nat}
          (later : ((rest.zipIdx (start + 1)).filter keeps)[offset]? = some (line, inlineno)) :
          (first :: rest).take (inlineno + 1 - start) =
            first :: rest.take (inlineno + 1 - (start + 1)) := by
        have member := List.mem_of_mem_filter (List.mem_of_getElem? later)
        have below : start + 1 ≤ inlineno := List.le_snd_of_mem_zipIdx member
        rw [Nat.sub_add_eq, ← List.take_succ_cons, Nat.sub_add_cancel (by omega)]
      rw [List.zipIdx_cons, List.filter_cons] at placed
      by_cases bare : first = [newline]
      · rw [if_neg (by simp [keeps, bare])] at placed
        rw [further placed, List.countP_cons, ih placed, if_neg (by simp [bare])]
      · rw [if_pos (by simp [keeps, bare])] at placed
        cases offset with
        | zero =>
            cases Option.some.inj placed
            simp [bare]
        | succ offset =>
            rw [List.getElem?_cons_succ] at placed
            rw [further placed, List.countP_cons, ih placed, if_pos (by simp [bare])]

private theorem sameLine_run {lineno inlineno : Nat}
    (mapped : (run (readlines text)).transformer.linemap lineno = some inlineno) :
    SameLine (run (readlines text)).data text lineno inlineno := by
  obtain ⟨positive, line, placed⟩ := linemap_run_eq_some_iff.mp mapped
  obtain ⟨number, original, full⟩ := mem_kept.mp (List.mem_of_getElem? placed)
  have counted := countP_kept placed
  refine ⟨positive, number, ?_, line, full, ?_, original⟩
  · rwa [Nat.add_sub_cancel, Nat.sub_add_cancel positive] at counted
  · rw [readlines_run (valid_readlines text), List.getElem?_map, placed]
    rfl

private theorem data_run_eq_self (full : [newline] ∉ readlines text) :
    (run (readlines text)).data = text := by
  rw [data_run_eq_filter, List.filter_eq_self.mpr, readlines, Lines.flatten_split]
  intro line member
  simpa using fun bare : line = [newline] => full (bare ▸ member)

private theorem image_run_eq_self (full : [newline] ∉ readlines text) (lineno : Nat) :
    (run (readlines text)).transformer.image lineno = lineno := by
  have all : kept (readlines text) = (readlines text).zipIdx 1 := by
    apply List.filter_eq_self.mpr
    intro entry member
    have inside := List.fst_mem_of_mem_zipIdx member
    simpa [keeps] using fun bare : entry.1 = [newline] => full (bare ▸ inside)
  cases lineno with
  | zero => rw [CodeLocationTransformer.image, linemap_run_zero]; rfl
  | succ offset =>
      rw [CodeLocationTransformer.image, Nat.add_comm offset 1, linemap_run, all,
        List.getElem?_zipIdx]
      cases (readlines text)[offset]? <;> rfl

/-- Where the line map knows the lines of all statements and expressions, it takes
a tree of the text without blank lines to one of the file. -/
theorem relocates_run {astnode : Node Plain}
    (known : ∀ lineno ∈ visitedLinenos astnode.heads,
      ((run (readlines text)).transformer.linemap lineno).isSome = true) :
    Relocates (run (readlines text)).data text astnode
      (astnode.map (Head.relocated (run (readlines text)).transformer.image)) := by
  let image := (run (readlines text)).transformer.image
  have mapped {head : Head} (member : head ∈ astnode.heads) {lineno : Nat}
      (visited : head.visitedLineno = some lineno) :
      ∃ inlineno, (head.relocated image).visitedLineno = some inlineno ∧
        (run (readlines text)).transformer.linemap lineno = some inlineno := by
    have key := known lineno (mem_visitedLinenos member visited)
    obtain ⟨inlineno, known⟩ := Option.isSome_iff_exists.mp key
    refine ⟨inlineno, ?_, known⟩
    rw [Head.visitedLineno_relocated, visited]
    exact congrArg some (image_run known)
  constructor
  · rw [Node.map_map, Node.map_eq_map_iff]
    exact fun head _ => head.unplaced_relocated image
  · rw [Node.heads_map, List.forall₂_map_right_iff, List.forall₂_same]
    intro head member lineno visited
    obtain ⟨inlineno, moved, known⟩ := mapped member visited
    exact ⟨inlineno, moved, sameLine_run known⟩
  · rw [Node.heads_map, List.forall₂_map_right_iff, List.forall₂_same]
    intro head member unvisited
    cases head with
    | stmt lineno | expr lineno => cases unvisited
    | excepthandler lineno | other lineno => rfl
  · rw [Node.heads_map]
    intro pair member other also lineno later visited visitedLater order
    obtain ⟨first, moved⟩ := mem_zip_map member
    obtain ⟨second, movedLater⟩ := mem_zip_map also
    obtain ⟨inlineno, here, known⟩ := mapped first visited
    obtain ⟨inlater, there, knownLater⟩ := mapped second visitedLater
    rw [moved, movedLater]
    exact ⟨inlineno, inlater, here, there, linemap_run_increasing known knownLater order⟩
  · intro full
    refine ⟨data_run_eq_self full, ?_⟩
    have fixed : ∀ head ∈ astnode.heads, head.relocated image = id head := by
      intro head _
      cases head with
      | stmt lineno => exact congrArg Head.stmt (image_run_eq_self full lineno)
      | expr lineno => exact congrArg Head.expr (image_run_eq_self full lineno)
      | excepthandler lineno | other lineno => rfl
    rw [(Node.map_eq_map_iff astnode).mpr fixed, Node.map_id]

end TransCompile

/-- The line numbers that a parser gives to the statements and expressions of a
text are among those of its lines, which end with newlines. A parser that takes a
carriage return for the end of a line may give others. -/
def Numbered (data : List UInt8) (astnode : Node Plain) : Prop :=
  ∀ lineno ∈ visitedLinenos astnode.heads, 1 ≤ lineno ∧ lineno ≤ (readlines data).length

instance (data : List UInt8) (astnode : Node Plain) : Decidable (Numbered data astnode) :=
  inferInstanceAs (Decidable (∀ lineno ∈ visitedLinenos astnode.heads, _))

/-- `main` modifies a tree that it has parsed if its lines are numbered by the
newlines of the text, and all its statements and expressions then refer to the
lines of the file that they are in. Otherwise it ends with a line number that is
not one of the text. -/
theorem modifiedTree_relocates (parse : Parse Plain) (text : List UInt8) (astnode : Node Plain)
    (parsed : parse (TransCompile.run (readlines text)).data = .ok astnode) :
    (Numbered (TransCompile.run (readlines text)).data astnode ∧
      ∃ node, modifiedTree parse text = .ok (.ok node) ∧
        Relocates (TransCompile.run (readlines text)).data text astnode node) ∨
    (¬ Numbered (TransCompile.run (readlines text)).data astnode ∧
      ∃ lineno ∈ visitedLinenos astnode.heads,
        modifiedTree parse text = .ok (.error (.keyError lineno))) := by
  have keys := TransCompile.isSome_linemap_run (TransCompile.valid_readlines text)
  have modified : modifiedTree parse text =
      .ok ((TransCompile.run (readlines text)).transformer.genericVisit astnode) := by
    simp only [modifiedTree, parsed, bind, Except.bind, pure, Except.pure]
  rcases (TransCompile.run (readlines text)).transformer.genericVisit_visits astnode with
    ⟨known, visited⟩ | ⟨lineno, member, missing, raised⟩
  · refine .inl ⟨fun lineno member => (keys lineno).mp (known lineno member), _, ?_,
      TransCompile.relocates_run known⟩
    rw [modified, visited]
  · refine .inr ⟨fun numbered => ?_, lineno, member, ?_⟩
    · have key := (keys lineno).mpr (numbered lineno member)
      rw [missing] at key
      cases key
    · rw [modified, raised]

def bytes (text : String) : List UInt8 := text.toList.map Char.toUInt8

def blankLines : List UInt8 := bytes "\ntry: pass\n\nexcept: pass\n"

def returned : List UInt8 := bytes "pass\rpass\n"

/-- Two statements, which a parser takes for two lines of a text with one newline. -/
def twoLines : Node Unit :=
  .mk "Module" (.other none)
    (.list "body" (.node (.mk "Pass" (.stmt 1) .nil) (CodeLocationTransformer.passIn 2)) .nil)

theorem modifiedTree_relocates_tryExcept :
    (∃ node, modifiedTree (fun _ => .ok CodeLocationTransformer.tryExcept) blankLines =
        .ok (.ok node) ∧
      Relocates (TransCompile.run (readlines blankLines)).data blankLines
        CodeLocationTransformer.tryExcept node) ∧
    ∃ lineno ∈ [1, 2], modifiedTree (fun _ => .ok twoLines) returned =
      .ok (.error (.keyError lineno)) := by
  constructor
  · refine ((modifiedTree_relocates _ blankLines CodeLocationTransformer.tryExcept
      rfl).resolve_right
      fun both => both.1 ?_).2
    decide
  · refine ((modifiedTree_relocates _ returned twoLines rfl).resolve_left
      fun both => absurd both.1 ?_).2
    decide

end Striga.AstChange
