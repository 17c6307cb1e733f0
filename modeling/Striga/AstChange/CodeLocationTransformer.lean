import Mathlib.Data.List.Basic
import Mathlib.Logic.Function.Basic

/-! `CodeLocationTransformer` of `ast_change/main.py`, on the syntax trees of
Python's `ast`. The line numbers that it leaves as they are belong to nodes that
are neither statements nor expressions. -/

set_option autoImplicit false

namespace Striga.AstChange

/-- What a node is by its class and where it is; for classes besides the three
that have one, a line number is optional. -/
inductive Head where
  | stmt (lineno : Nat)
  | expr (lineno : Nat)
  | excepthandler (lineno : Nat)
  | other (lineno : Option Nat)
  deriving DecidableEq, Repr

mutual

/-- A node with its class name and its fields. -/
inductive Node (Plain : Type) where
  | mk (className : String) (head : Head) (fields : Fields Plain)

/-- The fields of a node in order: each is a node, a list or anything else. -/
inductive Fields (Plain : Type) where
  | nil
  | plain (field : String) (value : Plain) (rest : Fields Plain)
  | node (field : String) (value : Node Plain) (rest : Fields Plain)
  | list (field : String) (values : Items Plain) (rest : Fields Plain)

inductive Items (Plain : Type) where
  | nil
  | plain (value : Plain) (rest : Items Plain)
  | node (value : Node Plain) (rest : Items Plain)

end

inductive PyError where
  | keyError (key : Nat)
  deriving DecidableEq, Repr

structure CodeLocationTransformer where
  linemap : Nat → Option Nat

namespace CodeLocationTransformer

def new : CodeLocationTransformer := ⟨fun _ => none⟩

def addLineMapping (linenofrom linenoto : Nat) (this : CodeLocationTransformer) :
    CodeLocationTransformer :=
  ⟨Function.update this.linemap linenofrom (some linenoto)⟩

def lookup (this : CodeLocationTransformer) (lineno : Nat) : Except PyError Nat :=
  match this.linemap lineno with
  | none => throw (.keyError lineno)
  | some linenoto => pure linenoto

/-- The test of `generic_visit` and the new line number of a node that passes it. -/
def relocate (this : CodeLocationTransformer) : Head → Except PyError Head
  | .stmt lineno => do pure (.stmt (← this.lookup lineno))
  | .expr lineno => do pure (.expr (← this.lookup lineno))
  | .excepthandler lineno => pure (.excepthandler lineno)
  | .other lineno => pure (.other lineno)

variable {Plain : Type} (this : CodeLocationTransformer)

mutual

/-- `generic_visit`, which `visit` calls for every node, as there is no method
for a class of its own. The one that it overrides replaces each child by what
its visit returns, and that is always a node. -/
def genericVisit : Node Plain → Except PyError (Node Plain)
  | .mk className head fields => do
      let head ← this.relocate head
      let fields ← visitFields fields
      pure (.mk className head fields)

def visitFields : Fields Plain → Except PyError (Fields Plain)
  | .nil => pure .nil
  | .plain field value rest => do
      let rest ← visitFields rest
      pure (.plain field value rest)
  | .node field value rest => do
      let value ← genericVisit value
      let rest ← visitFields rest
      pure (.node field value rest)
  | .list field values rest => do
      let values ← visitItems values
      let rest ← visitFields rest
      pure (.list field values rest)

def visitItems : Items Plain → Except PyError (Items Plain)
  | .nil => pure .nil
  | .plain value rest => do
      let rest ← visitItems rest
      pure (.plain value rest)
  | .node value rest => do
      let value ← genericVisit value
      let rest ← visitItems rest
      pure (.node value rest)

end

end CodeLocationTransformer

section Map

variable {Plain : Type} (change : Head → Head)

mutual

def Node.map : Node Plain → Node Plain
  | .mk className head fields => .mk className (change head) (fields.map)

def Fields.map : Fields Plain → Fields Plain
  | .nil => .nil
  | .plain field value rest => .plain field value rest.map
  | .node field value rest => .node field value.map rest.map
  | .list field values rest => .list field values.map rest.map

def Items.map : Items Plain → Items Plain
  | .nil => .nil
  | .plain value rest => .plain value rest.map
  | .node value rest => .node value.map rest.map

end

end Map

section Heads

variable {Plain : Type}

mutual

/-- The heads of all nodes of a tree. -/
def Node.heads : Node Plain → List Head
  | .mk _ head fields => head :: fields.heads

def Fields.heads : Fields Plain → List Head
  | .nil => []
  | .plain _ _ rest => rest.heads
  | .node _ value rest => value.heads ++ rest.heads
  | .list _ values rest => values.heads ++ rest.heads

def Items.heads : Items Plain → List Head
  | .nil => []
  | .plain _ rest => rest.heads
  | .node value rest => value.heads ++ rest.heads

end

end Heads

section Trees

variable {Plain : Type} {f g : Head → Head} {this : CodeLocationTransformer}

mutual

theorem Node.map_eq_map_iff (node : Node Plain) :
    node.map f = node.map g ↔ ∀ head ∈ node.heads, f head = g head := by
  cases node with
  | mk className head fields =>
    simp only [Node.map, Node.heads, Node.mk.injEq, true_and, List.forall_mem_cons,
      Fields.map_eq_map_iff fields]

theorem Fields.map_eq_map_iff (fields : Fields Plain) :
    fields.map f = fields.map g ↔ ∀ head ∈ fields.heads, f head = g head := by
  cases fields with
  | nil => simp [Fields.map, Fields.heads]
  | plain field value rest => simp [Fields.map, Fields.heads, Fields.map_eq_map_iff rest]
  | node field value rest =>
    simp only [Fields.map, Fields.heads, Fields.node.injEq, true_and, List.forall_mem_append,
      Node.map_eq_map_iff value, Fields.map_eq_map_iff rest]
  | list field values rest =>
    simp only [Fields.map, Fields.heads, Fields.list.injEq, true_and, List.forall_mem_append,
      Items.map_eq_map_iff values, Fields.map_eq_map_iff rest]

theorem Items.map_eq_map_iff (items : Items Plain) :
    items.map f = items.map g ↔ ∀ head ∈ items.heads, f head = g head := by
  cases items with
  | nil => simp [Items.map, Items.heads]
  | plain value rest => simp [Items.map, Items.heads, Items.map_eq_map_iff rest]
  | node value rest =>
    simp only [Items.map, Items.heads, Items.node.injEq, List.forall_mem_append,
      Node.map_eq_map_iff value, Items.map_eq_map_iff rest]

end

namespace CodeLocationTransformer

mutual

theorem genericVisit_eq (node : Node Plain)
    (relocates : ∀ head ∈ node.heads, this.relocate head = .ok (f head)) :
    this.genericVisit node = .ok (node.map f) := by
  cases node with
  | mk className head fields =>
    obtain ⟨here, below⟩ := List.forall_mem_cons.mp relocates
    rw [genericVisit, here, visitFields_eq fields below]
    rfl

theorem visitFields_eq (fields : Fields Plain)
    (relocates : ∀ head ∈ fields.heads, this.relocate head = .ok (f head)) :
    this.visitFields fields = .ok (fields.map f) := by
  cases fields with
  | nil => rfl
  | plain field value rest =>
    rw [visitFields, visitFields_eq rest relocates]
    rfl
  | node field value rest =>
    obtain ⟨inside, behind⟩ := List.forall_mem_append.mp relocates
    rw [visitFields, genericVisit_eq value inside, visitFields_eq rest behind]
    rfl
  | list field values rest =>
    obtain ⟨inside, behind⟩ := List.forall_mem_append.mp relocates
    rw [visitFields, visitItems_eq values inside, visitFields_eq rest behind]
    rfl

theorem visitItems_eq (items : Items Plain)
    (relocates : ∀ head ∈ items.heads, this.relocate head = .ok (f head)) :
    this.visitItems items = .ok (items.map f) := by
  cases items with
  | nil => rfl
  | plain value rest =>
    rw [visitItems, visitItems_eq rest relocates]
    rfl
  | node value rest =>
    obtain ⟨inside, behind⟩ := List.forall_mem_append.mp relocates
    rw [visitItems, genericVisit_eq value inside, visitItems_eq rest behind]
    rfl

end

end CodeLocationTransformer

end Trees

namespace Head

def lineno : Head → Option Nat
  | .stmt lineno | .expr lineno | .excepthandler lineno => some lineno
  | .other lineno => lineno

/-- A head with another line number, if it has one. -/
def mapLineno (image : Nat → Nat) : Head → Head
  | .stmt lineno => .stmt (image lineno)
  | .expr lineno => .expr (image lineno)
  | .excepthandler lineno => .excepthandler (image lineno)
  | .other lineno => .other (lineno.map image)

/-- The line number of a node that is neither a statement nor an expression. -/
def otherLineno : Head → Option Nat
  | .stmt _ | .expr _ => none
  | .excepthandler lineno => some lineno
  | .other lineno => lineno

def relocated (image : Nat → Nat) : Head → Head
  | .stmt lineno => .stmt (image lineno)
  | .expr lineno => .expr (image lineno)
  | .excepthandler lineno => .excepthandler lineno
  | .other lineno => .other lineno

private theorem lineno_of_otherLineno {head : Head} {lineno : Nat}
    (other : head.otherLineno = some lineno) : head.lineno = some lineno := by
  cases head with
  | stmt _ | expr _ => cases other
  | excepthandler _ | other _ => exact other

private theorem relocated_eq_mapLineno_iff {image : Nat → Nat} (head : Head) :
    head.relocated image = head.mapLineno image ↔
      ∀ lineno ∈ head.otherLineno, image lineno = lineno := by
  cases head with
  | stmt lineno => simp [relocated, mapLineno, otherLineno]
  | expr lineno => simp [relocated, mapLineno, otherLineno]
  | excepthandler lineno => simp [relocated, mapLineno, otherLineno, eq_comm]
  | other lineno => cases lineno <;> simp [relocated, mapLineno, otherLineno, eq_comm]

end Head

section Reaches

variable {Plain : Type}

/-- The line numbers of all nodes that have one. -/
def Node.linenos (node : Node Plain) : List Nat := node.heads.filterMap Head.lineno

def Node.otherLinenos (node : Node Plain) : List Nat := node.heads.filterMap Head.otherLineno

namespace CodeLocationTransformer

def image (this : CodeLocationTransformer) (lineno : Nat) : Nat :=
  (this.linemap lineno).getD lineno

/-- The visit returns the tree with every line number replaced by its image, and
otherwise as it was. -/
def ReachesLocated (this : CodeLocationTransformer) (node : Node Plain) : Prop :=
  this.genericVisit node = .ok (node.map (Head.mapLineno this.image))

private theorem image_eq_self_iff {this : CodeLocationTransformer} {lineno : Nat}
    (key : (this.linemap lineno).isSome = true) :
    this.image lineno = lineno ↔ this.linemap lineno = some lineno := by
  obtain ⟨linenoto, mapped⟩ := Option.isSome_iff_exists.mp key
  rw [image, mapped, Option.getD_some, Option.some.injEq]

private theorem relocate_eq {this : CodeLocationTransformer} {head : Head}
    (key : ∀ lineno ∈ head.lineno, (this.linemap lineno).isSome = true) :
    this.relocate head = .ok (head.relocated this.image) := by
  cases head with
  | stmt lineno | expr lineno =>
    obtain ⟨linenoto, mapped⟩ := Option.isSome_iff_exists.mp (key lineno rfl)
    simp only [relocate, lookup, mapped, Head.relocated, image, Option.getD_some]
    rfl
  | excepthandler lineno | other lineno => rfl

private theorem genericVisit_of_keys {this : CodeLocationTransformer} {node : Node Plain}
    (keys : ∀ lineno ∈ node.linenos, (this.linemap lineno).isSome = true) :
    this.genericVisit node = .ok (node.map (Head.relocated this.image)) := by
  apply genericVisit_eq
  intro head member
  apply relocate_eq
  intro lineno located
  exact keys lineno (List.mem_filterMap.mpr ⟨head, member, located⟩)

/-- The lines of exception handlers and of all nodes that are neither statements
nor expressions stay those of the parsed text. -/
theorem reachesLocated_iff (this : CodeLocationTransformer) (node : Node Plain)
    (keys : ∀ lineno ∈ node.linenos, (this.linemap lineno).isSome = true) :
    this.ReachesLocated node ↔
      ∀ lineno ∈ node.otherLinenos, this.linemap lineno = some lineno := by
  rw [ReachesLocated, genericVisit_of_keys keys, Except.ok.injEq, Node.map_eq_map_iff]
  constructor
  · intro same lineno member
    obtain ⟨head, inside, other⟩ := List.mem_filterMap.mp member
    have located := List.mem_filterMap.mpr ⟨head, inside, Head.lineno_of_otherLineno other⟩
    have fixed := head.relocated_eq_mapLineno_iff.mp (same head inside) lineno other
    exact (image_eq_self_iff (keys lineno located)).mp fixed
  · intro fixed head inside
    apply head.relocated_eq_mapLineno_iff.mpr
    intro lineno other
    have located := List.mem_filterMap.mpr ⟨head, inside, Head.lineno_of_otherLineno other⟩
    have mapped := fixed lineno (List.mem_filterMap.mpr ⟨head, inside, other⟩)
    exact (image_eq_self_iff (keys lineno located)).mpr mapped

def passIn (lineno : Nat) : Items Unit := .node (.mk "Pass" (.stmt lineno) .nil) .nil

/-- `try: pass` in line 1 of the parsed text and `except: pass` in line 2, both a
line further down in the original. -/
def tryExcept : Node Unit :=
  let handler := .mk "ExceptHandler" (.excepthandler 2)
    (.plain "type" () (.plain "name" () (.list "body" (passIn 2) .nil)))
  let statement := .mk "Try" (.stmt 1) (.list "body" (passIn 1)
    (.list "handlers" (.node handler .nil) (.list "orelse" .nil (.list "finalbody" .nil .nil))))
  .mk "Module" (.other none) (.list "body" (.node statement .nil) .nil)

theorem reachesLocated_iff_tryExcept :
    let transformer := addLineMapping 2 3 (addLineMapping 1 2 new)
    transformer.ReachesLocated tryExcept ↔
      ∀ lineno ∈ tryExcept.otherLinenos, transformer.linemap lineno = some lineno :=
  reachesLocated_iff _ tryExcept (by decide)

theorem not_reachesLocated_handler :
    ¬ (addLineMapping 2 3 (addLineMapping 1 2 new)).ReachesLocated tryExcept := by
  intro reached
  cases reached

end CodeLocationTransformer

end Reaches

end Striga.AstChange
