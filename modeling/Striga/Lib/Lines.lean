import Mathlib.Data.List.Basic

/-! A text as lines, each of which keeps the newline that ends it. -/

set_option autoImplicit false

namespace Striga.Lib.Lines

variable {Byte : Type} [DecidableEq Byte] {newline : Byte}

def split (newline : Byte) : List Byte → List (List Byte)
  | [] => []
  | byte :: bytes =>
      if byte = newline then
        [byte] :: split newline bytes
      else
        match split newline bytes with
        | [] => [[byte]]
        | line :: lines => (byte :: line) :: lines

/-- What the lines of a text are: a newline ends each of them, and only the last
may do without. -/
inductive Valid (newline : Byte) : List (List Byte) → Prop where
  | nil : Valid newline []
  | last {line : List Byte} : line ≠ [] → newline ∉ line → Valid newline [line]
  | cons {body : List Byte} {lines : List (List Byte)} :
      newline ∉ body → Valid newline lines → Valid newline ((body ++ [newline]) :: lines)

theorem split_body {body rest : List Byte} (inside : newline ∉ body) :
    split newline (body ++ newline :: rest) = (body ++ [newline]) :: split newline rest := by
  induction body with
  | nil => simp [split]
  | cons byte body ih =>
    rw [List.mem_cons, not_or] at inside
    rw [List.cons_append, split, if_neg (Ne.symm inside.1), ih inside.2]
    rfl

theorem split_last {line : List Byte} (nonempty : line ≠ []) (inside : newline ∉ line) :
    split newline line = [line] := by
  induction line with
  | nil => exact absurd rfl nonempty
  | cons byte line ih =>
    rw [List.mem_cons, not_or] at inside
    rw [split, if_neg (Ne.symm inside.1)]
    cases line with
    | nil => rfl
    | cons next line => rw [ih (List.cons_ne_nil _ _) inside.2]

/-- The lines come back when their text is split again. -/
theorem Valid.split_flatten {lines : List (List Byte)} (valid : Valid newline lines) :
    split newline lines.flatten = lines := by
  induction valid with
  | nil => rfl
  | last nonempty inside =>
    rw [List.flatten_singleton]
    exact split_last nonempty inside
  | @cons body lines inside valid ih =>
    rw [List.flatten_cons, List.append_assoc, List.singleton_append, split_body inside, ih]

omit [DecidableEq Byte] in
theorem Valid.filter {lines : List (List Byte)} (valid : Valid newline lines)
    (keep : List Byte → Bool) : Valid newline (lines.filter keep) := by
  induction valid with
  | nil => exact .nil
  | @last line nonempty inside =>
    cases kept : keep line with
    | false => simpa [kept] using Valid.nil
    | true => simpa [kept] using Valid.last nonempty inside
  | @cons body lines inside valid ih =>
    cases kept : keep (body ++ [newline]) with
    | false => simpa [kept] using ih
    | true => simpa [kept] using Valid.cons inside ih

theorem valid_split (text : List Byte) : Valid newline (split newline text) := by
  induction text with
  | nil => exact .nil
  | cons byte bytes ih =>
    unfold split
    split
    · rename_i ends
      subst ends
      exact @Valid.cons Byte byte [] _ List.not_mem_nil ih
    · rename_i differs
      generalize split newline bytes = lines at ih
      cases ih with
      | nil => exact .last (List.cons_ne_nil _ _) (by simpa using Ne.symm differs)
      | last nonempty inside =>
        exact .last (List.cons_ne_nil _ _) (by simpa [inside] using Ne.symm differs)
      | @cons body lines inside valid =>
        exact @Valid.cons Byte newline (byte :: body) lines
          (by simpa [inside] using Ne.symm differs) valid

/-- A text is its lines one after the other. -/
theorem flatten_split (text : List Byte) : (split newline text).flatten = text := by
  induction text with
  | nil => rfl
  | cons byte bytes ih =>
    unfold split
    split
    · rw [List.flatten_cons, ih, List.singleton_append]
    · generalize split newline bytes = lines at ih
      cases lines with
      | nil =>
        rw [← ih]
        rfl
      | cons line lines =>
        rw [← ih]
        rfl

end Striga.Lib.Lines
