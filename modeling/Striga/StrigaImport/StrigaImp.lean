import Striga.StrigaImport.BytecodeCache

/-! What follows from `_srcfileldr.py` for a module that is imported again and
again, and from `striga_imp.py` for one whose name ends in `.stpy`. -/

set_option autoImplicit false

namespace Striga.StrigaImport

open Lib BytecodeCache

variable {Code : Type} {python : Interpreter Code}

/-- What a call of `get_code` comes to, with the bytecode file behind it and what
it has given to `source_to_code`. -/
structure Attempt (Code : Type) where
  result : Except PyError Code
  data : Option (List UInt8)
  converted : List (List UInt8)

namespace Loader

variable (this : Loader python) (print : Print) (path : String) (file : SourceFile)

/-- One call of `get_code` that has the files to itself and may write. -/
def attempt (data : Option (List UInt8)) : Attempt Code :=
  let (result, machine) := (this.getCode print path true false).run.run ⟨some file, data, []⟩
  ⟨result, machine.data, machine.converted⟩

/-- Calls in a row on a source file that does not change. -/
def attempts : Nat → Option (List UInt8) → List (Attempt Code)
  | 0, _ => []
  | count + 1, data =>
      this.attempt print path file data ::
        attempts count (this.attempt print path file data).data

end Loader

variable {this : Loader python} {print : Print} {path : String} {file : SourceFile}
  {data : Option (List UInt8)}

/-- A call that may write, with all that it leaves behind. -/
private theorem run_getCode : (this.getCode print path true false).run.run ⟨some file, data, []⟩ =
    match this.lookUp path file data with
    | .error error => (.error error, ⟨some file, data, []⟩)
    | .ok (some found) => (.ok found, ⟨some file, data, []⟩)
    | .ok none =>
        match this.sourceToCode print file.bytes path with
        | .error error => (.error error, ⟨some file, data, [file.bytes]⟩)
        | .ok codeObject =>
            (.ok codeObject, ⟨some file,
              some (python.bytecode file.seconds file.bytes codeObject), [file.bytes]⟩) := by
  simp only [Loader.getCode, Py.run_get_bind, Py.run_of_bind, Loader.stat, if_true]
  cases this.lookUp path file data with
  | error error => rfl
  | ok found =>
      cases found with
      | some found => rfl
      | none =>
          simp only [Py.run_get_bind, Py.run_of_bind, Loader.getData, Loader.convert, bind_assoc,
            Py.run_modify_bind]
          cases this.sourceToCode print file.bytes path with
          | error error => rfl
          | ok codeObject => rfl

private theorem attempt_missed (print : Print) (missed : this.lookUp path file data = .ok none) :
    this.attempt print path file data = ⟨this.sourceToCode print file.bytes path,
      match this.sourceToCode print file.bytes path with
      | .ok codeObject => some (python.bytecode file.seconds file.bytes codeObject)
      | .error _ => data, [file.bytes]⟩ := by
  rw [Loader.attempt, run_getCode, missed]
  cases this.sourceToCode print file.bytes path with
  | error error => rfl
  | ok codeObject => rfl

private theorem attempt_found (print : Print) {codeObject : Code}
    (found : this.lookUp path file data = .ok (some codeObject)) :
    this.attempt print path file data = ⟨.ok codeObject, data, []⟩ := by
  rw [Loader.attempt, run_getCode, found]

/-- The time of a file fits into the four bytes that there are for it. -/
def SourceFile.Stampable (file : SourceFile) : Prop := 0 ≤ file.seconds ∧ file.seconds < 2 ^ 32

instance (file : SourceFile) : Decidable file.Stampable :=
  inferInstanceAs (Decidable (_ ∧ _))

private theorem stampable_iff (file : SourceFile) :
    file.Stampable ↔ file.seconds % 2 ^ 32 = file.seconds := by
  unfold SourceFile.Stampable
  omega

private theorem lookUp_own {codeObject : Code}
    (compiled : this.sourceToCode print file.bytes path = .ok codeObject) :
    this.lookUp path file (some (python.bytecode file.seconds file.bytes codeObject)) =
      .ok (if file.Stampable then some codeObject else none) := by
  rw [this.lookUp_bytecode file ⟨print, compiled.symm⟩]
  by_cases stampable : file.Stampable
  · rw [if_pos stampable, if_pos ⟨(stampable_iff file).mp stampable, rfl⟩]
  · rw [if_neg stampable, if_neg fun same => stampable ((stampable_iff file).mpr same.1)]

private theorem attempts_fixed {attempt : Attempt Code}
    (fixed : this.attempt print path file data = attempt) (kept : attempt.data = data)
    (count : Nat) : this.attempts print path file count data = List.replicate count attempt := by
  induction count with
  | zero => rfl
  | succ count ih => rw [Loader.attempts, fixed, kept, ih, List.replicate_succ]

private theorem converted_replicate (result : Except PyError Code) (data : Option (List UInt8))
    (bytes : List UInt8) (count : Nat) :
    (List.replicate count (⟨result, data, [bytes]⟩ : Attempt Code)).flatMap Attempt.converted =
      List.replicate count bytes := by
  induction count with
  | zero => rfl
  | succ count ih => rw [List.replicate_succ, List.flatMap_cons, ih, List.replicate_succ]; rfl

def strigaError : PyError := .notImplementedError "Striga compiler is not implemented yet."

/-- What `print` may raise in a run is told beforehand. -/
def Prints {Call : Type} (raises : PyError → Prop) (_ : State Call Code) (label : Label Call)
    (_ : State Call Code) : Prop :=
  ∀ call print, label = .build call print → ∀ objects error,
    print objects = .error error → raises error

/-- A call for a `.stpy` file is on its way to an exception or there. -/
def Refuses (raises : PyError → Prop) : Phase Code → Prop
  | .idle | .statted _ | .missed _ => True
  | .compiled _ _ _ => False
  | .finished result => ∃ error, result = .error error ∧
      (error = .osError ∨ error = strigaError ∨ raises error)

/-- `source_to_code` raises what `print` does, or says that there is no compiler. -/
private theorem sourceToCode_striga (striga : isStriga path = true) (print : Print)
    (sourceBytes : List UInt8) :
    (strigaFileLoader python).sourceToCode print sourceBytes path =
      match print ["HEY!", path] with
      | .error error => .error error
      | .ok () => .error strigaError := by
  have refused : (strigaFileLoader python).sourceToCode print sourceBytes path =
      (do print ["HEY!", path]; throw strigaError) := if_pos striga
  rw [refused]
  cases print ["HEY!", path] with
  | error error => rfl
  | ok => rfl

private theorem build_striga (striga : isStriga path = true) {raises : PyError → Prop}
    {print : Print} (told : ∀ objects error, print objects = .error error → raises error)
    (source : Option SourceFile) : ∃ error,
      (strigaFileLoader python).build print path source = .error error ∧
        (error = .osError ∨ error = strigaError ∨ raises error) := by
  cases source with
  | none => exact ⟨.osError, rfl, .inl rfl⟩
  | some file =>
      have refused := @sourceToCode_striga _ python _ striga print file.bytes
      cases printed : print ["HEY!", path] with
      | error error =>
          rw [printed] at refused
          exact ⟨error, Loader.build_error refused, .inr (.inr (told _ _ printed))⟩
      | ok =>
          rw [printed] at refused
          exact ⟨strigaError, Loader.build_error refused, .inr (.inl rfl)⟩

def closedOutput : PyError := .other "ValueError"

/-- One call has found the standard output closed, and the next one has not. -/
def refused : State Bool (List UInt8) :=
  let this := strigaFileLoader echo
  ((((State.fresh twoBytes).stat false false).build this (fun _ => .error closedOutput) "A.STPY"
    false none).stat true true |>.lookUp this "A.STPY" true twoBytes).build this prints "A.STPY"
      true (some 5)

end Striga.StrigaImport
