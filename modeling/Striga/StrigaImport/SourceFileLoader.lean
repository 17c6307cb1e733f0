import Mathlib.Algebra.Ring.Int.Defs
import Striga.Lib.LittleEndian

/-! `get_code` of `_srcfileldr.py` with the two loader classes, for one source
file and the bytecode file that belongs to it. -/

set_option autoImplicit false

namespace Striga.StrigaImport

open Lib

/-- An exception; those of `compile`, `marshal` and `print` are told apart by a text. -/
inductive PyError where
  | osError
  | eofError
  | importError (msg : String)
  | notImplementedError (msg : String)
  | other (text : String)
  deriving DecidableEq, Repr

/-- What `marshal.loads` returns. -/
inductive Marshalled (Code : Type) where
  | code (found : Code)
  | other

/-- What `print` comes to with the objects that it is given: the standard output
may be closed or have another encoding. -/
abbrev Print := List String → Except PyError Unit

/-- The parts of the interpreter that a loader rests on, `cache_from_source` where
it knows a place. Code objects come back from `marshal` as they were, and have the
name of the file they are compiled for. -/
structure Interpreter (Code : Type) where
  magicBytes : List UInt8
  cacheFromSource : String → String
  compile : List UInt8 → String → Except PyError Code
  dumps : Code → List UInt8
  loads : List UInt8 → Except PyError (Marshalled Code)
  fixCoFilename : Code → String → Code
  length_magicBytes : magicBytes.length = 4
  loads_dumps : ∀ code, loads (dumps code) = .ok (.code code)
  fixCoFilename_compile : ∀ data path code, compile data path = .ok code →
    fixCoFilename code path = code

variable {Code : Type}

/-- A class of loaders, by its `source_to_code`. -/
structure Loader (python : Interpreter Code) where
  sourceToCode : Print → List UInt8 → String → Except PyError Code
  compiled : ∀ print data path code, sourceToCode print data path = .ok code →
    python.compile data path = .ok code

def futureSourceFileLoader (python : Interpreter Code) : Loader python where
  sourceToCode _ := python.compile
  compiled _ _ _ _ same := same

def strigaSuffixes : List String := [".stpy"]

/-- `path.lower().endswith(STRIGA_SUFFIXES)`. -/
def isStriga (path : String) : Bool :=
  strigaSuffixes.any fun suffix => suffix.toList.isSuffixOf (path.toList.map Char.toLower)

def strigaFileLoader (python : Interpreter Code) : Loader python where
  sourceToCode print data path :=
    if isStriga path then do
      print ["HEY!", path]
      throw (.notImplementedError "Striga compiler is not implemented yet.")
    else python.compile data path
  compiled print data path code same := by
    split at same
    · cases printed : print ["HEY!", path] with
      | error error => simp [printed, bind, Except.bind] at same
      | ok => simp [printed, bind, Except.bind, throw, throwThe, MonadExceptOf.throw] at same
    · exact same

/-- A source file, with the value of the float that `st_mtime` is of it. -/
structure SourceFile where
  bytes : List UInt8
  mtime : Rat
  deriving DecidableEq, Repr

/-- `int(st['mtime'])`, which cuts off the fraction. -/
def SourceFile.seconds (file : SourceFile) : Int := file.mtime.num.tdiv file.mtime.den

/-- `_w_long`. -/
def wLong (x : Int) : List UInt8 := LittleEndian.encode 4 (x % 2 ^ 32).toNat

/-- `_r_long`. -/
def rLong (bytes : List UInt8) : Int := LittleEndian.decode bytes

theorem rLong_wLong (x : Int) : rLong (wLong x) = x % 2 ^ 32 := by
  have bounded : (x % 2 ^ 32).toNat < 256 ^ 4 := by
    have := Int.emod_nonneg x (show (2 : Int) ^ 32 ≠ 0 by decide)
    have := Int.emod_lt_of_pos x (show (0 : Int) < 2 ^ 32 by decide)
    omega
  rw [rLong, wLong, LittleEndian.decode_encode, Nat.mod_eq_of_lt bounded]
  exact Int.toNat_of_nonneg (Int.emod_nonneg x (by decide))

@[simp] theorem length_wLong (x : Int) : (wLong x).length = 4 := LittleEndian.length_encode ..

namespace Interpreter

variable (python : Interpreter Code)

/-- What `get_code` writes. -/
def bytecode (sourceMtime : Int) (sourceBytes : List UInt8) (code : Code) : List UInt8 :=
  python.magicBytes ++ wLong sourceMtime ++ wLong sourceBytes.length ++ python.dumps code

/-- `_bytes_from_bytecode` of importlib, with the result of `path_stats`. -/
def bytesFromBytecode (data : List UInt8) (st : SourceFile) : Except PyError (List UInt8) :=
  let magic := data.take 4
  let rawTimestamp := (data.drop 4).take 4
  let rawSize := (data.drop 8).take 4
  if magic ≠ python.magicBytes then .error (.importError "bad magic number")
  else if rawTimestamp.length ≠ 4 then .error .eofError
  else if rawSize.length ≠ 4 then .error .eofError
  else if rLong rawTimestamp ≠ st.seconds then .error (.importError "bytecode is stale")
  else if rLong rawSize ≠ st.bytes.length % 2 ^ 32 then .error (.importError "bytecode is stale")
  else .ok (data.drop 12)

theorem bytesFromBytecode_bytecode (sourceMtime : Int) (sourceBytes : List UInt8) (code : Code)
    (st : SourceFile) :
    python.bytesFromBytecode (python.bytecode sourceMtime sourceBytes code) st =
      if sourceMtime % 2 ^ 32 = st.seconds ∧
        sourceBytes.length % 2 ^ 32 = st.bytes.length % 2 ^ 32
      then .ok (python.dumps code) else .error (.importError "bytecode is stale") := by
  have four := python.length_magicBytes
  have magic : (python.bytecode sourceMtime sourceBytes code).take 4 = python.magicBytes := by
    simp [bytecode, four]
  have rawTimestamp : ((python.bytecode sourceMtime sourceBytes code).drop 4).take 4 =
      wLong sourceMtime := by
    simp [bytecode, four]
  have rawSize : ((python.bytecode sourceMtime sourceBytes code).drop 8).take 4 =
      wLong sourceBytes.length := by
    rw [bytecode, List.append_assoc, List.drop_left' (by simp [four]), List.take_left' (by simp)]
  have rest : (python.bytecode sourceMtime sourceBytes code).drop 12 = python.dumps code :=
    List.drop_left' (by simp [four])
  have size : rLong (wLong sourceBytes.length) = (st.bytes.length % 2 ^ 32 : Nat) ↔
      sourceBytes.length % 2 ^ 32 = st.bytes.length % 2 ^ 32 := by
    rw [rLong_wLong]
    exact_mod_cast Iff.rfl
  simp only [bytesFromBytecode, magic, rawTimestamp, rawSize, rest, length_wLong, ne_eq,
    not_true_eq_false, if_false, rLong_wLong sourceMtime]
  by_cases stamped : sourceMtime % 2 ^ 32 = st.seconds
  · by_cases sized : sourceBytes.length % 2 ^ 32 = st.bytes.length % 2 ^ 32
    · rw [if_neg (not_not.mpr stamped), if_neg (not_not.mpr (by exact_mod_cast size.mpr sized)),
        if_pos ⟨stamped, sized⟩]
    · rw [if_neg (not_not.mpr stamped), if_pos (by exact_mod_cast mt size.mp sized),
        if_neg fun both => sized both.2]
  · rw [if_pos stamped, if_neg fun both => stamped both.1]

end Interpreter

namespace Loader

variable {python : Interpreter Code}

/-- Up to the return of `path_stats`; `cached` tells whether `cache_from_source`
knows a place for the bytecode. -/
def stat (cached : Bool) (source : Option SourceFile) : Except PyError (Option SourceFile) :=
  if cached then
    match source with
    | none => .error .osError
    | some st => .ok (some st)
  else .ok none

/-- From `get_data(bytecode_path)` to the return of the code that was found. -/
def lookUp (_ : Loader python) (path : String) (st : SourceFile) (data : Option (List UInt8)) :
    Except PyError (Option Code) :=
  match data with
  | none => .ok none
  | some data =>
      match python.bytesFromBytecode data st with
      | .error _ => .ok none
      | .ok bytesData => do
          match ← python.loads bytesData with
          | .code found => pure (some (python.fixCoFilename found path))
          | .other =>
              throw (.importError ("Non-code object in " ++ python.cacheFromSource path))

/-- `get_data(source_path)`. -/
def getData (source : Option SourceFile) : Except PyError (List UInt8) :=
  match source with
  | none => .error .osError
  | some file => .ok file.bytes

/-- `get_data(source_path)` and `source_to_code`. -/
def build (this : Loader python) (print : Print) (path : String) (source : Option SourceFile) :
    Except PyError (List UInt8 × Code) := do
  let sourceBytes ← getData source
  let codeObject ← this.sourceToCode print sourceBytes path
  pure (sourceBytes, codeObject)

theorem build_error {this : Loader python} {print : Print} {path : String} {file : SourceFile}
    {error : PyError} (raised : this.sourceToCode print file.bytes path = .error error) :
    this.build print path (some file) = .error error := by
  simp only [build, getData, raised, bind, Except.bind]

theorem build_ok {this : Loader python} {print : Print} {path : String} {file : SourceFile}
    {codeObject : Code} (compiled : this.sourceToCode print file.bytes path = .ok codeObject) :
    this.build print path (some file) = .ok (file.bytes, codeObject) := by
  simp only [build, getData, compiled, bind, Except.bind, pure, Except.pure]

/-- What `source_to_code` may make of a file, whatever `print` does. -/
def Makes (this : Loader python) (path : String) (file : SourceFile)
    (result : Except PyError Code) : Prop :=
  ∃ print, result = this.sourceToCode print file.bytes path

/-- What is given to `_cache_bytecode`, if anything is. -/
def dataToCache (_ : Loader python) (dontWriteBytecode : Bool) (sourceMtime : Option Int)
    (sourceBytes : List UInt8) (codeObject : Code) : Option (List UInt8) :=
  match sourceMtime with
  | none => none
  | some sourceMtime =>
      if dontWriteBytecode then none
      else some (python.bytecode sourceMtime sourceBytes codeObject)

end Loader

/-- The two files, and what has been given to `source_to_code` so far. -/
structure Machine where
  source : Option SourceFile
  data : Option (List UInt8)
  converted : List (List UInt8)

/-- Python code that may raise an exception. -/
abbrev Py := ExceptT PyError (StateM Machine)

namespace Py

variable {α β : Type}

def of (result : Except PyError α) : Py α := ExceptT.mk (pure result)

theorem run_of_bind (result : Except PyError α) (next : α → Py β) (machine : Machine) :
    (of result >>= next).run.run machine =
      match result with
      | .error error => (.error error, machine)
      | .ok value => (next value).run.run machine := by
  cases result with
  | error error => rfl
  | ok value => rfl

theorem run_get_bind (next : Machine → Py β) (machine : Machine) :
    (get >>= next).run.run machine = (next machine).run.run machine := rfl

theorem run_modify_bind (change : Machine → Machine) (next : PUnit → Py β) (machine : Machine) :
    (modify change >>= next).run.run machine = (next ⟨⟩).run.run (change machine) := rfl

end Py

namespace Loader

variable {python : Interpreter Code}

/-- A call of `source_to_code`. -/
def convert (this : Loader python) (print : Print) (sourceBytes : List UInt8) (path : String) :
    Py Code := do
  modify fun machine => { machine with converted := machine.converted ++ [sourceBytes] }
  Py.of (this.sourceToCode print sourceBytes path)

/-- `get_code` with the files to itself. -/
def getCode (this : Loader python) (print : Print) (path : String)
    (cached dontWriteBytecode : Bool) : Py Code := do
  let st ← Py.of (stat cached (← get).source)
  let found ← match st with
    | none => pure none
    | some st => Py.of (this.lookUp path st (← get).data)
  match found with
  | some found => pure found
  | none =>
      let sourceBytes ← Py.of (getData (← get).source)
      let codeObject ← this.convert print sourceBytes path
      let written :=
        this.dataToCache dontWriteBytecode (st.map SourceFile.seconds) sourceBytes codeObject
      modify fun machine => { machine with data := written.or machine.data }
      pure codeObject

/-- Bytecode is taken for that of a file exactly if the stamp in it is the file's. -/
theorem lookUp_bytecode (this : Loader python) {path : String} (st : SourceFile)
    {sourceMtime : Int} {file : SourceFile} {code : Code}
    (made : this.Makes path file (.ok code)) :
    this.lookUp path st (some (python.bytecode sourceMtime file.bytes code)) =
      .ok (if sourceMtime % 2 ^ 32 = st.seconds ∧
        file.bytes.length % 2 ^ 32 = st.bytes.length % 2 ^ 32
      then some code else none) := by
  obtain ⟨print, compiled⟩ := made
  have named := python.fixCoFilename_compile _ _ _ (this.compiled _ _ _ _ compiled.symm)
  by_cases same : sourceMtime % 2 ^ 32 = st.seconds ∧
      file.bytes.length % 2 ^ 32 = st.bytes.length % 2 ^ 32
  · simp only [lookUp, python.bytesFromBytecode_bytecode, if_pos same, python.loads_dumps]
    exact congrArg (fun code => Except.ok (some code)) named
  · simp only [lookUp, python.bytesFromBytecode_bytecode, if_neg same]

end Loader

end Striga.StrigaImport
