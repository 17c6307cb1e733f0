import Striga.StrigaImport.SourceFileLoader
import Striga.Lib.Versions
import Striga.Lib.Transition

/-! One source file and its bytecode file, with any number of calls of `get_code`
in as many threads and processes, while the source is edited and removed. Each
access of a call to one of the files is a step. -/

set_option autoImplicit false

namespace Striga.StrigaImport.BytecodeCache

open Lib

/-- How far a call of `get_code` has got: in front of its first look at the source
file, at the bytecode file with what `path_stats` has returned, at the source file,
in front of the write of the bytecode, or at its end. -/
inductive Phase (Code : Type) where
  | idle
  | statted (st : SourceFile)
  | missed (sourceMtime : Option Int)
  | compiled (sourceMtime : Option Int) (sourceBytes : List UInt8) (codeObject : Code)
  | finished (result : Except PyError Code)

/-- The two files, the calls, and the versions of the source so far, with the first
one that each call could see and the number of those before its last step. -/
structure State (Call Code : Type) where
  source : Option SourceFile
  data : Option (List UInt8)
  phase : Call → Phase Code
  versions : List SourceFile
  began : Call → Nat
  ended : Call → Nat

inductive Label (Call : Type) where
  | stat (call : Call) (cached : Bool)
  | lookUp (call : Call)
  | build (call : Call) (print : Print)
  | write (call : Call) (dontWriteBytecode stored : Bool)
  | edit (file : SourceFile)
  | remove

variable {Call Code : Type} [DecidableEq Call] {python : Interpreter Code}

namespace State

def fresh (file : SourceFile) : State Call Code where
  source := some file
  data := none
  phase _ := .idle
  versions := [file]
  began _ := 0
  ended _ := 0

def proceed (state : State Call Code) (call : Call) (phase : Phase Code) : State Call Code :=
  { state with
    phase := Function.update state.phase call phase
    ended := Function.update state.ended call state.versions.length }

def stat (state : State Call Code) (call : Call) (cached : Bool) : State Call Code :=
  ({ state with
    began := Function.update state.began call (state.versions.length - 1) }).proceed call
      (match Loader.stat cached state.source with
        | .error error => .finished (.error error)
        | .ok (some st) => .statted st
        | .ok none => .missed none)

def lookUp (state : State Call Code) (this : Loader python) (path : String) (call : Call)
    (st : SourceFile) : State Call Code :=
  state.proceed call
    (match this.lookUp path st state.data with
      | .error error => .finished (.error error)
      | .ok (some found) => .finished (.ok found)
      | .ok none => .missed (some st.seconds))

def build (state : State Call Code) (this : Loader python) (print : Print) (path : String)
    (call : Call) (sourceMtime : Option Int) : State Call Code :=
  state.proceed call
    (match this.build print path state.source with
      | .error error => .finished (.error error)
      | .ok (sourceBytes, codeObject) => .compiled sourceMtime sourceBytes codeObject)

/-- A failure to write, of which `get_code` hears nothing, leaves the file alone. -/
def write (state : State Call Code) (data : Option (List UInt8)) (call : Call) (stored : Bool)
    (codeObject : Code) : State Call Code :=
  { state with data := if stored then data.or state.data else state.data }.proceed call
    (.finished (.ok codeObject))

end State

inductive Step (this : Loader python) (path : String) :
    State Call Code → Label Call → State Call Code → Prop where
  | stat {state call cached} :
      state.phase call = .idle →
      Step this path state (.stat call cached) (state.stat call cached)
  | lookUp {state call st} :
      state.phase call = .statted st →
      Step this path state (.lookUp call) (state.lookUp this path call st)
  | build {state call print sourceMtime} :
      state.phase call = .missed sourceMtime →
      Step this path state (.build call print) (state.build this print path call sourceMtime)
  | write {state call dontWriteBytecode stored sourceMtime sourceBytes codeObject} :
      state.phase call = .compiled sourceMtime sourceBytes codeObject →
      Step this path state (.write call dontWriteBytecode stored)
        (state.write (this.dataToCache dontWriteBytecode sourceMtime sourceBytes codeObject) call
          stored codeObject)
  | edit {state file} :
      Step this path state (.edit file)
        { state with source := some file, versions := state.versions ++ [file] }
  | remove {state} :
      Step this path state .remove { state with source := none }

/-- Nothing has been compiled yet. -/
def system (this : Loader python) (path : String) (Call : Type) [DecidableEq Call] :
    System (State Call Code) (Label Call) where
  initial state := ∃ file, state = .fresh file
  step := Step this path

/-- With the time of one of its versions, in whole seconds and up to what four
bytes hold, an edit gives the file the length of none of them. -/
def Restamps (state : State Call Code) (label : Label Call) (_ : State Call Code) : Prop :=
  ∀ file, label = .edit file → ∀ old ∈ state.versions, ∀ other ∈ state.versions,
    old.seconds % 2 ^ 32 = file.seconds →
    other.bytes.length % 2 ^ 32 ≠ file.bytes.length % 2 ^ 32

/-- What the progress of a call says about the versions of the source. -/
def Told (this : Loader python) (path : String) (versions : List SourceFile)
    (first last : Nat) : Phase Code → Prop
  | .idle => True
  | .statted st => ∃ index : Nat, first ≤ index ∧ versions[index]? = some st
  | .missed sourceMtime => ∀ seconds, sourceMtime = some seconds →
      ∃ (index : Nat) (old : SourceFile), versions[index]? = some old ∧ seconds = old.seconds
  | .compiled sourceMtime sourceBytes codeObject =>
      ∃ (index : Nat) (file : SourceFile), first ≤ index ∧ versions[index]? = some file ∧
        sourceBytes = file.bytes ∧ this.Makes path file (.ok codeObject) ∧
        ∀ seconds, sourceMtime = some seconds →
          ∃ (before : Nat) (old : SourceFile), before ≤ index ∧
            versions[before]? = some old ∧ seconds = old.seconds
  | .finished result => result = .error .osError ∨
      Versions.Seen versions first last fun file : SourceFile => this.Makes path file result

/-- The bytecode of some version, with the time of that or of an earlier one. -/
def Stamped (this : Loader python) (path : String) (versions : List SourceFile)
    (data : List UInt8) : Prop :=
  ∃ (before index : Nat) (old file : SourceFile) (code : Code), before ≤ index ∧
    versions[before]? = some old ∧ versions[index]? = some file ∧
    this.Makes path file (.ok code) ∧ data = python.bytecode old.seconds file.bytes code

structure Valid (this : Loader python) (path : String) (state : State Call Code) : Prop where
  nonempty : 0 < state.versions.length
  current : ∀ file, state.source = some file → state.versions.getLast? = some file
  began : ∀ call, state.began call < state.versions.length
  stamps : ∀ (before index later : Nat) (old other file : SourceFile),
    before ≤ index → index < later →
    state.versions[before]? = some old → state.versions[index]? = some other →
    state.versions[later]? = some file → old.seconds % 2 ^ 32 = file.seconds →
    other.bytes.length % 2 ^ 32 ≠ file.bytes.length % 2 ^ 32
  data : ∀ data, state.data = some data → Stamped this path state.versions data
  told : ∀ call, Told this path state.versions (state.began call) (state.ended call)
    (state.phase call)

variable {this : Loader python} {path : String} {state next : State Call Code}
  {label : Label Call} {versions : List SourceFile}

omit [DecidableEq Call] in
theorem Told.append {first last : Nat} {phase : Phase Code}
    (told : Told this path versions first last phase) (later : List SourceFile) :
    Told this path (versions ++ later) first last phase := by
  cases phase with
  | idle => trivial
  | statted st =>
      obtain ⟨index, above, known⟩ := told
      exact ⟨index, above, Versions.getElem?_append known later⟩
  | missed sourceMtime =>
      intro seconds same
      obtain ⟨index, old, known, stamp⟩ := told seconds same
      exact ⟨index, old, Versions.getElem?_append known later, stamp⟩
  | compiled sourceMtime sourceBytes codeObject =>
      obtain ⟨index, file, above, known, bytes, compiled, stamped⟩ := told
      refine ⟨index, file, above, Versions.getElem?_append known later, bytes, compiled, ?_⟩
      intro seconds same
      obtain ⟨before, old, below, earlier, stamp⟩ := stamped seconds same
      exact ⟨before, old, below, Versions.getElem?_append earlier later, stamp⟩
  | finished result =>
      rcases told with missing | seen
      · exact .inl missing
      · exact .inr (seen.append later)

theorem Stamped.append {data : List UInt8} (stamped : Stamped this path versions data)
    (later : List SourceFile) : Stamped this path (versions ++ later) data := by
  obtain ⟨before, index, old, file, code, below, earlier, known, compiled, shape⟩ := stamped
  exact ⟨before, index, old, file, code, below, Versions.getElem?_append earlier later,
    Versions.getElem?_append known later, compiled, shape⟩

namespace Valid

omit [DecidableEq Call] in
private theorem fresh (file : SourceFile) : Valid this path (.fresh file : State Call Code) where
  nonempty := Nat.one_pos
  current _ same := same
  began _ := Nat.one_pos
  stamps before index later old other new below above earlier known last same := by
    have bound : later < 1 := Versions.lt_length last
    omega
  data _ present := by cases present
  told _ := trivial

private theorem proceed (valid : Valid this path state) {call : Call} {phase : Phase Code}
    (told : Told this path state.versions (state.began call) state.versions.length phase) :
    Valid this path (state.proceed call phase) := by
  refine { valid with told := ?_ }
  intro other
  by_cases same : other = call
  · subst same
    simpa [State.proceed] using told
  · simpa [State.proceed, Function.update_of_ne same] using valid.told other

private theorem stat (valid : Valid this path state) {call : Call} (idle : state.phase call = .idle)
    (cached : Bool) : Valid this path (state.stat call cached) := by
  have started : Valid this path { state with
      began := Function.update state.began call (state.versions.length - 1) } := by
    refine { valid with began := ?_, told := ?_ }
    · exact (Function.forall_update_iff _ fun _ first => first < state.versions.length).mpr
        ⟨Nat.sub_one_lt_of_lt valid.nonempty, fun other _ => valid.began other⟩
    · intro other
      by_cases same : other = call
      · simp only [same, idle, Told]
      · simpa only [Function.update_of_ne same] using valid.told other
  apply started.proceed
  simp only [Function.update_self]
  cases cached with
  | false => exact fun seconds same => by cases same
  | true =>
      cases source : state.source with
      | none => exact .inl rfl
      | some st =>
          exact ⟨state.versions.length - 1, Nat.le_refl _,
            Versions.getElem?_last (valid.current st source)⟩

/-- The bytecode that a call takes is that of a version which the source has had
since the call began: a version before that one has another stamp. -/
private theorem lookUp (valid : Valid this path state) {call : Call} {st : SourceFile}
    (statted : state.phase call = .statted st) :
    Valid this path (state.lookUp this path call st) := by
  have told := valid.told call
  rw [statted] at told
  obtain ⟨current, above, known⟩ := told
  have missed : Told this path state.versions (state.began call) state.versions.length
      (.missed (some st.seconds) : Phase Code) := by
    intro seconds same
    cases same
    exact ⟨current, st, known, rfl⟩
  apply valid.proceed
  cases present : state.data with
  | none => exact missed
  | some data =>
      obtain ⟨before, index, old, file, code, below, earlier, later, compiled, rfl⟩ :=
        valid.data data present
      rw [this.lookUp_bytecode st compiled]
      by_cases stamp : old.seconds % 2 ^ 32 = st.seconds ∧
          file.bytes.length % 2 ^ 32 = st.bytes.length % 2 ^ 32
      · rw [if_pos stamp]
        refine .inr ⟨index, file, ?_, Versions.lt_length later, later, compiled⟩
        refine Nat.le_trans above (Nat.not_lt.mp fun stale => ?_)
        exact valid.stamps before index current old file st below stale earlier later known
          stamp.1 stamp.2
      · rw [if_neg stamp]
        exact missed

private theorem build (valid : Valid this path state) {call : Call} {sourceMtime : Option Int}
    (missed : state.phase call = .missed sourceMtime) (print : Print) :
    Valid this path (state.build this print path call sourceMtime) := by
  have told := valid.told call
  rw [missed] at told
  apply valid.proceed
  cases source : state.source with
  | none => exact .inl rfl
  | some file =>
      have current := valid.current file source
      have made : this.Makes path file (this.sourceToCode print file.bytes path) := ⟨print, rfl⟩
      cases result : this.sourceToCode print file.bytes path with
      | error error =>
          rw [result] at made
          rw [Loader.build_error result]
          exact .inr (Versions.Seen.current current (valid.began call) made)
      | ok codeObject =>
          rw [result] at made
          rw [Loader.build_ok result]
          refine ⟨state.versions.length - 1, file, Nat.le_sub_one_of_lt (valid.began call),
            Versions.getElem?_last current, rfl, made, ?_⟩
          intro seconds same
          obtain ⟨before, old, known, stamp⟩ := told seconds same
          exact ⟨before, old, Nat.le_sub_one_of_lt (Versions.lt_length known), known, stamp⟩

private theorem write (valid : Valid this path state) {call : Call}
    {dontWriteBytecode stored : Bool}
    {sourceMtime : Option Int} {sourceBytes : List UInt8} {codeObject : Code}
    (compiled : state.phase call = .compiled sourceMtime sourceBytes codeObject) :
    Valid this path (state.write
      (this.dataToCache dontWriteBytecode sourceMtime sourceBytes codeObject) call stored
      codeObject) := by
  have told := valid.told call
  rw [compiled] at told
  obtain ⟨index, file, above, known, rfl, result, stamped⟩ := told
  have fresh : ∀ data, this.dataToCache dontWriteBytecode sourceMtime file.bytes codeObject =
      some data → Stamped this path state.versions data := by
    intro data written
    cases sourceMtime with
    | none => cases written
    | some seconds =>
        obtain ⟨before, old, below, earlier, rfl⟩ := stamped seconds rfl
        unfold Loader.dataToCache at written
        split at written
        · cases written
        · rename_i shape
          cases shape
          split at written
          · cases written
          · cases written
            exact ⟨before, index, old, file, codeObject, below, earlier, known, result, rfl⟩
  have replaced : Valid this path { state with
      data :=
        if stored then
          (this.dataToCache dontWriteBytecode sourceMtime file.bytes codeObject).or state.data
        else state.data } := by
    refine { valid with data := ?_ }
    intro data present
    cases stored with
    | false => exact valid.data data present
    | true =>
        simp only [if_true] at present
        rcases Option.or_eq_some_iff.mp present with written | ⟨_, kept⟩
        · exact fresh data written
        · exact valid.data data kept
  exact replaced.proceed (.inr ⟨index, file, above, Versions.lt_length known, known, result⟩)

omit [DecidableEq Call] in
private theorem edit (valid : Valid this path state) {file : SourceFile}
    (restamps : Restamps state (.edit file : Label Call) state) :
    Valid this path
      { state with source := some file, versions := state.versions ++ [file] } where
  nonempty := by simp
  current _ same := by
    cases same
    exact List.getLast?_concat
  began call := by
    have before := valid.began call
    rw [List.length_append]
    exact Nat.lt_add_right _ before
  stamps before index later old other new below above earlier known last same := by
    have inside {position : Nat} {version : SourceFile} (lower : position < later)
        (shape : (state.versions ++ [file])[position]? = some version) :
        state.versions[position]? = some version := by
      rcases Versions.getElem?_append_cases shape with was | ⟨place, _⟩
      · exact was
      · have bound := Versions.lt_length last
        rw [List.length_append, List.length_singleton] at bound
        omega
    have first := inside (Nat.lt_of_le_of_lt below above) earlier
    have second := inside above known
    rcases Versions.getElem?_append_cases last with was | ⟨_, rfl⟩
    · exact valid.stamps before index later old other new below above first second was same
    · exact restamps new rfl old (List.mem_of_getElem? first) other (List.mem_of_getElem? second)
        same
  data data present := (valid.data data present).append [file]
  told call := (valid.told call).append [file]

private theorem step (valid : Valid this path state) (taken : Step this path state label next)
    (restamps : Restamps state label next) : Valid this path next := by
  cases taken with
  | stat idle => exact valid.stat idle _
  | lookUp statted => exact valid.lookUp statted
  | build missed => exact valid.build missed _
  | write compiled => exact valid.write compiled
  | edit => exact valid.edit restamps
  | remove => exact { valid with current := fun _ present => by cases present }

end Valid

/-- An interpreter whose code objects are the sources. -/
def echo : Interpreter (List UInt8) where
  magicBytes := [238, 12, 13, 10]
  cacheFromSource path := path ++ "c"
  compile data _ := .ok data
  dumps code := code
  loads bytes := .ok (.code bytes)
  fixCoFilename code _ := code
  length_magicBytes := rfl
  loads_dumps _ := rfl
  fixCoFilename_compile _ _ _ _ := rfl

def twoBytes : SourceFile := ⟨[1, 2], 5⟩

def edited : SourceFile := ⟨[3, 4], 6⟩

def prints : Print := fun _ => .ok ()

/-- A call has written its bytecode, and the source has been edited. -/
def outdated : State Bool (List UInt8) :=
  let this := futureSourceFileLoader echo
  let written := ((((State.fresh twoBytes).stat false true).lookUp this "a.py" false
    twoBytes).build this prints "a.py" false (some 5)).write
      (some (echo.bytecode 5 [1, 2] [1, 2])) false true [1, 2]
  { written with source := some edited, versions := [twoBytes, edited] }

/-- The next call has found that bytecode to be stale. -/
def updated : State Bool (List UInt8) :=
  let this := futureSourceFileLoader echo
  (((outdated.stat true true).lookUp this "a.py" true edited).build this prints "a.py" true
    (some 6)).write (some (echo.bytecode 6 [3, 4] [3, 4])) true true [3, 4]

end Striga.StrigaImport.BytecodeCache
