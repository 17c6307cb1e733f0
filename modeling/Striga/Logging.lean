import Striga.Lib.Bytes

/-! The log functions of `greenev/logging.c` and `singlev/src/logging.c`, which
put a line together in a buffer on the stack. The two texts are the same but for
the name of `LOG_WARNING`, which is `LOG_WARN` in the second. -/

set_option autoImplicit false

namespace Striga

open Lib

/-- What `strftime` makes of a year of four digits; the zero behind it is not
among the bytes. -/
structure Timestamp where
  bytes : List UInt8
  length_eq : bytes.length = 20
  nonzero : 0 ∉ bytes

/-- The whole formatted message, of a length that fits into the result of
`vsnprintf`. -/
structure Message where
  bytes : List UInt8
  reported : bytes.length < 2147483648

/-- The text for an error number. -/
structure ErrorText where
  bytes : List UInt8
  nonzero : 0 ∉ bytes

/-- A buffer of the given size on the stack and what lies behind it. -/
structure Frame (size : Nat) where
  cells : List UInt8
  covers : size ≤ cells.length

inductive Level where
  | debug
  | warning
  | error
  | info
  deriving DecidableEq, Repr

def Level.text : Level → List UInt8
  | .debug => ['D', 'E', 'B', 'U', 'G', ':', ' '].map Char.toUInt8
  | .warning => [' ', 'W', 'A', 'R', 'N', ':', ' '].map Char.toUInt8
  | .error => ['E', 'R', 'R', 'O', 'R', ':', ' '].map Char.toUInt8
  | .info => [' ', 'I', 'N', 'F', 'O', ':', ' '].map Char.toUInt8

def newline : UInt8 := Char.toUInt8 '\n'

/-- `vsnprintf`; it returns the length of the whole message, also where the room
is too small for it. -/
def vsnprintf (index room : Nat) (message : Message) (buffer : Bytes) : Nat × Bytes :=
  let buffer :=
    if room = 0 then buffer else buffer.copy index (message.bytes.take (room - 1) ++ [0])
  (message.bytes.length, buffer)

/-- `strerror_r`, which cuts off what there is no room for. -/
def strerrorR (index : Nat) (room : UInt64) (errorText : ErrorText) (buffer : Bytes) : Bytes :=
  if room = 0 then buffer
  else buffer.copy index (errorText.bytes.take (room.toNat - 1) ++ [0])

/-- What the log functions have in common, up to their `vsnprintf`. -/
def logMessage (size : Nat) (level : Level) (timestamp : Timestamp) (message : Message)
    (frame : Frame size) : Nat × Bytes :=
  let buffer : Bytes := ⟨frame.cells, []⟩
  let buffer := buffer.copy 0 (timestamp.bytes ++ [0])
  let buffer := buffer.copy 20 (level.text ++ [0])
  vsnprintf 27 (size - (27 + 1)) message buffer

def logLine (level : Level) (timestamp : Timestamp) (message : Message) (frame : Frame 511) :
    Bytes :=
  let (rc, buffer) := logMessage 511 level timestamp message frame
  let buffer := buffer.store (rc + 27) newline
  buffer.store (rc + 27 + 1) 0

def logDebug : Timestamp → Message → Frame 511 → Bytes := logLine .debug

def logWarning : Timestamp → Message → Frame 511 → Bytes := logLine .warning

def logError : Timestamp → Message → Frame 511 → Bytes := logLine .error

def logInfo : Timestamp → Message → Frame 511 → Bytes := logLine .info

/-- The size that `LOG_ERRNO` passes to `strerror_r`, a `size_t`. -/
def strerrorRoom (rc : Nat) : UInt64 := 1023 - UInt64.ofNat (rc + 27 + 3)

def logErrno (errorText : ErrorText) (timestamp : Timestamp) (message : Message)
    (frame : Frame 1023) : Bytes :=
  let (rc, buffer) := logMessage 1023 .error timestamp message frame
  let buffer := buffer.store (rc + 27) (Char.toUInt8 ':')
  let buffer := buffer.store (rc + 27 + 1) (Char.toUInt8 ' ')
  let buffer := strerrorR (rc + 27 + 2) (strerrorRoom rc) errorText buffer
  buffer.append [newline]

def Level.log : Level → Timestamp → Message → Frame 511 → Bytes
  | .debug => logDebug
  | .warning => logWarning
  | .error => logError
  | .info => logInfo

/-- The first 27 bytes of a line. -/
def logPrefix (level : Level) (timestamp : Timestamp) : List UInt8 := timestamp.bytes ++ level.text

/-- What `fputs` writes is the prefix, as much of the message as there is room
for, and a newline, and no byte is stored outside the buffer. -/
structure LogsLine (level : Level) (timestamp : Timestamp) (message : Message)
    (buffer : Bytes) : Prop where
  within : buffer.Within 511
  emitted : buffer.string =
    logPrefix level timestamp ++ message.bytes.take 482 ++ [newline]

structure LogsErrno (errorText : ErrorText) (timestamp : Timestamp) (message : Message)
    (buffer : Bytes) : Prop where
  within : buffer.Within 1023
  room : ((strerrorRoom message.bytes.length).toNat : Int) = 1023 - (message.bytes.length + 30)
  emitted : buffer.string =
    logPrefix .error timestamp ++ message.bytes.take 994 ++ [':', ' '].map Char.toUInt8 ++
      errorText.bytes ++ [newline]

theorem Level.length_text (level : Level) : level.text.length = 7 := by cases level <;> rfl

theorem Level.zero_not_mem_text (level : Level) : 0 ∉ level.text := by cases level <;> decide

theorem Level.log_eq (level : Level) : level.log = logLine level := by cases level <;> rfl

section

variable {size : Nat} {level : Level} {timestamp : Timestamp} {message : Message}
  {errorText : ErrorText}

private theorem length_logPrefix : (logPrefix level timestamp).length = 27 := by
  rw [logPrefix, List.length_append, timestamp.length_eq, level.length_text]

private theorem zero_not_mem_logPrefix : 0 ∉ logPrefix level timestamp := by
  rw [logPrefix, List.mem_append, not_or]
  exact ⟨timestamp.nonzero, level.zero_not_mem_text⟩

private theorem logMessage_snd (enough : 28 < size) (frame : Frame size) :
    (logMessage size level timestamp message frame).2 =
      (((⟨frame.cells, []⟩ : Bytes).copy 0 (timestamp.bytes ++ [0])).copy 20
        (level.text ++ [0])).copy 27 (message.bytes.take (size - 29) ++ [0]) := by
  have room : ¬ size - (27 + 1) = 0 := by omega
  have less : size - (27 + 1) - 1 = size - 29 := by omega
  rw [logMessage, vsnprintf, if_neg room, less]

theorem logMessage_within (enough : 28 < size) (frame : Frame size) :
    (logMessage size level timestamp message frame).2.Within size := by
  rw [logMessage_snd enough]
  refine Bytes.within_copy_of_le (Bytes.within_copy_of_le (Bytes.within_copy_of_le ?_ ?_) ?_) ?_
  · exact fun index member => absurd member List.not_mem_nil
  · rw [List.length_append, List.length_singleton, timestamp.length_eq]
    omega
  · rw [List.length_append, List.length_singleton, level.length_text]
    omega
  · rw [List.length_append, List.length_singleton, List.length_take]
    omega

private theorem logMessage_cells (enough : 28 < size) (frame : Frame size) :
    ∃ after, (logMessage size level timestamp message frame).2.cells =
      logPrefix level timestamp ++ message.bytes.take (size - 29) ++ 0 :: after := by
  have covers := frame.covers
  have stamp := timestamp.length_eq
  have tag := level.length_text
  have start : (⟨frame.cells, []⟩ : Bytes).cells = [] ++ frame.cells := rfl
  have stamped := Bytes.cells_copy_string 0 timestamp.bytes start rfl (by omega)
  have tagged := Bytes.cells_copy_string 20 level.text stamped (by simp [stamp])
    (by simp [stamp, tag]; omega)
  have written := Bytes.cells_copy_string 27 (message.bytes.take (size - 29)) tagged
    (by simp [stamp, tag]) (by simp [stamp, tag]; omega)
  rw [logMessage_snd enough, written]
  exact ⟨_, rfl⟩

theorem length_logMessage (enough : 28 < size) (frame : Frame size) :
    (logMessage size level timestamp message frame).2.cells.length = frame.cells.length := by
  simp only [logMessage_snd enough, Bytes.length_copy]

/-- The message with the two bytes stored behind it, which go to where a message
without bounds would have ended. -/
private theorem logLine_eq (frame : Frame 511) :
    logLine level timestamp message frame =
      (logMessage 511 level timestamp message frame).2.copy (message.bytes.length + 27)
        ([newline] ++ [0]) := rfl

theorem logLine_within_iff (frame : Frame 511) :
    (logLine level timestamp message frame).Within 511 ↔ message.bytes.length ≤ 482 := by
  rw [logLine_eq, Bytes.within_copy]
  constructor
  · intro within
    have last := within.2 1 (by simp)
    omega
  · intro short
    refine ⟨logMessage_within (by decide) frame, fun offset inside => ?_⟩
    simp only [List.length_append, List.length_singleton] at inside
    omega

private theorem logLine_string (short : message.bytes.length ≤ 482) (nonzero : 0 ∉ message.bytes)
    (frame : Frame 511) :
    (logLine level timestamp message frame).string =
      logPrefix level timestamp ++ message.bytes ++ [newline] := by
  obtain ⟨after, cells⟩ :=
    @logMessage_cells 511 level timestamp message (by decide) frame
  have total := @length_logMessage 511 level timestamp message (by decide) frame
  have covers := frame.covers
  rw [List.take_of_length_le short] at cells
  simp only [cells, List.length_append, List.length_cons, length_logPrefix] at total
  have start : (logPrefix level timestamp ++ message.bytes).length = message.bytes.length + 27 := by
    rw [List.length_append, length_logPrefix, Nat.add_comm]
  have written := Bytes.cells_copy_string _ [newline] cells start
    (by simp only [List.length_cons, List.length_nil]; omega)
  rw [logLine_eq]
  refine Bytes.string_eq written ?_
  simp only [List.mem_append, List.mem_singleton, not_or]
  exact ⟨⟨zero_not_mem_logPrefix, nonzero⟩, by decide⟩

private theorem logsLine_iff (frame : Frame 511) :
    LogsLine level timestamp message (level.log timestamp message frame) ↔
      message.bytes.length ≤ 482 ∧ 0 ∉ message.bytes := by
  rw [level.log_eq]
  constructor
  · intro logs
    have short := (logLine_within_iff frame).mp logs.within
    have nonzero := @Bytes.zero_not_mem_string (logLine level timestamp message frame)
    rw [logs.emitted, List.take_of_length_le short] at nonzero
    simp only [List.mem_append, not_or] at nonzero
    exact ⟨short, nonzero.1.2⟩
  · intro both
    obtain ⟨short, nonzero⟩ := both
    constructor
    · exact (logLine_within_iff frame).mpr short
    · rw [List.take_of_length_le short]
      exact logLine_string short nonzero frame

/-- The message with all that is put behind it but the newline. -/
def errnoMessage (errorText : ErrorText) (timestamp : Timestamp) (message : Message)
    (frame : Frame 1023) : Bytes :=
  strerrorR (message.bytes.length + 27 + 2) (strerrorRoom message.bytes.length) errorText
    ((logMessage 1023 .error timestamp message frame).2.copy (message.bytes.length + 27)
      ([':', ' '].map Char.toUInt8))

private theorem logErrno_eq (frame : Frame 1023) :
    logErrno errorText timestamp message frame =
      (errnoMessage errorText timestamp message frame).append [newline] := rfl

private theorem strerrorRoom_toNat {rc : Nat} (short : rc ≤ 993) : (strerrorRoom rc).toNat =
    993 - rc := by
  have small : rc + 27 + 3 < 2 ^ 64 := by omega
  have sum : (UInt64.ofNat (rc + 27 + 3)).toNat = rc + 27 + 3 := UInt64.toNat_ofNat_of_lt small
  have room : UInt64.ofNat (rc + 27 + 3) ≤ 1023 := by
    rw [UInt64.le_iff_toNat_le, sum]
    show rc + 27 + 3 ≤ 1023
    omega
  rw [strerrorRoom, UInt64.toNat_sub_of_le _ _ room, sum]
  show 1023 - (rc + 27 + 3) = 993 - rc
  omega

private theorem strerrorRoom_ne_zero {rc : Nat} (short : rc ≤ 992) : strerrorRoom rc ≠ 0 := by
  intro zero
  have room := @strerrorRoom_toNat rc (by omega)
  rw [zero, UInt64.toNat_zero] at room
  omega

private theorem errnoMessage_eq (short : message.bytes.length ≤ 992) (frame : Frame 1023) :
    errnoMessage errorText timestamp message frame =
      ((logMessage 1023 .error timestamp message frame).2.copy (message.bytes.length + 27)
        ([':', ' '].map Char.toUInt8)).copy (message.bytes.length + 27 + 2)
          (errorText.bytes.take (992 - message.bytes.length) ++ [0]) := by
  have room : (strerrorRoom message.bytes.length).toNat - 1 = 992 - message.bytes.length := by
    rw [strerrorRoom_toNat (by omega)]
    omega
  rw [errnoMessage, strerrorR, if_neg (strerrorRoom_ne_zero short), room]

private theorem errnoMessage_within (short : message.bytes.length ≤ 992) (frame : Frame 1023) :
    (errnoMessage errorText timestamp message frame).Within 1023 := by
  rw [errnoMessage_eq short]
  refine Bytes.within_copy_of_le
    (Bytes.within_copy_of_le (logMessage_within (by decide) frame) ?_) ?_
  · rw [List.length_map, List.length_cons, List.length_singleton]
    omega
  · rw [List.length_append, List.length_take, List.length_singleton]
    omega

/-- The colon, the blank and what is left of the buffer, behind a message that
leaves room for them. -/
private theorem separated_cells (short : message.bytes.length ≤ 993) (frame : Frame 1023) :
    ∃ after, ((logMessage 1023 .error timestamp message frame).2.copy (message.bytes.length + 27)
        ([':', ' '].map Char.toUInt8)).cells =
      logPrefix .error timestamp ++ message.bytes ++ [':', ' '].map Char.toUInt8 ++ after ∧
        994 ≤ message.bytes.length + after.length := by
  obtain ⟨after, cells⟩ := @logMessage_cells 1023 .error timestamp message (by decide) frame
  have total := @length_logMessage 1023 .error timestamp message (by decide) frame
  have covers := frame.covers
  rw [List.take_of_length_le (by omega)] at cells
  simp only [cells, List.length_append, List.length_cons, length_logPrefix] at total
  have start : (logPrefix .error timestamp ++ message.bytes).length =
    message.bytes.length + 27 := by
    rw [List.length_append, length_logPrefix, Nat.add_comm]
  refine ⟨_, Bytes.cells_copy cells start ?_, ?_⟩
  · simp only [List.length_map, List.length_cons, List.length_nil]
    omega
  · simp only [List.length_drop, List.length_map, List.length_cons, List.length_nil]
    omega

private theorem zero_not_mem_separated (nonzero : 0 ∉ message.bytes) :
    0 ∉ logPrefix .error timestamp ++ message.bytes ++ [':', ' '].map Char.toUInt8 := by
  simp only [List.mem_append, not_or]
  exact ⟨⟨zero_not_mem_logPrefix, nonzero⟩, by decide⟩

private theorem errnoMessage_string (short : message.bytes.length ≤ 992)
    (nonzero : 0 ∉ message.bytes) (frame : Frame 1023) :
    (errnoMessage errorText timestamp message frame).string =
      logPrefix .error timestamp ++ message.bytes ++ [':', ' '].map Char.toUInt8 ++
        errorText.bytes.take (992 - message.bytes.length) := by
  obtain ⟨after, cells, rest⟩ := @separated_cells timestamp message (by omega) frame
  have written := Bytes.cells_copy_string (message.bytes.length + 27 + 2)
    (errorText.bytes.take (992 - message.bytes.length)) cells
    (by simp only [List.length_append, length_logPrefix, List.length_map, List.length_cons,
          List.length_nil]; omega)
    (by rw [List.length_take]; omega)
  rw [errnoMessage_eq short]
  refine Bytes.string_eq written ?_
  rw [List.mem_append, not_or]
  exact ⟨zero_not_mem_separated nonzero, fun member => errorText.nonzero
    (List.mem_of_mem_take member)⟩

private theorem length_errnoMessage_string (short : message.bytes.length ≤ 992)
    (nonzero : 0 ∉ message.bytes) (frame : Frame 1023) :
    (errnoMessage errorText timestamp message frame).string.length =
      29 + message.bytes.length + min (992 - message.bytes.length) errorText.bytes.length := by
  rw [errnoMessage_string short nonzero]
  simp only [List.length_append, length_logPrefix, List.length_map, List.length_cons,
    List.length_nil, List.length_take]
  omega

private theorem length_errnoMessage (short : message.bytes.length ≤ 992) (frame : Frame 1023) :
    (errnoMessage errorText timestamp message frame).cells.length = frame.cells.length := by
  rw [errnoMessage_eq short, Bytes.length_copy, Bytes.length_copy,
    length_logMessage (by decide)]

theorem logErrno_within (short : message.bytes.length ≤ 992) (nonzero : 0 ∉ message.bytes)
    (frame : Frame 1023) : (logErrno errorText timestamp message frame).Within 1023 := by
  rw [logErrno_eq, Bytes.within_append, length_errnoMessage_string short nonzero]
  refine ⟨errnoMessage_within short frame, ?_⟩
  rw [List.length_singleton]
  omega

private theorem room_iff {rc : Nat} :
    ((strerrorRoom rc).toNat : Int) = 1023 - (rc + 30) ↔ rc ≤ 993 := by
  constructor
  · intro room
    omega
  · intro short
    rw [strerrorRoom_toNat short]
    omega

/-- Where the buffer is as long as the rest of the line, without a zero in the
message, no byte is left for the one that `strcat` looks for. -/
private theorem logErrno_not_within (full : message.bytes.length = 993)
    (nonzero : 0 ∉ message.bytes)
    (frame : Frame 1023) : ¬ (logErrno errorText timestamp message frame).Within 1023 := by
  intro within
  obtain ⟨after, cells, -⟩ := @separated_cells timestamp message (by omega) frame
  have nothing : strerrorRoom message.bytes.length = 0 := by
    rw [← UInt64.toNat_inj, strerrorRoom_toNat (by omega), full]
    rfl
  rw [logErrno_eq, Bytes.within_append] at within
  have inside := within.2
  rw [errnoMessage, strerrorR, if_pos nothing,
    Bytes.string_of_nonzero cells (zero_not_mem_separated nonzero)] at inside
  simp only [List.length_append, length_logPrefix, List.length_map, List.length_cons,
    List.length_nil] at inside
  omega

/-- The bounds alone, for a message that is a string; the text may be cut off. -/
private theorem logErrno_bounds_iff (nonzero : 0 ∉ message.bytes) (frame : Frame 1023) :
    ((logErrno errorText timestamp message frame).Within 1023 ∧
        ((strerrorRoom message.bytes.length).toNat : Int) = 1023 - (message.bytes.length + 30)) ↔
      message.bytes.length ≤ 992 := by
  rw [room_iff]
  constructor
  · intro bounds
    by_contra long
    exact logErrno_not_within (by omega) nonzero frame bounds.1
  · intro short
    exact ⟨logErrno_within short nonzero frame, by omega⟩

private theorem logErrno_string (short : message.bytes.length ≤ 992) (nonzero : 0 ∉ message.bytes)
    (frame : Frame 1023) :
    (logErrno errorText timestamp message frame).string =
      logPrefix .error timestamp ++ message.bytes ++ [':', ' '].map Char.toUInt8 ++
        errorText.bytes.take (992 - message.bytes.length) ++ [newline] := by
  have covers := frame.covers
  have length := @length_errnoMessage_string timestamp message errorText short nonzero frame
  have room : (errnoMessage errorText timestamp message frame).string.length + [newline].length <
      (errnoMessage errorText timestamp message frame).cells.length := by
    rw [length_errnoMessage short, length, List.length_singleton]
    omega
  rw [logErrno_eq, Bytes.string_append (by decide) room, errnoMessage_string short nonzero]

private theorem logsErrno_iff (frame : Frame 1023) :
    LogsErrno errorText timestamp message (logErrno errorText timestamp message frame) ↔
      message.bytes.length + errorText.bytes.length ≤ 992 ∧ 0 ∉ message.bytes := by
  constructor
  · intro logs
    have whole : message.bytes.take 994 = message.bytes := by
      have short := room_iff.mp logs.room
      exact List.take_of_length_le (by omega)
    have emitted := logs.emitted
    have nonzero : 0 ∉ message.bytes := by
      have noZero := @Bytes.zero_not_mem_string (logErrno errorText timestamp message frame)
      rw [emitted, whole] at noZero
      simp only [List.mem_append, not_or] at noZero
      exact noZero.1.1.1.2
    have short := (logErrno_bounds_iff nonzero frame).mp ⟨logs.within, logs.room⟩
    rw [logErrno_string short nonzero, whole, List.append_cancel_right_eq,
      List.append_cancel_left_eq] at emitted
    have lengths := congrArg List.length emitted
    rw [List.length_take] at lengths
    exact ⟨by omega, nonzero⟩
  · intro both
    obtain ⟨fits, nonzero⟩ := both
    have short : message.bytes.length ≤ 992 := by omega
    exact {
      within := logErrno_within short nonzero frame
      room := room_iff.mpr (by omega)
      emitted := by
        rw [logErrno_string short nonzero, List.take_of_length_le (by omega),
          List.take_of_length_le (by omega)] }

end

/-- A line is right exactly when all of it fits; nothing is ever cut off within
the bounds. -/
theorem logs_iff (level : Level) (timestamp : Timestamp) (message : Message)
    (errorText : ErrorText) (lineFrame : Frame 511) (errnoFrame : Frame 1023) :
    (LogsLine level timestamp message (level.log timestamp message lineFrame) ↔
      message.bytes.length ≤ 482 ∧ 0 ∉ message.bytes) ∧
    (LogsErrno errorText timestamp message
        (logErrno errorText timestamp message errnoFrame) ↔
      message.bytes.length + errorText.bytes.length ≤ 992 ∧ 0 ∉ message.bytes) :=
  ⟨logsLine_iff lineFrame, logsErrno_iff errnoFrame⟩

/-- With 483 bytes, one more than there is room for, the zero behind the newline
is stored behind the buffer. -/
theorem not_logsLine_truncated :
    let timestamp : Timestamp := ⟨List.replicate 20 48, rfl, by decide⟩
    let message : Message :=
      ⟨List.replicate 483 120, lt_of_eq_of_lt List.length_replicate (by decide)⟩
    let frame : Frame 511 := ⟨List.replicate 511 0, ge_of_eq List.length_replicate⟩
    ¬ LogsLine .debug timestamp message (logDebug timestamp message frame) := by
  intro timestamp message frame logs
  have short := (logLine_within_iff frame).mp logs.within
  rw [List.length_replicate] at short
  omega

end Striga
