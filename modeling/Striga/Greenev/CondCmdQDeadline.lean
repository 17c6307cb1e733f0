import Striga.Greenev.CondCmdQCalls

/-! The time that `pthread_cond_timedwait` is given: one for all the waits of a
call. -/

set_option autoImplicit false

namespace Striga.Greenev

/-- A time of day that `gettimeofday` can return, past the first second. -/
structure Timeval.Valid (now : Timeval) : Prop where
  second : 1 ≤ now.tvSec
  nonnegative : 0 ≤ now.tvUsec.toInt
  inSecond : now.tvUsec.toInt < 1000000

/-- What `getabstimeout` computes on the way is what the numbers themselves
give. -/
structure Timespec.NoOverflow (now : Timeval) (timeoutMs : UInt32) : Prop where
  micros : (now.tvUsec * 1000).toInt = now.tvUsec.toInt * 1000
  millis : (timeoutMs % 1000 * 1000000).toNat = timeoutMs.toNat % 1000 * 1000000
  converted : (timeoutMs % 1000 * 1000000).toInt32.toInt =
    (timeoutMs % 1000 * 1000000).toNat
  sum : (now.tvUsec * 1000 + (timeoutMs % 1000 * 1000000).toInt32).toInt =
    (now.tvUsec * 1000).toInt + (timeoutMs % 1000 * 1000000).toInt32.toInt

/-- Normalised, and as far behind the start as the time-out says. -/
structure Timespec.Exact (start : Timeval) (timeoutMs : UInt32) (ts : Timespec) : Prop where
  nonnegative : 0 ≤ ts.tvNsec.toInt
  normalised : ts.tvNsec.toInt < 1000000000
  instant : ts.tvSec * 1000000000 + ts.tvNsec.toInt =
    start.tvSec * 1000000000 + start.tvUsec.toInt * 1000 + timeoutMs.toNat * 1000000

def FixedDeadline (start : Timeval) (timeoutMs : UInt32) (deadlines : List Timespec) : Prop :=
  ∃ deadline, Timespec.Exact start timeoutMs deadline ∧ ∀ ts ∈ deadlines, ts = deadline

private theorem toInt_mul_of_bounds {left right : Int32}
    (lower : -2147483648 ≤ left.toInt * right.toInt)
    (upper : left.toInt * right.toInt < 2147483648) :
    (left * right).toInt = left.toInt * right.toInt := by
  rw [Int32.toInt_mul]
  exact Int.bmod_eq_of_le (by omega) (by omega)

private theorem toInt_add_of_bounds {left right : Int32}
    (lower : -2147483648 ≤ left.toInt + right.toInt)
    (upper : left.toInt + right.toInt < 2147483648) :
    (left + right).toInt = left.toInt + right.toInt := by
  rw [Int32.toInt_add]
  exact Int.bmod_eq_of_le (by omega) (by omega)

private theorem toInt_toInt32_of_lt {value : UInt32} (small : value.toNat < 2147483648) :
    value.toInt32.toInt = value.toNat := by
  rw [← Int32.toInt_toBitVec, UInt32.toBitVec_toInt32, BitVec.toInt_eq_toNat_of_lt]
  · rfl
  · show 2 * value.toNat < 2 ^ 32
    omega

namespace Timespec

theorem noOverflow {now : Timeval} (valid : now.Valid) (timeoutMs : UInt32) :
    NoOverflow now timeoutMs := by
  have early := valid.nonnegative
  have late := valid.inSecond
  have thousand : (1000 : Int32).toInt = 1000 := rfl
  have micros : (now.tvUsec * 1000).toInt = now.tvUsec.toInt * 1000 := by
    rw [toInt_mul_of_bounds, thousand] <;> rw [thousand] <;> omega
  have millis : (timeoutMs % 1000 * 1000000).toNat = timeoutMs.toNat % 1000 * 1000000 := by
    simp
    omega
  have converted := @toInt_toInt32_of_lt (timeoutMs % 1000 * 1000000) (by omega)
  exact {
    micros := micros
    millis := millis
    converted := converted
    sum := toInt_add_of_bounds (by omega) (by omega) }

private theorem toInt_nanoseconds {now : Timeval} (valid : now.Valid) (timeoutMs : UInt32) :
    (now.tvUsec * 1000 + (timeoutMs % 1000 * 1000000).toInt32).toInt =
      now.tvUsec.toInt * 1000 + (timeoutMs.toNat % 1000 * 1000000 : Nat) := by
  obtain ⟨micros, millis, converted, sum⟩ := noOverflow valid timeoutMs
  rw [sum, micros, converted, millis]

private theorem lt_toInt_iff {nsec : Int32} : nsec > 999999999 ↔ 999999999 < nsec.toInt :=
  Int32.lt_iff_toInt_lt

private theorem toInt_mod_second {nsec : Int32} (carry : 999999999 < nsec.toInt)
    (once : nsec.toInt < 2000000000) : (nsec % 1000000000).toInt = nsec.toInt - 1000000000 := by
  have second : (1000000000 : Int32).toInt = 1000000000 := rfl
  rw [Int32.toInt_mod, second, Int.tmod_eq_emod_of_nonneg (by omega)]
  omega

theorem getabstimeout_eq (now : Timeval) (timeoutMs : UInt32) :
    getabstimeout now timeoutMs =
      if now.tvUsec * 1000 + (timeoutMs % 1000 * 1000000).toInt32 > 999999999 then
        ⟨now.tvSec + (timeoutMs / 1000).toNat + 1,
          (now.tvUsec * 1000 + (timeoutMs % 1000 * 1000000).toInt32) % 1000000000⟩
      else
        ⟨now.tvSec + (timeoutMs / 1000).toNat,
          now.tvUsec * 1000 + (timeoutMs % 1000 * 1000000).toInt32⟩ := rfl

theorem exact_getabstimeout {now : Timeval} (valid : now.Valid) (timeoutMs : UInt32) :
    Exact now timeoutMs (getabstimeout now timeoutMs) := by
  have early := valid.nonnegative
  have late := valid.inSecond
  have value := toInt_nanoseconds valid timeoutMs
  have seconds : (timeoutMs / 1000).toNat = timeoutMs.toNat / 1000 := UInt32.toNat_div _ _
  have division := Nat.div_add_mod timeoutMs.toNat 1000
  rw [getabstimeout_eq, seconds]
  generalize now.tvUsec * 1000 + (timeoutMs % 1000 * 1000000).toInt32 = nsec at value ⊢
  split
  · rename_i carry
    rw [lt_toInt_iff] at carry
    have remainder := toInt_mod_second carry (by omega)
    constructor <;> dsimp only <;> omega
  · rename_i normal
    rw [lt_toInt_iff] at normal
    constructor <;> dsimp only <;> omega

private theorem getabstimeout_tvSec_ne_zero {now : Timeval} (valid : now.Valid)
    (timeoutMs : UInt32) :
    (getabstimeout now timeoutMs).tvSec ≠ 0 := by
  have second := valid.second
  rw [getabstimeout_eq]
  split
  · show now.tvSec + (timeoutMs / 1000).toNat + 1 ≠ 0
    omega
  · show now.tvSec + (timeoutMs / 1000).toNat ≠ 0
    omega

end Timespec

namespace CondCmdQ

variable {Arg : Type} {blocks : CondCmdQ Arg → Bool} {timeoutMs : UInt32}

theorem waitWhile_timed (wait : Wait Arg) (waits : List (Wait Arg)) (ts : Timespec)
    (this : CondCmdQ Arg) :
    waitWhile blocks (some timeoutMs) (wait :: waits) ts this =
      if blocks this then
        if wait.err ≠ 0 then
          ⟨[deadline timeoutMs wait.now ts], some wait.err, wait.queue⟩
        else
          let waited :=
            waitWhile blocks (some timeoutMs) waits (deadline timeoutMs wait.now ts) wait.queue
          { waited with deadlines := deadline timeoutMs wait.now ts :: waited.deadlines }
      else
        ⟨[], some 0, this⟩ := rfl

/-- A round waits until the given time, and all rounds behind it do. -/
private theorem deadlines_waitWhile_cons {wait : Wait Arg} {waits : List (Wait Arg)}
    {ts given : Timespec} {this : CondCmdQ Arg} (computed : deadline timeoutMs wait.now ts = given)
    (later : ∀ time ∈ (waitWhile blocks (some timeoutMs) waits given wait.queue).deadlines,
      time = given) :
    ∀ time ∈ (waitWhile blocks (some timeoutMs) (wait :: waits) ts this).deadlines,
      time = given := by
  rw [waitWhile_timed, computed]
  split
  · split
    · exact fun _ member => List.mem_singleton.mp member
    · exact List.forall_mem_cons.mpr ⟨rfl, later⟩
  · exact fun _ member => absurd member List.not_mem_nil

/-- Once the seconds are not zero, the time is not computed again. -/
private theorem deadlines_waitWhile_computed {waits : List (Wait Arg)} {ts : Timespec}
    {this : CondCmdQ Arg} (computed : ts.tvSec ≠ 0) :
    ∀ given ∈ (waitWhile blocks (some timeoutMs) waits ts this).deadlines, given = ts := by
  induction waits generalizing this with
  | nil => exact fun _ member => absurd member List.not_mem_nil
  | cons wait waits ih => exact deadlines_waitWhile_cons (if_neg computed) ih

private theorem deadlines_waitWhile {first : Wait Arg} {waits : List (Wait Arg)}
    {this : CondCmdQ Arg} (valid : first.now.Valid) :
    ∀ given ∈ (waitWhile blocks (some timeoutMs) (first :: waits) ⟨0, 0⟩ this).deadlines,
      given = getabstimeout first.now timeoutMs :=
  deadlines_waitWhile_cons (if_pos rfl)
    (deadlines_waitWhile_computed (Timespec.getabstimeout_tvSec_ne_zero valid timeoutMs))

private theorem deadlines_operate {error : Int} {failed : Int → Int → Int}
    {change : CondCmdQ Arg → Option (Cmd Arg) × CondCmdQ Arg} {this : CondCmdQ Arg}
    {pthread : Pthread Arg} :
    (operate error failed blocks (some timeoutMs) change this pthread).deadlines ⊆
      (waitWhile blocks (some timeoutMs) pthread.waits ⟨0, 0⟩ this).deadlines := by
  unfold operate
  split
  · split
    · exact List.nil_subset _
    · dsimp only
      split
      · exact List.Subset.refl _
      · split <;> exact List.Subset.refl _
  · exact List.nil_subset _

theorem fixedDeadline_operate {error : Int} {failed : Int → Int → Int}
    {change : CondCmdQ Arg → Option (Cmd Arg) × CondCmdQ Arg} {this : CondCmdQ Arg}
    {pthread : Pthread Arg} {first : Wait Arg} {waits : List (Wait Arg)}
    (started : pthread.waits = first :: waits) (valid : first.now.Valid) :
    FixedDeadline first.now timeoutMs
      (operate error failed blocks (some timeoutMs) change this pthread).deadlines := by
  have exact := Timespec.exact_getabstimeout valid timeoutMs
  refine ⟨getabstimeout first.now timeoutMs, exact, ?_⟩
  intro given member
  have waited := deadlines_operate member
  rw [started] at waited
  exact deadlines_waitWhile valid given waited

/-- All timed waits of a call are for the time-out behind the first of them. -/
theorem timed_fixedDeadline (this : CondCmdQ Arg) (pthread : Pthread Arg) (newCmd : Cmd Arg)
    (timeoutMs : UInt32) (first : Wait Arg) (waits : List (Wait Arg))
    (started : pthread.waits = first :: waits) (valid : first.now.Valid) :
    Timespec.NoOverflow first.now timeoutMs ∧
      FixedDeadline first.now timeoutMs (timedPut newCmd timeoutMs this pthread).deadlines ∧
        FixedDeadline first.now timeoutMs (timedGet timeoutMs this pthread).deadlines :=
  ⟨Timespec.noOverflow valid timeoutMs, fixedDeadline_operate started valid,
    fixedDeadline_operate started valid⟩

/-- The clock is at 1.9996 s and then a second back: the time is not computed
again. -/
theorem timed_fixedDeadline_two_waits :
    let queue : CondCmdQ Unit := new 1 fun _ => ⟨0, ()⟩
    let first : Wait Unit := ⟨⟨1, 999600⟩, 0, queue, by decide, by decide⟩
    let second : Wait Unit := ⟨⟨0, 999600⟩, etimedout, queue, by decide, by decide⟩
    let pthread : Pthread Unit := ⟨0, [first, second], 0⟩
    Timespec.NoOverflow first.now 1500 ∧
      FixedDeadline first.now 1500 (timedPut ⟨1, ()⟩ 1500 queue pthread).deadlines ∧
        FixedDeadline first.now 1500 (timedGet 1500 queue pthread).deadlines := by
  intro queue first second pthread
  have valid : first.now.Valid := ⟨by decide, by decide, by decide⟩
  exact timed_fixedDeadline queue pthread ⟨1, ()⟩ 1500 first [second] rfl valid

example :
    let queue : CondCmdQ Unit := new 1 fun _ => ⟨0, ()⟩
    let first : Wait Unit := ⟨⟨1, 999600⟩, 0, queue, by decide, by decide⟩
    let second : Wait Unit := ⟨⟨0, 999600⟩, etimedout, queue, by decide, by decide⟩
    (timedPut ⟨1, ()⟩ 1500 queue ⟨0, [first, second], 0⟩).deadlines =
      [⟨3, 499600000⟩, ⟨3, 499600000⟩] := by decide

end CondCmdQ

end Striga.Greenev
