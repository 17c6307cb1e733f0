import Mathlib.Data.List.Basic
import Mathlib.Algebra.Order.Group.Nat

/-! Natural numbers as a fixed number of bytes, the least significant one first. -/

set_option autoImplicit false

namespace Striga.Lib.LittleEndian

def encode : Nat → Nat → List UInt8
  | 0, _ => []
  | width + 1, value => UInt8.ofNat (value % 256) :: encode width (value / 256)

def decode : List UInt8 → Nat
  | [] => 0
  | byte :: bytes => byte.toNat + 256 * decode bytes

@[simp] theorem length_encode (width value : Nat) : (encode width value).length = width := by
  induction width generalizing value with
  | zero => rfl
  | succ width ih => rw [encode, List.length_cons, ih]

/-- What does not fit is cut off. -/
theorem decode_encode (width value : Nat) :
    decode (encode width value) = value % 256 ^ width := by
  induction width generalizing value with
  | zero => rw [Nat.pow_zero, Nat.mod_one]; rfl
  | succ width ih =>
      have low : (UInt8.ofNat (value % 256)).toNat = value % 256 :=
        UInt8.toNat_ofNat_of_lt (Nat.mod_lt value (by decide))
      rw [encode, decode, ih, low, Nat.pow_succ, Nat.mul_comm (256 ^ width), Nat.mod_mul]

end Striga.Lib.LittleEndian
