import Mathlib.Algebra.Group.Nat.Defs
import Mathlib.Data.List.Basic
import Mathlib.Data.Nat.Basic

/-!
# Numbers as little endian byte strings

The bytes of a fixed number of base 256 digits, least significant digit first.
-/

namespace EvCollect
namespace Text

/-- The least significant base 256 digits of a number. -/
def encodeLE : Nat → Nat → List UInt8
  | 0, _ => []
  | width + 1, value =>
      UInt8.ofNat value :: encodeLE width (value / 256)

/-- The number with the given base 256 digits. -/
def decodeLE : List UInt8 → Nat
  | [] => 0
  | digit :: digits => digit.toNat + 256 * decodeLE digits

@[simp] theorem length_encodeLE (width value : Nat) :
    (encodeLE width value).length = width := by
  induction width generalizing value with
  | zero => rfl
  | succ width inductionHypothesis =>
      simp [encodeLE, inductionHypothesis]

/-- Decoding gives back the number as far as it fits. -/
theorem decodeLE_encodeLE (width value : Nat) :
    decodeLE (encodeLE width value) = value % 256 ^ width := by
  induction width generalizing value with
  | zero => simp [encodeLE, decodeLE, Nat.mod_one]
  | succ width inductionHypothesis =>
      have digit : (UInt8.ofNat value).toNat = value % 256 := by
        simp [UInt8.toNat_ofNat']
      rw [encodeLE, decodeLE, inductionHypothesis, digit, Nat.pow_succ',
        Nat.mod_mul]

/-- The eight bytes of a 64 bit number determine it. -/
theorem ofNat_decodeLE_encodeLE (value : UInt64) :
    UInt64.ofNat (decodeLE (encodeLE 8 value.toNat)) = value := by
  have fits : value.toNat < 256 ^ 8 := value.toNat_lt
  rw [decodeLE_encodeLE, Nat.mod_eq_of_lt fits]
  exact UInt64.ofNat_toNat

end Text
end EvCollect
