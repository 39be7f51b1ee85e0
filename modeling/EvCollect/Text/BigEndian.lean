import EvCollect.Text.LittleEndian
import Mathlib.Data.List.Basic
import Mathlib.Tactic.IntervalCases

/-!
# Numbers as big endian byte strings

The bytes of a fixed number of base 256 digits, most significant digit first,
and the 32 bit words that four consecutive bytes of a text stand for.
-/

namespace EvCollect
namespace Text

/-- The least significant base 256 digits of a number, the last one last. -/
def encodeBE (width value : Nat) : List UInt8 :=
  (encodeLE width value).reverse

@[simp] theorem length_encodeBE (width value : Nat) :
    (encodeBE width value).length = width := by
  simp [encodeBE]

theorem encodeBE_four (value : Nat) :
    encodeBE 4 value =
      [UInt8.ofNat (value / 256 / 256 / 256),
        UInt8.ofNat (value / 256 / 256),
        UInt8.ofNat (value / 256),
        UInt8.ofNat value] :=
  rfl

/-- The upper digits come first. -/
theorem encodeBE_add (front back value : Nat) :
    encodeBE (front + back) value =
      encodeBE front (value / 256 ^ back) ++ encodeBE back value := by
  unfold encodeBE
  rw [← List.reverse_append]
  congr 1
  induction back generalizing value with
  | zero => simp [encodeLE]
  | succ back inductionHypothesis =>
      rw [← Nat.add_assoc, encodeLE, inductionHypothesis, encodeLE,
        List.cons_append, Nat.pow_succ', Nat.div_div_eq_div_mul]

/-! ## Words -/

/-- A byte as the lowest one of a word. -/
def widen (byte : UInt8) : BitVec 32 :=
  byte.toBitVec.setWidth 32

/-- The word with the given index in a text. Bytes past its end are zero. -/
def wordAt (text : List UInt8) (index : Nat) : BitVec 32 :=
  widen (text.getD (4 * index) 0) <<< 24 |||
    widen (text.getD (4 * index + 1) 0) <<< 16 |||
    widen (text.getD (4 * index + 2) 0) <<< 8 |||
    widen (text.getD (4 * index + 3) 0)

@[simp] theorem widen_zero : widen 0 = 0#32 :=
  rfl

@[simp] theorem wordAt_nil (index : Nat) : wordAt [] index = 0#32 := by
  simp [wordAt]

theorem getLsbD_widen (byte : UInt8) (position : Nat) :
    (widen byte).getLsbD position = byte.toNat.testBit position := by
  rw [widen, BitVec.getLsbD_setWidth]
  by_cases small : position < 32
  · rw [decide_eq_true small, Bool.true_and]
    rfl
  · have big : byte.toNat < 2 ^ position :=
      Nat.lt_of_lt_of_le byte.toNat_lt
        (Nat.pow_le_pow_right (by decide) (by omega))
    rw [decide_eq_false small, Bool.false_and, Nat.testBit_lt_two_pow big]

/-- A byte has eight bits. -/
theorem testBit_toNat_of_le
    (byte : UInt8)
    {position : Nat}
    (high : 8 ≤ position) : byte.toNat.testBit position = false :=
  Nat.testBit_lt_two_pow
    (Nat.lt_of_lt_of_le byte.toNat_lt (Nat.pow_le_pow_right (by decide) high))

/-- The bits of a word, eight in each of its four bytes. -/
theorem getLsbD_wordAt
    (text : List UInt8)
    (index : Nat)
    {position : Nat}
    (inRange : position < 32) :
    (wordAt text index).getLsbD position =
      (text.getD (4 * index + (3 - position / 8)) 0).toNat.testBit
        (position % 8) := by
  simp only [wordAt, BitVec.getLsbD_or, BitVec.getLsbD_shiftLeft, inRange,
    decide_true, Bool.true_and, getLsbD_widen]
  -- the bytes above the position are shifted past it, those below end before it
  have place : position < 8 ∨ 8 ≤ position ∧ position < 16 ∨
      16 ≤ position ∧ position < 24 ∨ 24 ≤ position := by
    omega
  rcases place with below | ⟨above, below⟩ | ⟨above, below⟩ | above
  · have quotient : position / 8 = 0 := by omega
    have remainder : position % 8 = position := by omega
    simp [quotient, remainder, below, show position < 16 by omega,
      show position < 24 by omega]
  · have quotient : position / 8 = 1 := by omega
    have remainder : position % 8 = position - 8 := by omega
    simp [quotient, remainder, below, testBit_toNat_of_le _ above,
      show ¬ position < 8 by omega, show position < 24 by omega]
  · have quotient : position / 8 = 2 := by omega
    have remainder : position % 8 = position - 16 := by omega
    simp [quotient, remainder, below,
      testBit_toNat_of_le _ (show 8 ≤ position - 8 by omega),
      testBit_toNat_of_le _ (show 8 ≤ position by omega),
      show ¬ position < 16 by omega]
  · have quotient : position / 8 = 3 := by omega
    have remainder : position % 8 = position - 24 := by omega
    simp [quotient, remainder,
      testBit_toNat_of_le _ (show 8 ≤ position - 16 by omega),
      testBit_toNat_of_le _ (show 8 ≤ position - 8 by omega),
      testBit_toNat_of_le _ (show 8 ≤ position by omega),
      show ¬ position < 24 by omega]

/-- Words with the same bytes are equal. -/
theorem wordAt_congr
    {left right : List UInt8}
    {leftIndex rightIndex : Nat}
    (same : ∀ place, place < 4 →
      left.getD (4 * leftIndex + place) 0 =
        right.getD (4 * rightIndex + place) 0) :
    wordAt left leftIndex = wordAt right rightIndex := by
  have first := same 0 (by decide)
  rw [Nat.add_zero, Nat.add_zero] at first
  rw [wordAt, wordAt, first, same 1 (by decide), same 2 (by decide),
    same 3 (by decide)]

/-- The four bytes of a number, read as a word. -/
theorem wordAt_encodeBE (value : Nat) :
    wordAt (encodeBE 4 value) 0 = BitVec.ofNat 32 value := by
  apply BitVec.eq_of_getLsbD_eq
  intro position inRange
  rw [getLsbD_wordAt _ _ inRange]
  have digit : (encodeBE 4 value).getD (4 * 0 + (3 - position / 8)) 0 =
      UInt8.ofNat (value / 2 ^ (8 * (position / 8))) := by
    have place : position / 8 < 4 := by omega
    rw [encodeBE_four]
    interval_cases position / 8 <;> simp [Nat.div_div_eq_div_mul]
  have small : position % 8 < 8 := Nat.mod_lt _ (by decide)
  have split : position % 8 + 8 * (position / 8) = position := by omega
  rw [digit, BitVec.getLsbD_ofNat, UInt8.toNat_ofNat', Nat.testBit_mod_two_pow,
    Nat.testBit_div_two_pow, decide_eq_true small, decide_eq_true inRange, split]

theorem wordAt_append_left
    (front back : List UInt8)
    {index : Nat}
    (within : 4 * index + 4 ≤ front.length) :
    wordAt (front ++ back) index = wordAt front index := by
  apply wordAt_congr
  intro place small
  rw [List.getD_eq_getElem?_getD, List.getD_eq_getElem?_getD,
    List.getElem?_append_left (by omega)]

theorem wordAt_append_right
    {front : List UInt8}
    (back : List UInt8)
    {words : Nat}
    (aligned : front.length = 4 * words)
    (index : Nat) :
    wordAt (front ++ back) (words + index) = wordAt back index := by
  apply wordAt_congr
  intro place small
  rw [List.getD_eq_getElem?_getD, List.getD_eq_getElem?_getD,
    List.getElem?_append_right (by omega)]
  congr 2
  omega

/-- Zeros at the end change no word. -/
theorem wordAt_append_zeros (text : List UInt8) (count index : Nat) :
    wordAt (text ++ List.replicate count 0) index = wordAt text index := by
  apply wordAt_congr
  intro place small
  rw [List.getD_eq_getElem?_getD, List.getD_eq_getElem?_getD,
    List.getElem?_append]
  split
  · rfl
  next past =>
    rw [List.getElem?_eq_none (Nat.le_of_not_lt past),
      List.getElem?_replicate]
    split <;> rfl

theorem getD_append_byte (text : List UInt8) (byte : UInt8) (place : Nat) :
    (text ++ [byte]).getD place 0 =
      if place = text.length then byte else text.getD place 0 := by
  rw [List.getD_eq_getElem?_getD, List.getD_eq_getElem?_getD]
  split
  next here => rw [here, List.getElem?_concat_length, Option.getD_some]
  next elsewhere =>
    rcases Nat.lt_or_ge place text.length with before | past
    · rw [List.getElem?_append_left before]
    · rw [List.getElem?_eq_none past, List.getElem?_eq_none]
      rw [List.length_append, List.length_singleton]
      omega

/-- One more byte at the end of a text is one more byte in the word there. -/
theorem wordAt_append_byte (text : List UInt8) (byte : UInt8) (index : Nat) :
    wordAt (text ++ [byte]) index =
      if index = text.length / 4 then
        wordAt text index |||
          widen byte <<< (8 * (3 - text.length % 4))
      else wordAt text index := by
  split
  next here =>
    apply BitVec.eq_of_getLsbD_eq
    intro position inRange
    rw [getLsbD_wordAt _ _ inRange, BitVec.getLsbD_or,
      getLsbD_wordAt _ _ inRange, BitVec.getLsbD_shiftLeft, getLsbD_widen,
      getD_append_byte]
    by_cases added : 3 - position / 8 = text.length % 4
    · have past : 4 * index + (3 - position / 8) = text.length := by omega
      have shifted : position - 8 * (3 - text.length % 4) = position % 8 := by
        omega
      have reached : ¬ position < 8 * (3 - text.length % 4) := by omega
      rw [if_pos past, past, shifted, List.getD_eq_getElem?_getD,
        List.getElem?_eq_none (Nat.le_refl _)]
      simp [inRange, reached]
    · have before : 4 * index + (3 - position / 8) ≠ text.length := by omega
      have outside : position < 8 * (3 - text.length % 4) ∨
          8 ≤ position - 8 * (3 - text.length % 4) := by
        omega
      rw [if_neg before]
      rcases outside with lower | higher
      · simp [lower]
      · simp [testBit_toNat_of_le _ higher]
  next elsewhere =>
    apply wordAt_congr
    intro place small
    rw [getD_append_byte, if_neg (by omega)]

end Text
end EvCollect
