import Mathlib.Data.List.TakeWhile
import EvCollect.Json.Grammar

/-!
# Reading JSON texts

A reader of the texts of the grammar, as a function on fuel, and what it makes of
string literals and numbers.
-/

namespace EvCollect
namespace Json

def skipBlank (text : List UInt8) : List UInt8 :=
  text.dropWhile isBlank

/-- Read a string literal behind its opening quote. -/
def readLetters : List UInt8 → Option (List Element × List UInt8)
  | [] => none
  | 0x22 :: rest => some ([], rest)
  | 0x5c :: 0x75 :: first :: second :: third :: fourth :: rest =>
      match hexUnit first second third fourth, readLetters rest with
      | some unit, some (elements, rest) => some (.code unit :: elements, rest)
      | _, _ => none
  | 0x5c :: letter :: rest =>
      match shortEscape letter, readLetters rest with
      | some byte, some (elements, rest) => some (.byte byte :: elements, rest)
      | _, _ => none
  | byte :: rest =>
      if isPlain byte then
        (readLetters rest).map fun read => (.byte byte :: read.1, read.2)
      else none

/-- Read a string literal: the string that it denotes, and what is left. -/
def readString : List UInt8 → Option (List UInt8 × List UInt8)
  | 0x22 :: rest => (readLetters rest).map fun read => (decode read.1, read.2)
  | _ => none

/-- Bytes that occur in numbers. -/
def isNumberByte (byte : UInt8) : Bool :=
  isDigit byte || byte == 0x2b || byte == 0x2d || byte == 0x2e ||
    byte == 0x45 || byte == 0x65

/-- Read a number. -/
def readNumber (text : List UInt8) : Option (Value × List UInt8) :=
  if isNumber (text.takeWhile isNumberByte) then
    some (.number (text.takeWhile isNumberByte), text.dropWhile isNumberByte)
  else none

mutual

/-- Read a value that begins at once. -/
def readValue : Nat → List UInt8 → Option (Value × List UInt8)
  | 0, _ => none
  | fuel + 1, text =>
      match text with
      | 0x6e :: 0x75 :: 0x6c :: 0x6c :: rest => some (.null, rest)
      | 0x74 :: 0x72 :: 0x75 :: 0x65 :: rest => some (.bool true, rest)
      | 0x66 :: 0x61 :: 0x6c :: 0x73 :: 0x65 :: rest =>
          some (.bool false, rest)
      | 0x22 :: rest =>
          (readLetters rest).map fun read => (.string (decode read.1), read.2)
      | 0x5b :: rest =>
          match skipBlank rest with
          | 0x5d :: rest => some (.array [], rest)
          | rest =>
              (readItems fuel rest).map fun read => (.array read.1, read.2)
      | 0x7b :: rest =>
          match skipBlank rest with
          | 0x7d :: rest => some (.object [], rest)
          | rest =>
              (readMembers fuel rest).map fun read => (.object read.1, read.2)
      | text => readNumber text

/-- Read the items of an array and its closing bracket. -/
def readItems : Nat → List UInt8 → Option (List Value × List UInt8)
  | 0, _ => none
  | fuel + 1, text =>
      match readValue fuel (skipBlank text) with
      | none => none
      | some (value, rest) =>
          match skipBlank rest with
          | 0x5d :: rest => some ([value], rest)
          | 0x2c :: rest =>
              (readItems fuel rest).map fun read => (value :: read.1, read.2)
          | _ => none

/-- Read the members of an object and its closing brace. -/
def readMembers :
    Nat → List UInt8 → Option (List (List UInt8 × Value) × List UInt8)
  | 0, _ => none
  | fuel + 1, text =>
      match skipBlank text with
      | 0x22 :: rest =>
          match readLetters rest with
          | none => none
          | some (elements, rest) =>
              match skipBlank rest with
              | 0x3a :: rest =>
                  match readValue fuel (skipBlank rest) with
                  | none => none
                  | some (value, rest) =>
                      match skipBlank rest with
                      | 0x7d :: rest => some ([(decode elements, value)], rest)
                      | 0x2c :: rest =>
                          (readMembers fuel rest).map fun read =>
                            ((decode elements, value) :: read.1, read.2)
                      | _ => none
              | _ => none
      | _ => none

end

/-- The value that a text denotes. -/
def readText (text : List UInt8) : Option Value :=
  match readValue (2 * text.length) (skipBlank text) with
  | some (value, rest) =>
      if (skipBlank rest).isEmpty then some value else none
  | none => none

/-! ## String literals -/

theorem readLetters_plain
    {byte : UInt8}
    (plain : isPlain byte = true)
    (rest : List UInt8) :
    readLetters (byte :: rest) =
      (readLetters rest).map fun read => (.byte byte :: read.1, read.2) := by
  have facts := of_decide_eq_true plain
  rw [readLetters.eq_def]
  split <;> simp_all

theorem readLetters_short
    {letter byte : UInt8}
    (escape : shortEscape letter = some byte)
    (rest : List UInt8) :
    readLetters (0x5c :: letter :: rest) =
      (readLetters rest).map fun read => (.byte byte :: read.1, read.2) := by
  have notUnit : letter ≠ 0x75 := by
    rintro rfl
    rw [show shortEscape 0x75 = none from rfl] at escape
    cases escape
  rw [readLetters]
  · rw [escape]
    cases readLetters rest <;> rfl
  · intro first second third fourth others equal
    exact absurd equal notUnit

theorem readLetters_append
    {elements : List Element}
    {text : List UInt8}
    (letters : Letters elements text)
    (rest : List UInt8) :
    readLetters (text ++ 0x22 :: rest) = some (elements, rest) := by
  induction letters with
  | nil => rfl
  | plain plain _ inductionHypothesis =>
      rw [List.cons_append, readLetters_plain plain, inductionHypothesis]
      rfl
  | short escape _ inductionHypothesis =>
      rw [List.cons_append, List.cons_append, readLetters_short escape,
        inductionHypothesis]
      rfl
  | long digits _ inductionHypothesis =>
      simp only [List.cons_append]
      rw [readLetters, digits, inductionHypothesis]

theorem le_of_shortEscape
    {letter byte : UInt8}
    (escape : shortEscape letter = some byte) :
    0x20 ≤ letter := by
  unfold shortEscape at escape
  repeat' split at escape
  all_goals first
    | next same => rw [same]; decide
    | cases escape

theorem le_of_hexValue
    {digit : UInt8}
    {value : Nat}
    (isValue : hexValue digit = some value) :
    0x20 ≤ digit := by
  rw [hexValue] at isValue
  split at isValue
  next range => exact UInt8.le_trans (by decide) range.1
  split at isValue
  next range => exact UInt8.le_trans (by decide) range.1
  split at isValue
  next range => exact UInt8.le_trans (by decide) range.1
  next => cases isValue

/-- There is no control character between the quotes. -/
theorem Letters.printable
    {elements : List Element}
    {text : List UInt8}
    (letters : Letters elements text) :
    ∀ byte ∈ text, 0x20 ≤ byte := by
  induction letters with
  | nil => exact nofun
  | plain plain _ inductionHypothesis =>
      exact List.forall_mem_cons.mpr
        ⟨(of_decide_eq_true plain).1, inductionHypothesis⟩
  | short escape _ inductionHypothesis =>
      exact List.forall_mem_cons.mpr ⟨by decide, List.forall_mem_cons.mpr
        ⟨le_of_shortEscape escape, inductionHypothesis⟩⟩
  | long digits _ inductionHypothesis =>
      obtain ⟨_, first, digits⟩ := Option.bind_eq_some_iff.mp digits
      obtain ⟨_, second, digits⟩ := Option.bind_eq_some_iff.mp digits
      obtain ⟨_, third, digits⟩ := Option.bind_eq_some_iff.mp digits
      obtain ⟨_, fourth, -⟩ := Option.bind_eq_some_iff.mp digits
      simp only [List.forall_mem_cons]
      exact ⟨by decide, by decide, le_of_hexValue first, le_of_hexValue second,
        le_of_hexValue third, le_of_hexValue fourth, inductionHypothesis⟩

/-! ## Numbers -/

/-- What a stage leaves is behind bytes that occur in numbers. -/
def Used (text rest : List UInt8) : Prop :=
  ∃ used, text = used ++ rest ∧ ∀ byte ∈ used, isNumberByte byte = true

theorem isNumberByte_of_isDigit
    {byte : UInt8}
    (digit : isDigit byte = true) :
    isNumberByte byte = true := by
  simp [isNumberByte, digit]

theorem used_afterDigits
    {text rest : List UInt8}
    (left : afterDigits text = some rest) :
    Used text rest := by
  cases text with
  | nil => cases left
  | cons digit others =>
      by_cases first : isDigit digit
      · rw [afterDigits, if_pos first, Option.some.injEq] at left
        refine ⟨digit :: others.takeWhile isDigit, ?_, ?_⟩
        · rw [← left, List.cons_append, List.takeWhile_append_dropWhile]
        · intro byte present
          rcases List.mem_cons.mp present with rfl | inRun
          · exact isNumberByte_of_isDigit first
          · exact isNumberByte_of_isDigit (List.mem_takeWhile_imp inRun)
      · rw [afterDigits, if_neg first] at left
        cases left

theorem Used.refl (text : List UInt8) : Used text text :=
  ⟨[], rfl, by simp⟩

theorem Used.trans
    {first second third : List UInt8}
    (left : Used first second)
    (right : Used second third) :
    Used first third := by
  obtain ⟨used, rfl, fits⟩ := left
  obtain ⟨more, rfl, moreFits⟩ := right
  refine ⟨used ++ more, by simp, fun byte present => ?_⟩
  exact (List.mem_append.mp present).elim (fits byte) (moreFits byte)

theorem Used.cons
    {byte : UInt8}
    {text rest : List UInt8}
    (used : Used text rest)
    (isNumberByte : isNumberByte byte = true) :
    Used (byte :: text) rest :=
  Used.trans ⟨[byte], rfl, by simpa using isNumberByte⟩ used

theorem used_afterInteger
    {text rest : List UInt8}
    (left : afterInteger text = some rest) :
    Used text rest := by
  cases text with
  | nil => cases left
  | cons digit others =>
      rw [afterInteger] at left
      split at left
      next isZero =>
        cases left
        exact (Used.refl _).cons (by rw [isZero]; rfl)
      next => exact used_afterDigits left

theorem used_afterFraction
    {text rest : List UInt8}
    (left : afterFraction text = some rest) :
    Used text rest := by
  cases text with
  | nil =>
      cases left
      exact Used.refl _
  | cons byte others =>
      rw [afterFraction] at left
      split at left
      next isPoint =>
        exact (used_afterDigits left).cons (by rw [isPoint]; rfl)
      next =>
        cases left
        exact Used.refl _

theorem used_afterSign (text : List UInt8) : Used text (afterSign text) := by
  cases text with
  | nil => exact Used.refl _
  | cons byte others =>
      rw [afterSign]
      split
      next isSign =>
        refine (Used.refl _).cons ?_
        rcases isSign with rfl | rfl <;> rfl
      next => exact Used.refl _

theorem used_afterExponent
    {text rest : List UInt8}
    (left : afterExponent text = some rest) :
    Used text rest := by
  cases text with
  | nil =>
      cases left
      exact Used.refl _
  | cons byte others =>
      rw [afterExponent] at left
      split at left
      next isLetter =>
        apply ((used_afterSign others).trans (used_afterDigits left)).cons
        rcases isLetter with rfl | rfl <;> rfl
      next =>
        cases left
        exact Used.refl _

theorem used_afterMinus (text : List UInt8) : Used text (afterMinus text) := by
  cases text with
  | nil => exact Used.refl _
  | cons byte others =>
      rw [afterMinus]
      split
      next isMinus => exact (Used.refl _).cons (by rw [isMinus]; rfl)
      next => exact Used.refl _

/-- A number is made of bytes that occur in numbers, and it is not empty. -/
theorem isNumber_bytes
    {text : List UInt8}
    (number : isNumber text = true) :
    text ≠ [] ∧ ∀ byte ∈ text, isNumberByte byte = true := by
  have left := eq_of_beq number
  obtain ⟨behindFraction, fraction, exponent⟩ := Option.bind_eq_some_iff.mp left
  obtain ⟨behindInteger, integer, fraction⟩ :=
    Option.bind_eq_some_iff.mp fraction
  refine ⟨?_, ?_⟩
  · rintro rfl
    cases integer
  · obtain ⟨used, equal, fits⟩ := (((used_afterMinus text).trans
      (used_afterInteger integer)).trans
        (used_afterFraction fraction)).trans (used_afterExponent exponent)
    rw [List.append_nil] at equal
    rw [equal]
    exact fits

end Json
end EvCollect
