import EvCollect.Json.Completeness
import EvCollect.Util.StringUtil

/-!
# Escaped strings are string literals

What `jsonEscape` writes, put between quotes, is a JSON string literal that
denotes the string it was given.
-/

namespace EvCollect
namespace StringUtil

open Json

/-- The element of a string literal that `jsonEscapeByte` writes. -/
def escapedElement (byte : UInt8) : Element :=
  if (jsonEscapeByte byte).length = 6 then .code byte.toNat else .byte byte

theorem hexUnit_hexDigit
    {byte : UInt8}
    (control : byte < 0x20) :
    hexUnit 0x30 0x30 (hexDigit (byte / 16)) (hexDigit (byte % 16)) =
      some byte.toNat := by
  have digits : ∀ number : Fin 32,
      hexUnit 0x30 0x30 (hexDigit (UInt8.ofNat number / 16))
        (hexDigit (UInt8.ofNat number % 16)) = some number.val := by
    decide
  have small : byte.toNat < 32 := UInt8.lt_iff_toNat_lt.mp control
  have written := digits ⟨byte.toNat, small⟩
  rwa [UInt8.ofNat_toNat] at written

theorem letters_escapedByte
    (byte : UInt8)
    {elements : List Element}
    {text : Bytes}
    (rest : Letters elements text) :
    Letters (escapedElement byte :: elements) (jsonEscapeByte byte ++ text) := by
  unfold escapedElement jsonEscapeByte
  split
  next same => exact same ▸ Letters.short rfl rest
  split
  next same => exact same ▸ Letters.short rfl rest
  split
  next same => exact same ▸ Letters.short rfl rest
  split
  next same => exact same ▸ Letters.short rfl rest
  split
  next same => exact same ▸ Letters.short rfl rest
  split
  next control => exact Letters.long (hexUnit_hexDigit control) rest
  next printable =>
    split
    next same => exact same ▸ Letters.short rfl rest
    split
    next same => exact same ▸ Letters.short rfl rest
    next noQuote noBackslash =>
      exact Letters.plain (decide_eq_true
        ⟨UInt8.not_lt.mp printable, noQuote, noBackslash⟩) rest

theorem letters_escaped (string : Bytes) :
    Letters (string.map escapedElement) (escaped string) := by
  induction string with
  | nil => exact Letters.nil
  | cons byte rest inductionHypothesis =>
      exact letters_escapedByte byte inductionHypothesis

/-- Only control characters are written as code units. -/
theorem escapedElement_cases (byte : UInt8) :
    escapedElement byte = .byte byte ∨
      byte < 0x20 ∧ escapedElement byte = .code byte.toNat := by
  unfold escapedElement
  split
  next isLong =>
    refine .inr ⟨?_, rfl⟩
    by_contra printable
    revert isLong
    unfold jsonEscapeByte
    repeat' split
    all_goals first | decide | simp_all
  next => exact .inl rfl

theorem decode_escapedElement
    (byte : UInt8)
    (string : Bytes) :
    decode (escapedElement byte :: string.map escapedElement) =
      byte :: decode (string.map escapedElement) := by
  rcases escapedElement_cases byte with isByte | ⟨control, isCode⟩
  · rw [isByte, decode]
  · have small : byte.toNat < 32 := UInt8.lt_iff_toNat_lt.mp control
    have alone : utf8 byte.toNat = [byte] := by
      rw [utf8, if_pos (by omega), UInt8.ofNat_toNat]
    have notHigh (low : Nat) : isPair byte.toNat low = false :=
      decide_eq_false (by omega)
    rw [isCode]
    cases string with
    | nil => simp [decode, alone]
    | cons next rest =>
        rw [List.map_cons]
        rcases escapedElement_cases next with nextByte | ⟨-, nextCode⟩
        · simp [nextByte, decode, alone]
        · simp [nextCode, decode, notHigh, alone]

theorem decode_escaped (string : Bytes) :
    decode (string.map escapedElement) = string := by
  induction string with
  | nil => rfl
  | cons byte rest inductionHypothesis =>
      rw [List.map_cons, decode_escapedElement, inductionHypothesis]

/-- Quoted, the escaped string denotes the string. -/
theorem denotes_escaped (string : Bytes) :
    Denotes (quoted (escaped string)) (.value (.string string)) := by
  have denotes := Denotes.string (letters_escaped string)
  rwa [decode_escaped] at denotes

/-- A reader of the literal gets the string, and what is behind the literal. -/
theorem readString_escaped (string rest : Bytes) :
    readString (0x22 :: (escaped string ++ 0x22 :: rest)) =
      some (string, rest) := by
  have read := readLetters_append (letters_escaped string) rest
  rw [readString, read, Option.map_some, decode_escaped]

theorem escaped_injective : Function.Injective escaped := by
  intro first second same
  have read := readString_escaped first []
  rw [same, readString_escaped] at read
  cases read
  rfl

/-- What `jsonEscape` returns stands for the string between quotes, whatever is
behind them. -/
structure Escapes (string : Bytes) : Prop where
  read : ∀ rest, readString (0x22 :: (jsonEscape string ++ 0x22 :: rest)) =
    some (string, rest)
  /-- There is no bare quote and no escape without an end. -/
  letters : ∃ elements, Letters elements (jsonEscape string)
  printable : ∀ byte ∈ jsonEscape string, 0x20 ≤ byte
  /-- Of two strings with one text it is the longer one that is not escaped. -/
  injective : ∀ other, other.length ≤ string.length →
    jsonEscape other = jsonEscape string → other = string

/-- Strings are escaped if and only if the `int` index gets to all of their bytes. -/
theorem escapes_iff (string : Bytes) :
    Escapes string ↔ string.length ≤ 2 ^ 31 := by
  constructor
  · intro escapes
    have read := escapes.read []
    rw [jsonEscape_eq, readString_escaped] at read
    have whole : string.take (2 ^ 31) = string :=
      congrArg Prod.fst (Option.some.inj read)
    have length := congrArg List.length whole
    rw [List.length_take] at length
    exact Nat.le_of_not_lt fun more => absurd length (by omega)
  · intro fits
    have letters := letters_escaped string
    rw [← jsonEscape_of_le fits] at letters
    refine ⟨fun rest => ?_, ⟨_, letters⟩, letters.printable, ?_⟩
    · rw [jsonEscape_of_le fits, readString_escaped]
    · intro other short same
      rw [jsonEscape_of_le fits, jsonEscape_of_le (short.trans fits)] at same
      exact escaped_injective same

/-- Behind byte 2^31 the index is negative, and the rest is left out. -/
theorem not_escapes_long :
    ¬ Escapes (List.replicate (2 ^ 31 + 1) 0x61) := by
  intro escapes
  have fits := (escapes_iff _).mp escapes
  rw [List.length_replicate] at fits
  exact absurd fits (Nat.not_succ_le_self _)

end StringUtil
end EvCollect
