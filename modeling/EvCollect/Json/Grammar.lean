import Mathlib.Data.List.Basic

/-!
# JSON texts

The grammar of JSON over bytes, as a relation between values and the texts that
denote them. A byte from 0x80 on stands for itself in a string literal.
-/

namespace EvCollect
namespace Json

/-! ## Strings -/

/-- What a string literal is made of: bytes, and 16 bit code units that are given
by their hexadecimal digits. -/
inductive Element
  | byte (value : UInt8)
  | code (unit : Nat)
  deriving DecidableEq, Repr

/-- The bytes of a code point in UTF-8. -/
def utf8 (point : Nat) : List UInt8 :=
  if point < 0x80 then [UInt8.ofNat point]
  else if point < 0x800 then
    [UInt8.ofNat (0xc0 + point / 0x40), UInt8.ofNat (0x80 + point % 0x40)]
  else if point < 0x10000 then
    [UInt8.ofNat (0xe0 + point / 0x1000),
      UInt8.ofNat (0x80 + point / 0x40 % 0x40),
      UInt8.ofNat (0x80 + point % 0x40)]
  else
    [UInt8.ofNat (0xf0 + point / 0x40000),
      UInt8.ofNat (0x80 + point / 0x1000 % 0x40),
      UInt8.ofNat (0x80 + point / 0x40 % 0x40),
      UInt8.ofNat (0x80 + point % 0x40)]

/-- Whether two code units are a surrogate pair. -/
def isPair (high low : Nat) : Bool :=
  decide (0xd800 ≤ high ∧ high < 0xdc00 ∧ 0xdc00 ≤ low ∧ low < 0xe000)

/-- The bytes that a string literal denotes. A surrogate that is not in a pair is
taken for a code point. -/
def decode : List Element → List UInt8
  | [] => []
  | .byte value :: rest => value :: decode rest
  | .code high :: .code low :: rest =>
      if isPair high low then
        utf8 (0x10000 + (high - 0xd800) * 0x400 + (low - 0xdc00)) ++ decode rest
      else utf8 high ++ decode (.code low :: rest)
  | .code unit :: rest => utf8 unit ++ decode rest

/-- What a backslash and a letter denote. -/
def shortEscape (letter : UInt8) : Option UInt8 :=
  if letter = 0x22 then some 0x22
  else if letter = 0x5c then some 0x5c
  else if letter = 0x2f then some 0x2f
  else if letter = 0x62 then some 0x08
  else if letter = 0x66 then some 0x0c
  else if letter = 0x6e then some 0x0a
  else if letter = 0x72 then some 0x0d
  else if letter = 0x74 then some 0x09
  else none

/-- The value of a hexadecimal digit. -/
def hexValue (digit : UInt8) : Option Nat :=
  if 0x30 ≤ digit ∧ digit ≤ 0x39 then some (digit.toNat - 0x30)
  else if 0x61 ≤ digit ∧ digit ≤ 0x66 then some (digit.toNat - 0x57)
  else if 0x41 ≤ digit ∧ digit ≤ 0x46 then some (digit.toNat - 0x37)
  else none

/-- The code unit of four hexadecimal digits. -/
def hexUnit (first second third fourth : UInt8) : Option Nat := do
  let first ← hexValue first
  let second ← hexValue second
  let third ← hexValue third
  let fourth ← hexValue fourth
  return ((first * 16 + second) * 16 + third) * 16 + fourth

/-- Bytes that stand for themselves in a string literal. -/
def isPlain (byte : UInt8) : Bool :=
  decide (0x20 ≤ byte ∧ byte ≠ 0x22 ∧ byte ≠ 0x5c)

/-- The text between the quotes of a string literal. -/
inductive Letters : List Element → List UInt8 → Prop
  | nil : Letters [] []
  | plain {byte : UInt8} {elements : List Element} {text : List UInt8}
      (isPlain : isPlain byte = true)
      (rest : Letters elements text) :
      Letters (.byte byte :: elements) (byte :: text)
  | short {letter byte : UInt8} {elements : List Element} {text : List UInt8}
      (escape : shortEscape letter = some byte)
      (rest : Letters elements text) :
      Letters (.byte byte :: elements) (0x5c :: letter :: text)
  | long {first second third fourth : UInt8} {unit : Nat}
      {elements : List Element} {text : List UInt8}
      (digits : hexUnit first second third fourth = some unit)
      (rest : Letters elements text) :
      Letters (.code unit :: elements)
        (0x5c :: 0x75 :: first :: second :: third :: fourth :: text)

/-- A string literal. -/
def quoted (text : List UInt8) : List UInt8 :=
  0x22 :: (text ++ [0x22])

/-! ## Numbers -/

def isDigit (byte : UInt8) : Bool :=
  decide (0x30 ≤ byte ∧ byte ≤ 0x39)

/-- What is left behind one or more digits. -/
def afterDigits : List UInt8 → Option (List UInt8)
  | [] => none
  | digit :: rest =>
      if isDigit digit then some (rest.dropWhile isDigit) else none

/-- What is left behind the integer part, which has no leading zero. -/
def afterInteger : List UInt8 → Option (List UInt8)
  | [] => none
  | digit :: rest =>
      if digit = 0x30 then some rest
      else afterDigits (digit :: rest)

/-- What is left behind the fraction, if there is one. -/
def afterFraction : List UInt8 → Option (List UInt8)
  | [] => some []
  | byte :: rest =>
      if byte = 0x2e then afterDigits rest else some (byte :: rest)

/-- What is left behind a sign, if there is one. -/
def afterSign : List UInt8 → List UInt8
  | [] => []
  | byte :: rest =>
      if byte = 0x2b ∨ byte = 0x2d then rest else byte :: rest

/-- What is left behind the exponent, if there is one. -/
def afterExponent : List UInt8 → Option (List UInt8)
  | [] => some []
  | byte :: rest =>
      if byte = 0x65 ∨ byte = 0x45 then afterDigits (afterSign rest)
      else some (byte :: rest)

/-- What is left behind a minus, if there is one. -/
def afterMinus : List UInt8 → List UInt8
  | [] => []
  | byte :: rest => if byte = 0x2d then rest else byte :: rest

/-- Whether a text is a number. -/
def isNumber (text : List UInt8) : Bool :=
  (((afterInteger (afterMinus text)).bind afterFraction).bind
    afterExponent) == some []

/-! ## Values -/

/-- JSON values, with numbers as they are written. -/
inductive Value
  | null
  | bool (value : Bool)
  | number (text : List UInt8)
  | string (value : List UInt8)
  | array (items : List Value)
  | object (members : List (List UInt8 × Value))

/-- White space. -/
def isBlank (byte : UInt8) : Bool :=
  decide (byte = 0x20 ∨ byte = 0x09 ∨ byte = 0x0a ∨ byte = 0x0d)

def Blank (text : List UInt8) : Prop :=
  ∀ byte ∈ text, isBlank byte = true

/-- What a part of a text denotes: a value, or what is between the brackets of an
array or an object that is not empty. -/
inductive Part
  | value (value : Value)
  | items (items : List Value)
  | members (members : List (List UInt8 × Value))

/-- The texts that denote a part. -/
inductive Denotes : List UInt8 → Part → Prop
  | null : Denotes [0x6e, 0x75, 0x6c, 0x6c] (.value .null)
  | true : Denotes [0x74, 0x72, 0x75, 0x65] (.value (.bool true))
  | false : Denotes [0x66, 0x61, 0x6c, 0x73, 0x65] (.value (.bool false))
  | number {text : List UInt8}
      (isNumber : isNumber text = Bool.true) :
      Denotes text (.value (.number text))
  | string {elements : List Element} {text : List UInt8}
      (letters : Letters elements text) :
      Denotes (quoted text) (.value (.string (decode elements)))
  | noItems {blank : List UInt8}
      (isBlank : Blank blank) :
      Denotes (0x5b :: (blank ++ [0x5d])) (.value (.array []))
  | array {text : List UInt8} {items : List Value}
      (inside : Denotes text (.items items)) :
      Denotes (0x5b :: (text ++ [0x5d])) (.value (.array items))
  | noMembers {blank : List UInt8}
      (isBlank : Blank blank) :
      Denotes (0x7b :: (blank ++ [0x7d])) (.value (.object []))
  | object {text : List UInt8} {members : List (List UInt8 × Value)}
      (inside : Denotes text (.members members)) :
      Denotes (0x7b :: (text ++ [0x7d])) (.value (.object members))
  | lastItem {before text after : List UInt8} {value : Value}
      (blankBefore : Blank before)
      (denotes : Denotes text (.value value))
      (blankAfter : Blank after) :
      Denotes (before ++ (text ++ after)) (.items [value])
  | item {before text after rest : List UInt8} {value : Value}
      {items : List Value}
      (blankBefore : Blank before)
      (denotes : Denotes text (.value value))
      (blankAfter : Blank after)
      (others : Denotes rest (.items items)) :
      Denotes (before ++ (text ++ (after ++ 0x2c :: rest)))
        (.items (value :: items))
  | lastMember {before name between lead text after : List UInt8}
      {elements : List Element} {value : Value}
      (blankBefore : Blank before)
      (letters : Letters elements name)
      (blankBetween : Blank between)
      (blankLead : Blank lead)
      (denotes : Denotes text (.value value))
      (blankAfter : Blank after) :
      Denotes (before ++ (quoted name ++ (between ++ 0x3a ::
          (lead ++ (text ++ after)))))
        (.members [(decode elements, value)])
  | member {before name between lead text after rest : List UInt8}
      {elements : List Element} {value : Value}
      {members : List (List UInt8 × Value)}
      (blankBefore : Blank before)
      (letters : Letters elements name)
      (blankBetween : Blank between)
      (blankLead : Blank lead)
      (denotes : Denotes text (.value value))
      (blankAfter : Blank after)
      (others : Denotes rest (.members members)) :
      Denotes (before ++ (quoted name ++ (between ++ 0x3a ::
          (lead ++ (text ++ (after ++ 0x2c :: rest))))))
        (.members ((decode elements, value) :: members))

/-- A text that denotes a value, with white space around it. -/
def Text (text : List UInt8) (value : Value) : Prop :=
  ∃ before body after, Blank before ∧ Denotes body (.value value) ∧
    Blank after ∧ text = before ++ (body ++ after)

end Json
end EvCollect
