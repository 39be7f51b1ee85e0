import EvCollect.EventQL.Attach

/-!
# Options with numbers

What number the text of an option denotes, and when the number that is installed
is this one: `std::stoul` reads past what is behind the digits and wraps negative
numbers around, and the port keeps 16 bits of the result.
-/

namespace EvCollect
namespace EventQL

/-- The options of a target with numbers. -/
inductive NumberOption
  | port
  | httpTimeout
  | queueMaxlen
  deriving DecidableEq, Repr

namespace NumberOption

def key : NumberOption → String
  | port => "port"
  | httpTimeout => "http_timeout"
  | queueMaxlen => "queue_maxlen"

/-- The greatest number that the option can be set to. -/
def max : NumberOption → Nat
  | port => 2 ^ 16 - 1
  | httpTimeout | queueMaxlen => 2 ^ 64 - 1

/-- The number that is installed. -/
def installed (target : TargetOptions) : NumberOption → Nat
  | port => target.port.toNat
  | httpTimeout => target.httpTimeout.toNat
  | queueMaxlen => target.queueMaxLength.toNat

end NumberOption

/-- A numeral: blanks, a sign, which can be a minus, and decimal digits. -/
structure Numeral where
  blanks : Bytes
  sign : Option Bool
  digits : Bytes
  blank : ∀ byte ∈ blanks, isSpace byte = true
  digit : ∀ byte ∈ digits, isDigit byte = true
  nonempty : digits ≠ []

/-- A sign as it is written: none, plus, or minus. -/
def signText : Option Bool → Bytes
  | none => []
  | some false => bytes "+"
  | some true => bytes "-"

namespace Numeral

def text (numeral : Numeral) : Bytes :=
  numeral.blanks ++ signText numeral.sign ++ numeral.digits

/-- The number that it denotes. -/
def value (numeral : Numeral) : Int :=
  if numeral.sign = some true then -digitsValue numeral.digits
  else digitsValue numeral.digits

end Numeral

/-- A whole text denotes a number. -/
def Denotes (text : Bytes) (number : Int) : Prop :=
  ∃ numeral : Numeral, numeral.text = text ∧ numeral.value = number

section

variable {byte : UInt8}

theorem isDigit_plain
    (digit : isDigit byte = true) :
    isSpace byte = false ∧ byte ≠ 0 ∧ byte ≠ 0x2b ∧ byte ≠ 0x2d := by
  rw [isDigit, Bool.and_eq_true, decide_eq_true_iff, decide_eq_true_iff,
    UInt8.le_iff_toNat_le, UInt8.le_iff_toNat_le] at digit
  have above : 48 ≤ byte.toNat := digit.1
  have below : byte.toNat ≤ 57 := digit.2
  refine ⟨?_, ?_, ?_, ?_⟩
  · rw [isSpace, Bool.or_eq_false_iff, Bool.and_eq_false_iff,
      decide_eq_false_iff_not, decide_eq_false_iff_not, decide_eq_false_iff_not,
      UInt8.le_iff_toNat_le, UInt8.le_iff_toNat_le]
    refine ⟨?_, .inr (Nat.not_le.mpr (Nat.lt_of_lt_of_le (by decide) above))⟩
    rintro rfl
    exact absurd above (by decide)
  all_goals
    rintro rfl
    exact absurd above (by decide)

theorem isSpace_plain
    (space : isSpace byte = true) :
    byte ≠ 0 := by
  rintro rfl
  exact absurd space (by decide)

end

namespace Numeral

variable (numeral : Numeral)

theorem exists_cons :
    ∃ byte rest, numeral.digits = byte :: rest ∧ isDigit byte = true := by
  obtain ⟨byte, rest, digits⟩ := List.exists_cons_of_ne_nil numeral.nonempty
  exact ⟨byte, rest, digits, numeral.digit byte (digits ▸ List.mem_cons_self)⟩

theorem noZero : 0 ∉ numeral.text := by
  intro member
  rw [text, List.mem_append, List.mem_append] at member
  rcases member with (isBlank | inSign) | isDigit
  · exact isSpace_plain (numeral.blank 0 isBlank) rfl
  · revert inSign
    rcases numeral.sign with _ | _ | _ <;> decide
  · exact (isDigit_plain (numeral.digit 0 isDigit)).2.1 rfl

theorem dropWhile_text :
    numeral.text.dropWhile isSpace =
      signText numeral.sign ++ numeral.digits := by
  obtain ⟨byte, rest, digits, digit⟩ := numeral.exists_cons
  rw [text, List.append_assoc, List.dropWhile_append_of_pos numeral.blank, digits]
  rcases numeral.sign with _ | _ | _
  · exact List.dropWhile_cons_of_neg (by simp [(isDigit_plain digit).1])
  · rfl
  · rfl

end Numeral

/-- What `stoull` makes of a numeral that fits. -/
theorem stoull_numeral
    (numeral : Numeral)
    {number : Nat}
    (denotes : numeral.value = number)
    (fits : number < 2 ^ 64) :
    stoull (cString numeral.text) = some (UInt64.ofNat number) := by
  obtain ⟨byte, rest, digits, digit⟩ := numeral.exists_cons
  have isDigits : numeral.digits.takeWhile isDigit = numeral.digits :=
    List.takeWhile_eq_self_iff.mpr numeral.digit
  have nonempty : numeral.digits.isEmpty = false := by rw [digits]; rfl
  rw [cString_eq_self numeral.noZero, stoull, numeral.dropWhile_text]
  rw [Numeral.value] at denotes
  have plus : bytes "+" = [0x2b] := rfl
  have minus : bytes "-" = [0x2d] := rfl
  rcases sign : numeral.sign with _ | _ | _
  · have head : numeral.digits.head? = some byte := by rw [digits]; rfl
    obtain ⟨-, -, noPlus, noMinus⟩ := isDigit_plain digit
    rw [sign, if_neg (by simp)] at denotes
    have same : digitsValue numeral.digits = number := Int.ofNat.inj denotes
    simpa [signText, head, noPlus, noMinus, isDigits, nonempty, same] using fits
  · rw [sign, if_neg (by simp)] at denotes
    have same : digitsValue numeral.digits = number := Int.ofNat.inj denotes
    simpa [signText, plus, isDigits, nonempty, same] using fits
  · rw [sign, if_pos rfl] at denotes
    have same : digitsValue numeral.digits = 0 := by omega
    have isZero : number = 0 := by omega
    simp [signText, minus, isDigits, nonempty, same, isZero]

/-! ## The numbers that are installed -/

/-- That the attachment fails or installs the numbers that the texts denote. -/
def NumbersInstalled (config : PropertyList) : Prop :=
  ∀ target, attachTarget config = .ok target →
    ∀ option : NumberOption, ∀ text ∈ config.get (bytes option.key),
      Denotes text (option.installed target)

/-- That the attachment fails: a text is not read as a number, or the first route
that is not a pair has values. -/
def Rejected (config : PropertyList) : Prop :=
  (∃ option : NumberOption, ∃ text ∈ config.get (bytes option.key),
    stoull (cString text) = none) ∨
  ∃ value values, (config.getAll (bytes "route")).find?
    (fun route => route.length ≠ 2) = some (value :: values)

theorem attached_iff_not_rejected (config : PropertyList) :
    (∃ target, attachTarget config = .ok target) ↔ ¬ Rejected config := by
  rw [attached_iff, Rejected, not_or]
  refine and_congr ?_ (by simp only [not_exists, ne_eq])
  simp only [List.forall_mem_cons, not_exists, not_and]
  constructor
  · rintro ⟨port, timeout, maxLength, -⟩ (_ | _ | _)
    · exact port
    · exact timeout
    · exact maxLength
  · intro valid
    exact ⟨valid .port, valid .httpTimeout, valid .queueMaxlen, nofun⟩

/-- What is installed for a text. -/
theorem installed_eq
    {config : PropertyList}
    {target : TargetOptions}
    (attached : attachTarget config = .ok target)
    {option : NumberOption}
    {text : Bytes}
    (given : text ∈ config.get (bytes option.key))
    {number : Nat}
    (fits : number ≤ option.max)
    (read : stoull (cString text) = some (UInt64.ofNat number)) :
    option.installed target = number := by
  obtain ⟨port, timeout, maxLength, routes, isPort, isTimeout, isMaxLength, -, rfl⟩ :=
    attachTarget_eq_ok_iff.mp attached
  have isRead (default : UInt64) :
      numericOption config option.key default = some (UInt64.ofNat number) := by
    rw [numericOption, given]
    exact read
  cases option with
  | port =>
      cases isPort.symm.trans (isRead 9175)
      have small : number < 2 ^ 16 := Nat.lt_succ_of_le fits
      dsimp only [NumberOption.installed]
      rw [(nameTarget_defaults _ _).1, UInt64.toNat_toUInt16, UInt64.toNat_ofNat']
      omega
  | httpTimeout =>
      cases isTimeout.symm.trans (isRead 30000000)
      exact UInt64.toNat_ofNat_of_lt' (Nat.lt_succ_of_le fits)
  | queueMaxlen =>
      cases isMaxLength.symm.trans (isRead 8192)
      exact UInt64.toNat_ofNat_of_lt' (Nat.lt_succ_of_le fits)

/-- The numbers that are installed are those that the texts denote if and only if
the attachment fails, or each text denotes a number in the range of its option. -/
theorem numbersInstalled_iff (config : PropertyList) :
    NumbersInstalled config ↔
      Rejected config ∨
        ∀ option : NumberOption, ∀ text ∈ config.get (bytes option.key),
          ∃ number : Nat, Denotes text number ∧ number ≤ option.max := by
  by_cases rejected : Rejected config
  · refine iff_of_true (fun target attached => ?_) (.inl rejected)
    exact absurd rejected ((attached_iff_not_rejected config).mp ⟨target, attached⟩)
  rw [or_iff_right rejected]
  obtain ⟨target, attached⟩ := (attached_iff_not_rejected config).mpr rejected
  constructor
  · intro installs option text given
    refine ⟨_, installs target attached option text given, ?_⟩
    cases option with
    | port => exact Nat.le_of_lt_succ target.port.toNat_lt
    | httpTimeout => exact Nat.le_of_lt_succ target.httpTimeout.toNat_lt
    | queueMaxlen => exact Nat.le_of_lt_succ target.queueMaxLength.toNat_lt
  · intro denoted other again option text given
    cases attached.symm.trans again
    obtain ⟨number, denotes, fits⟩ := denoted option text given
    have small : number < 2 ^ 64 := by
      refine Nat.lt_of_le_of_lt fits ?_
      cases option <;> decide
    have read : stoull (cString text) = some (UInt64.ofNat number) := by
      obtain ⟨numeral, rfl, value⟩ := denotes
      exact stoull_numeral numeral value small
    rw [installed_eq attached given fits read]
    exact denotes

/-- The port is cut off to 16 bits. -/
theorem not_numbersInstalled_port :
    attachTarget ⟨[(bytes "port", [bytes "65616"])]⟩ =
        .ok { hostname := bytes "localhost", port := 80 } ∧
      ¬ NumbersInstalled ⟨[(bytes "port", [bytes "65616"])]⟩ := by
  have attached : attachTarget ⟨[(bytes "port", [bytes "65616"])]⟩ =
      .ok { hostname := bytes "localhost", port := 80 } :=
    attachTarget_eq_ok_iff.mpr ⟨_, _, _, _, rfl, rfl, rfl, rfl, by decide⟩
  refine ⟨attached, fun installs => ?_⟩
  obtain ⟨numeral, same, value⟩ := installs _ attached .port (bytes "65616") rfl
  have read := stoull_numeral numeral value (by decide)
  rw [same] at read
  exact absurd read (by decide)

end EventQL
end EvCollect
