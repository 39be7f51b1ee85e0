import EvCollect.Text.Substitution
import EvCollect.Util.Splitting

/-!
# Formatting is meant to be one pass

`StringUtil::format` replaces the placeholders of one value after the other in
the growing text. That is one pass over the format string if and only if no
value that is put in makes a placeholder of a value whose turn is still to come.
-/

namespace EvCollect
namespace StringUtil

open Text

/-- The pattern that `formatImpl` replaces by an argument. -/
def placeholder (argn : Nat) : Bytes :=
  bytes "$" ++ decimal argn

/-- The value of a digit behind a `$`. -/
def argument (values : List Bytes) (digit : UInt8) : Option Bytes :=
  if 0x30 ≤ digit then values[(digit - 0x30).toNat]? else none

/-- One pass over a format string for at most ten values: `$i` is replaced by the
value with that number. -/
def onePass (fmt : Bytes) (values : List Bytes) : Bytes :=
  substitute 0x24 (argument values) fmt

/-- The digit of a number below ten. -/
def digit (number : Nat) : UInt8 :=
  0x30 + UInt8.ofNat number

/-- The cursor of `replaceAll`, an `int`, gets to every placeholder of an argument:
each is found before position 2^31, and behind none of the values that are put in
does the cursor wrap around to a position that is not negative. The last bound is
that of `std::string`. -/
def InReach (argn : Nat) (value text : Bytes) : Prop :=
  (∀ start ∈ insertions 0x24 (single (digit argn) value) 0 text,
    start < 2 ^ 31 ∧ start + value.length < 2 ^ 32) ∧
    (substitute 0x24 (single (digit argn) value) text).length < 2 ^ 63

instance (argn : Nat) (value text : Bytes) : Decidable (InReach argn value text) :=
  inferInstanceAs (Decidable (_ ∧ _))

/-- How often `$i` stands in a text. -/
def placeholders (argn : Nat) (text : Bytes) : Nat :=
  text.tails.countP ((placeholder argn).isPrefixOf ·)

/-- What formatting is meant to be: the result is that of one pass, and before
each step the placeholders that are about to be replaced are those of the format
string. -/
structure Simultaneous (fmt : Bytes) (values : List Bytes) : Prop where
  result : format fmt values = some (onePass fmt values)
  own : ∀ argn < values.length, ∃ text,
    format fmt (values.take argn) = some text ∧
      placeholders argn text = placeholders argn fmt

theorem placeholder_eq
    {argn : Nat}
    (small : argn < 10) :
    placeholder argn = [0x24, digit argn] := by
  have all : ∀ number : Fin 10, placeholder number = [0x24, digit number] := by
    decide
  exact all ⟨argn, small⟩

theorem argument_digit
    {argn : Nat}
    (small : argn < 10)
    (values : List Bytes) :
    argument values (digit argn) = values[argn]? := by
  have all : ∀ number : Fin 10, 0x30 ≤ digit number ∧
      (digit number - 0x30).toNat = number := by
    decide
  obtain ⟨isDigit, same⟩ := all ⟨argn, small⟩
  rw [argument, if_pos isDigit, same]

theorem digit_of_argument
    (byte : UInt8) :
    digit (byte - 0x30).toNat = byte := by
  rw [digit, UInt8.ofNat_toNat, UInt8.add_comm, UInt8.sub_add_cancel]

/-- One more value is the value of one more digit. -/
theorem argument_take_succ
    {values : List Bytes}
    {argn : Nat}
    (small : argn < 10)
    {value : Bytes}
    (isValue : values[argn]? = some value) :
    argument (values.take (argn + 1)) =
      Function.update (argument (values.take argn)) (digit argn)
        (some value) := by
  funext byte
  by_cases same : byte = digit argn
  · rw [same, Function.update_self, argument_digit small, List.getElem?_take,
      if_pos (Nat.lt_succ_self argn), isValue]
  · rw [Function.update_of_ne same, argument, argument]
    by_cases isDigit : 0x30 ≤ byte
    · have other : (byte - 0x30).toNat ≠ argn := by
        intro isArgn
        rw [← isArgn, digit_of_argument] at same
        exact same rfl
      rw [if_pos isDigit, if_pos isDigit, List.getElem?_take, List.getElem?_take]
      by_cases before : (byte - 0x30).toNat < argn
      · rw [if_pos (Nat.lt_succ_of_lt before), if_pos before]
      · rw [if_neg (by omega), if_neg before]
    · rw [if_neg isDigit, if_neg isDigit]

/-! ## Formatting returns -/

/-- Replacing makes a string longer by the replacement for each of its bytes at
most. -/
theorem replaceAll_returns
    {str pattern replacement : Bytes}
    (nonempty : pattern ≠ [])
    (fits : str.length * (replacement.length + 1) < 2 ^ 31) :
    ∃ result, replaceAll str pattern replacement = some result ∧
      result.length ≤ str.length * (replacement.length + 1) := by
  obtain ⟨parts, -, separated⟩ := split_separated nonempty str
  have bound := separated.length_intercalate_le nonempty replacement
  refine ⟨_, replaceAll_separated nonempty separated ?_ ?_, bound⟩
  · intro start member
    have inside := add_length_le_of_mem_starts member
    omega
  · intro part member
    have inside := length_le_intercalate replacement member
    omega

/-- How many times as long as its format string a text can be, at most. -/
def growth : List Bytes → Nat
  | [] => 1
  | value :: values => (value.length + 1) * growth values

theorem growth_pos (values : List Bytes) : 0 < growth values := by
  induction values with
  | nil => exact Nat.one_pos
  | cons value values inductionHypothesis =>
      exact Nat.mul_pos (Nat.succ_pos _) inductionHypothesis

theorem pattern_ne_nil (argn : Nat) : bytes "$" ++ decimal argn ≠ [] := by
  intro empty
  have dollar : bytes "$" = [] := (List.append_eq_nil_iff.mp empty).1
  revert dollar
  decide

theorem formatImpl_returns
    {values : List Bytes} :
    ∀ {scratch : Bytes} {argn : Nat},
      scratch.length * growth values < 2 ^ 31 →
      ∃ result, formatImpl scratch argn values = some result := by
  induction values with
  | nil => exact fun _ => ⟨_, rfl⟩
  | cons value values inductionHypothesis =>
      intro scratch argn fits
      rw [growth, ← Nat.mul_assoc] at fits
      have first : scratch.length * (value.length + 1) < 2 ^ 31 :=
        Nat.lt_of_le_of_lt (Nat.le_mul_of_pos_right _ (growth_pos values)) fits
      obtain ⟨replaced, returned, bound⟩ :=
        replaceAll_returns (pattern_ne_nil argn) first
      obtain ⟨result, rest⟩ := inductionHypothesis
        (Nat.lt_of_le_of_lt (Nat.mul_le_mul_right _ bound) fits)
      exact ⟨result, by rw [formatImpl, returned]; exact rest⟩

/-- A text that fits into an `int` is written. -/
theorem format_returns
    {fmt : Bytes}
    {values : List Bytes}
    (fits : fmt.length * growth values < 2 ^ 31) :
    ∃ result, format fmt values = some result :=
  formatImpl_returns fits

/-! ## Numbers -/

/-- A number is written in digits. -/
theorem isDigit_of_mem_decimal
    {number : Nat}
    {byte : UInt8}
    (member : byte ∈ decimal number) : 0x30 ≤ byte ∧ byte ≤ 0x39 := by
  have all : decimal number =
      (Nat.toDigits 10 number).flatMap String.utf8EncodeChar := by
    rw [decimal, bytes, String.toUTF8, Nat.toString_eq_repr, Nat.repr,
      String.toByteArray_ofList, List.utf8Encode, List.data_toByteArray]
  rw [all] at member
  obtain ⟨char, isChar, isByte⟩ := List.mem_flatMap.mp member
  have isDigit := Nat.isDigit_of_mem_toDigits (by decide) (by decide) isChar
  have alone := length_utf8EncodeChar_digit isDigit
  rw [String.length_utf8EncodeChar] at alone
  rw [String.utf8EncodeChar_eq_singleton alone, List.mem_singleton] at isByte
  simp only [Char.isDigit, Bool.and_eq_true, decide_eq_true_eq] at isDigit
  have above : 48 ≤ char.val.toNat := UInt32.le_iff_toNat_le.mp isDigit.1
  have below : char.val.toNat ≤ 57 := UInt32.le_iff_toNat_le.mp isDigit.2
  rw [isByte, UInt8.le_iff_toNat_le, UInt8.le_iff_toNat_le, UInt32.toNat_toUInt8,
    Nat.mod_eq_of_lt (by omega)]
  exact ⟨above, below⟩

/-! ## One replacement -/

/-- Replacing the placeholders of an argument is a pass for it alone. -/
theorem replaceAll_eq_substitute
    {argn : Nat}
    (small : argn < 10)
    {value text : Bytes}
    (inReach : InReach argn value text) :
    replaceAll text (placeholder argn) value =
      some (substitute 0x24 (single (digit argn) value) text) := by
  have nonempty := pattern_ne_nil argn
  obtain ⟨insertedAt, fits⟩ := inReach
  obtain ⟨parts, -, separated⟩ := split_separated nonempty text
  have isPass : Separated [0x24, digit argn] text parts :=
    placeholder_eq small ▸ separated
  rw [insertions_single_separated isPass] at insertedAt
  rw [substitute_single_separated isPass] at fits ⊢
  exact replaceAll_separated nonempty separated insertedAt fun part member =>
    Nat.lt_of_le_of_lt (length_le_intercalate value member) fits

/-- A text stays in reach if the result fits into an `int`. -/
theorem inReach_of_fits
    {argn : Nat}
    (small : argn < 10)
    {value text : Bytes}
    (fits : text.length * (value.length + 1) < 2 ^ 31)
    (short : value.length < 2 ^ 31) : InReach argn value text := by
  have nonempty : placeholder argn ≠ [] := pattern_ne_nil argn
  obtain ⟨parts, -, separated⟩ := split_separated nonempty text
  have bound := separated.length_intercalate_le nonempty value
  rw [placeholder_eq small] at separated
  refine ⟨fun start member => ?_, ?_⟩
  · rw [insertions_single_separated separated] at member
    have inside := add_length_le_of_mem_starts member
    omega
  · rw [substitute_single_separated separated]
    omega

/-- A placeholder that stands once is replaced. -/
theorem replaceAll_once
    {argn : Nat}
    (small : argn < 10)
    {before behind value : Bytes}
    (absent : 0x24 ∉ before)
    (free : occurrences 0x24 (digit argn) behind = 0)
    (fits : (before.length + 2 + behind.length) * (value.length + 1) < 2 ^ 31)
    (short : value.length < 2 ^ 31) :
    replaceAll (before ++ (0x24 :: digit argn :: behind)) (placeholder argn)
        value = some (before ++ (value ++ behind)) := by
  have different : ∀ number : Fin 10, digit number ≠ 0x24 := by decide
  have rest : substitute 0x24 (single (digit argn) value) behind = behind :=
    (substitute_single_eq_self_iff (different ⟨argn, small⟩) value behind).mpr
      (.inl free)
  have length : (before ++ (0x24 :: digit argn :: behind)).length =
      before.length + 2 + behind.length := by
    rw [List.length_append, List.length_cons, List.length_cons]
    omega
  rw [replaceAll_eq_substitute small
      (inReach_of_fits small (by rw [length]; exact fits) short),
    substitute_append_of_not_mem absent, substitute_single_placeholder, rest]

/-! ## All replacements -/

theorem formatImpl_append (before behind : List Bytes) :
    ∀ (scratch : Bytes) (argn : Nat),
      formatImpl scratch argn (before ++ behind) =
        (formatImpl scratch argn before).bind
          fun text => formatImpl text (argn + before.length) behind := by
  induction before with
  | nil => exact fun _ _ => rfl
  | cons value before inductionHypothesis =>
      intro scratch argn
      rw [List.cons_append, formatImpl, formatImpl, List.length_cons]
      cases replaceAll scratch (bytes "$" ++ decimal argn) value with
      | none => rfl
      | some text =>
          rw [← Nat.add_assoc, Nat.add_right_comm]
          exact inductionHypothesis text (argn + 1)

/-- One more step of `formatImpl`. -/
theorem format_take_succ
    {fmt text value : Bytes}
    {values : List Bytes}
    {argn : Nat}
    (isValue : values[argn]? = some value)
    (before : format fmt (values.take argn) = some text) :
    format fmt (values.take (argn + 1)) =
      replaceAll text (placeholder argn) value := by
  have inside := (List.getElem?_eq_some_iff.mp isValue).1
  have last : values.take (argn + 1) = values.take argn ++ [value] := by
    rw [List.take_add_one, isValue]
    rfl
  rw [format] at before
  rw [format, last, formatImpl_append, before, Option.bind_some, formatImpl,
    List.length_take, Nat.min_eq_left (Nat.le_of_lt inside), Nat.zero_add]
  exact Option.bind_fun_some _

theorem placeholders_eq
    {argn : Nat}
    (small : argn < 10)
    (text : Bytes) :
    placeholders argn text = occurrences 0x24 (digit argn) text := by
  rw [placeholders, occurrences, placeholder_eq small]

theorem onePass_nil (fmt : Bytes) : onePass fmt [] = fmt :=
  substitute_eq_self (fun _ => ite_self none) fmt

/-- If the placeholders of one more value are those of the format string, then a
pass for it completes the pass for the values before. -/
theorem onePass_take_succ
    {fmt value : Bytes}
    {values : List Bytes}
    {argn : Nat}
    (small : argn < 10)
    (isValue : values[argn]? = some value)
    (same : placeholders argn (onePass fmt (values.take argn)) =
      placeholders argn fmt) :
    substitute 0x24 (single (digit argn) value)
        (onePass fmt (values.take argn)) =
      onePass fmt (values.take (argn + 1)) := by
  have different : ∀ number : Fin 10, digit number ≠ 0x24 := by decide
  have notYet : argument (values.take argn) (digit argn) = none := by
    rw [argument_digit small, List.getElem?_eq_none]
    exact List.length_take_le _ _
  rw [placeholders_eq small, placeholders_eq small] at same
  rw [onePass, onePass, argument_take_succ small isValue]
  exact substitute_single_substitute (different ⟨argn, small⟩) rfl notYet value
    same

/-- While the placeholders that are about to be replaced are those of the format
string, `formatImpl` has made one pass. -/
theorem format_take
    {fmt : Bytes}
    {values : List Bytes}
    (atMostTen : values.length ≤ 10)
    (inReach : ∀ argn, ∀ inside : argn < values.length,
      InReach argn values[argn] (onePass fmt (values.take argn))) :
    ∀ argn ≤ values.length,
      (∀ before < argn,
        placeholders before (onePass fmt (values.take before)) =
          placeholders before fmt) →
      format fmt (values.take argn) = some (onePass fmt (values.take argn)) := by
  intro argn
  induction argn with
  | zero =>
      intro _ _
      rw [List.take_zero, onePass_nil]
      rfl
  | succ argn inductionHypothesis =>
      intro inside own
      have small : argn < 10 := by omega
      have isValue := List.getElem?_eq_getElem inside
      have before := inductionHypothesis (by omega)
        fun other less => own other (Nat.lt_succ_of_lt less)
      have pass := onePass_take_succ small isValue
        (own argn (Nat.lt_succ_self argn))
      rw [format_take_succ isValue before,
        replaceAll_eq_substitute small (inReach argn inside), pass]

/-- Formatting is simultaneous if and only if, for each value, the pass for the
values before it leaves its placeholders as they stand in the format string. -/
theorem simultaneous_iff
    {fmt : Bytes}
    {values : List Bytes}
    (atMostTen : values.length ≤ 10)
    (inReach : ∀ argn, ∀ inside : argn < values.length,
      InReach argn values[argn] (onePass fmt (values.take argn))) :
    Simultaneous fmt values ↔ ∀ argn < values.length,
      placeholders argn (onePass fmt (values.take argn)) =
        placeholders argn fmt := by
  constructor
  · intro simultaneous argn
    induction argn using Nat.strong_induction_on with
    | _ argn inductionHypothesis =>
        intro inside
        obtain ⟨text, isText, same⟩ := simultaneous.own argn inside
        rw [format_take atMostTen inReach argn (Nat.le_of_lt inside)
          fun before less => inductionHypothesis before less
            (Nat.lt_trans less inside)] at isText
        cases isText
        exact same
  · intro own
    have passes := format_take atMostTen inReach
    constructor
    · have all := passes values.length (Nat.le_refl _) own
      rwa [List.take_length] at all
    · intro argn inside
      exact ⟨_, passes argn (Nat.le_of_lt inside)
        fun before less => own before (Nat.lt_trans less inside), own argn inside⟩

def emitFormat : Bytes :=
  bytes "EMIT: $0 => $1"

theorem simultaneous_emit :
    Simultaneous emitFormat [bytes "sys.alive", bytes "up"] ↔
      ∀ argn < 2,
        placeholders argn
            (onePass emitFormat ([bytes "sys.alive", bytes "up"].take argn)) =
          placeholders argn emitFormat :=
  simultaneous_iff (by decide) (by decide)

/-- An event name that looks like a placeholder is replaced by the event data. -/
theorem not_simultaneous_emit :
    format emitFormat [bytes "$1", bytes "up"] = some (bytes "EMIT: up => up") ∧
      onePass emitFormat [bytes "$1", bytes "up"] = bytes "EMIT: $1 => up" ∧
      ¬ Simultaneous emitFormat [bytes "$1", bytes "up"] := by
  have again : format emitFormat [bytes "$1", bytes "up"] =
      some (bytes "EMIT: up => up") := by decide
  refine ⟨again, by decide, fun simultaneous => ?_⟩
  have result := simultaneous.result
  rw [again] at result
  exact absurd result (by decide)

/-! ## Format strings and values without marks -/

/-- A format string with a placeholder behind each of some texts, from an argument
number on. -/
def template (argn : Nat) : List Bytes → Bytes → Bytes
  | [], last => last
  | literal :: literals, last =>
      literal ++ (0x24 :: digit argn :: template (argn + 1) literals last)

/-- The same with values in place of the placeholders. -/
def filled : List (Bytes × Bytes) → Bytes → Bytes
  | [], last => last
  | piece :: pieces, last => piece.1 ++ (piece.2 ++ filled pieces last)

theorem digit_ne_dollar
    {argn : Nat}
    (small : argn < 10) : digit argn ≠ 0x24 := by
  have all : ∀ number : Fin 10, digit number ≠ 0x24 := by decide
  exact all ⟨argn, small⟩

theorem digit_ne
    {argn other : Nat}
    (small : argn < 10)
    (smallOther : other < 10)
    (different : argn ≠ other) : digit argn ≠ digit other := by
  have all : ∀ number number' : Fin 10, number ≠ number' →
      digit number ≠ digit number' := by
    decide
  exact all ⟨argn, small⟩ ⟨other, smallOther⟩ (Fin.ne_of_val_ne different)

/-- The placeholders of a format string are those of its own arguments. -/
theorem occurrences_template
    {literals : List Bytes}
    {last : Bytes}
    (plain : ∀ literal ∈ literals, 0x24 ∉ literal)
    (plainLast : 0x24 ∉ last)
    {argn : Nat} :
    ∀ {first : Nat}, argn < first → first + literals.length ≤ 10 →
      occurrences 0x24 (digit argn) (template first literals last) = 0 := by
  induction literals with
  | nil =>
      intro first _ _
      have none := @occurrences_append_of_not_mem _ _ _ (digit argn) _ plainLast []
      rwa [List.append_nil] at none
  | cons literal literals inductionHypothesis =>
      intro first before few
      rw [List.length_cons] at few
      obtain ⟨plainLiteral, plainRest⟩ := List.forall_mem_cons.mp plain
      have other : digit first ≠ digit argn :=
        digit_ne (by omega) (by omega) (by omega)
      have notDollar : digit first ≠ 0x24 := digit_ne_dollar (by omega)
      have rest := inductionHypothesis plainRest (Nat.lt_succ_of_lt before)
        (by omega)
      rw [template, occurrences_append_of_not_mem plainLiteral, occurrences_cons,
        if_neg fun both => other (Option.some.inj both.2), Nat.add_zero,
        occurrences_cons, if_neg fun both => notDollar both.1, Nat.add_zero, rest]

theorem length_template
    (pieces : List (Bytes × Bytes))
    (last : Bytes)
    (argn : Nat) :
    (template argn (pieces.map Prod.fst) last).length ≤
      (filled pieces last).length + 2 * pieces.length := by
  induction pieces generalizing argn with
  | nil => exact Nat.le_refl _
  | cons piece pieces inductionHypothesis =>
      have rest := inductionHypothesis (argn + 1)
      rw [List.map_cons, template, filled]
      simp only [List.length_append, List.length_cons]
      omega

/-- A format string is filled in, behind what has been written already. -/
theorem formatImpl_template
    {pieces : List (Bytes × Bytes)}
    {last : Bytes}
    (plain : ∀ piece ∈ pieces, 0x24 ∉ piece.1 ∧ 0x24 ∉ piece.2)
    (plainLast : 0x24 ∉ last) :
    ∀ {argn : Nat} {done : Bytes}, argn + pieces.length ≤ 10 →
      0x24 ∉ done →
      ((done ++ filled pieces last).length + 2 * pieces.length) *
        ((done ++ filled pieces last).length + 1) < 2 ^ 31 →
      formatImpl (done ++ template argn (pieces.map Prod.fst) last) argn
          (pieces.map Prod.snd) = some (done ++ filled pieces last) := by
  induction pieces with
  | nil => exact fun _ _ _ => rfl
  | cons piece pieces inductionHypothesis =>
      intro argn done few plainDone fits
      obtain ⟨⟨plainLiteral, plainValue⟩, plainRest⟩ :=
        List.forall_mem_cons.mp plain
      rw [List.length_cons] at few
      have plainLiterals : ∀ literal ∈ pieces.map Prod.fst,
          (0x24 : UInt8) ∉ literal := by
        intro literal member
        obtain ⟨other, isPiece, rfl⟩ := List.mem_map.mp member
        exact (plainRest other isPiece).1
      have plainBefore : (0x24 : UInt8) ∉ done ++ piece.1 := fun member =>
        (List.mem_append.mp member).elim plainDone plainLiteral
      have grouped : done ++ filled (piece :: pieces) last =
          (done ++ piece.1 ++ piece.2) ++ filled pieces last := by
        rw [filled]
        simp only [List.append_assoc]
      have lengths := length_template pieces last (argn + 1)
      rw [grouped] at fits ⊢
      have free : occurrences 0x24 (digit argn)
          (template (argn + 1) (pieces.map Prod.fst) last) = 0 :=
        occurrences_template plainLiterals plainLast (Nat.lt_succ_self argn)
          (by rw [List.length_map]; omega)
      have less : ∀ {count size : Nat},
          count ≤ ((done ++ piece.1 ++ piece.2) ++ filled pieces last).length +
            2 * (pieces.length + 1) →
          size ≤ ((done ++ piece.1 ++ piece.2) ++ filled pieces last).length + 1 →
          count * size < 2 ^ 31 := fun countLe sizeLe =>
        Nat.lt_of_le_of_lt (Nat.mul_le_mul countLe sizeLe) fits
      have total : ((done ++ piece.1 ++ piece.2) ++ filled pieces last).length =
          done.length + piece.1.length + piece.2.length +
            (filled pieces last).length := by
        simp only [List.length_append]
      have short : piece.2.length * 1 < 2 ^ 31 :=
        less (by omega) (by omega)
      have replaced : replaceAll
          ((done ++ piece.1) ++ (0x24 :: digit argn ::
            template (argn + 1) (pieces.map Prod.fst) last))
          (placeholder argn) piece.2 =
            some ((done ++ piece.1) ++ (piece.2 ++
              template (argn + 1) (pieces.map Prod.fst) last)) :=
        replaceAll_once (by omega) plainBefore free
          (less (by rw [List.length_append]; omega) (by omega)) (by omega)
      have rest := @inductionHypothesis plainRest (argn + 1)
        (done ++ piece.1 ++ piece.2) (by omega)
        (fun member => (List.mem_append.mp member).elim plainBefore plainValue)
        (less (by omega) (by omega))
      rw [List.map_cons, List.map_cons, template, ← List.append_assoc, formatImpl]
      rw [placeholder] at replaced
      rw [replaced, Option.bind_eq_bind, Option.bind_some, ← List.append_assoc,
        rest]

/-- A format string without other marks is filled in with values that have none. -/
theorem format_template
    (pieces : List (Bytes × Bytes))
    (last : Bytes)
    (few : pieces.length ≤ 10)
    (plain : ∀ piece ∈ pieces, 0x24 ∉ piece.1 ∧ 0x24 ∉ piece.2)
    (plainLast : 0x24 ∉ last)
    (fits : ((filled pieces last).length + 2 * pieces.length) *
      ((filled pieces last).length + 1) < 2 ^ 31) :
    format (template 0 (pieces.map Prod.fst) last) (pieces.map Prod.snd) =
      some (filled pieces last) :=
  @formatImpl_template pieces last plain plainLast 0 [] (by omega)
    List.not_mem_nil fits

end StringUtil
end EvCollect
