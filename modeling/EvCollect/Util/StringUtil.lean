import EvCollect.Basic

/-!
# String utilities

The functions of `StringUtil` that the log reader and the upload target use. A
C++ loop becomes a recursion with a bound on its passes, and `none` stands for a
call that does not return: it throws, or it has not ended within the bound. An
`int` that overflows wraps around.
-/

namespace EvCollect
namespace StringUtil

/-- The first position at which a pattern occurs. -/
def findIn (pattern : Bytes) : Bytes → Option Nat
  | [] => if pattern.isEmpty then some 0 else none
  | byte :: rest =>
      if pattern.isPrefixOf (byte :: rest) then some 0
      else (findIn pattern rest).map (· + 1)

/-- `std::string::find` from a position on. -/
def find (str pattern : Bytes) (position : Nat) : Option Nat :=
  if str.length < position then none
  else (findIn pattern (str.drop position)).map (· + position)

/-- A `size_t` that is stored in an `int`. -/
def toInt (size : Nat) : Int :=
  (size : Int).bmod (2 ^ 32)

/-- An `int` that is used as a `size_t`. -/
def ofInt (value : Int) : Nat :=
  (value % 2 ^ 64).toNat

/-- `++` of an `int`. -/
def increment (value : Int) : Int :=
  (value + 1).bmod (2 ^ 32)

/-- The loop of `replaceAll`, whose cursor is an `int`. -/
def replaceLoop
    (pattern replacement : Bytes) : Nat → Int → Bytes → Option Bytes
  | 0, _, _ => none
  | fuel + 1, cursor, str =>
      match find str pattern (ofInt cursor) with
      | none => some str
      | some position =>
          let start := ofInt (toInt position)
          if start = 2 ^ 64 - 1 then some str
          else if str.length < start then none
          else
            replaceLoop pattern replacement fuel
              (toInt (start + replacement.length))
              (str.take start ++ replacement ++
                str.drop (start + pattern.length))

/-- `StringUtil::replaceAll`. -/
def replaceAll (str pattern replacement : Bytes) : Option Bytes :=
  if str.length = 0 then some str
  else replaceLoop pattern replacement (str.length + 1) 0 str

/-- The decimal digits of a number. -/
def decimal (number : Nat) : Bytes :=
  bytes (toString number)

/-- `StringUtil::toString` of an `int`. -/
def ofInt32 (value : Int32) : Bytes :=
  bytes (toString value.toInt)

/-- `StringUtil::formatImpl` from an argument number on. -/
def formatImpl (scratch : Bytes) (argn : Nat) : List Bytes → Option Bytes
  | [] => some scratch
  | value :: values => do
      let scratch ← replaceAll scratch (bytes "$" ++ decimal argn) value
      formatImpl scratch (argn + 1) values

/-- `StringUtil::format`. -/
def format (fmt : Bytes) (values : List Bytes) : Option Bytes :=
  formatImpl fmt 0 values

/-- The loop of `split`, with the position at which the next part begins. -/
def splitFrom (str pattern : Bytes) : Nat → Nat → Option (List Bytes)
  | 0, _ => none
  | fuel + 1, start =>
      match find str pattern start with
      | none => some [str.drop start]
      | some stop =>
          (splitFrom str pattern fuel (stop + pattern.length)).map
            ((str.drop start).take (stop - start) :: ·)

/-- `StringUtil::split`. -/
def split (str pattern : Bytes) : Option (List Bytes) :=
  splitFrom str pattern (str.length + 1) 0

/-- A lower case hexadecimal digit. -/
def hexDigit (digit : UInt8) : UInt8 :=
  if digit < 10 then 48 + digit else 87 + digit

/-- How `jsonEscape` writes a byte. -/
def jsonEscapeByte (byte : UInt8) : Bytes :=
  if byte = 0x08 then bytes "\\b"
  else if byte = 0x09 then bytes "\\t"
  else if byte = 0x0a then bytes "\\n"
  else if byte = 0x0c then bytes "\\f"
  else if byte = 0x0d then bytes "\\r"
  else if byte < 0x20 then
    bytes "\\u00" ++ [hexDigit (byte / 16), hexDigit (byte % 16)]
  else if byte = 0x22 then bytes "\\\""
  else if byte = 0x5c then bytes "\\\\"
  else [byte]

/-- What `jsonEscape` writes for a string. -/
def escaped (string : Bytes) : Bytes :=
  string.flatMap jsonEscapeByte

/-- The loop of `jsonEscape` over the bytes from an index on, which is an `int`. A
negative one, as a `size_t`, is behind the end of every string. -/
def jsonEscapeLoop : Int → Bytes → Bytes → Bytes
  | _, [], newStr => newStr
  | i, byte :: string, newStr =>
      if i < 0 then newStr
      else jsonEscapeLoop (increment i) string (newStr ++ jsonEscapeByte byte)

/-- `StringUtil::jsonEscape`. -/
def jsonEscape (string : Bytes) : Bytes :=
  jsonEscapeLoop 0 string []

/-! ## Sizes in an `int` -/

theorem toInt_of_lt
    {size : Nat}
    (small : size < 2 ^ 31) :
    toInt size = size := by
  unfold toInt
  exact Int.bmod_eq_of_le (by omega) (by omega)

theorem toInt_add (size : Nat) :
    toInt (size + 2 ^ 32) = toInt size := by
  unfold toInt
  generalize 2 ^ 32 = modulus
  rw [Int.natCast_add, Int.add_bmod_right]

theorem increment_toInt (size : Nat) :
    increment (toInt size) = toInt (size + 1) := by
  unfold increment toInt
  generalize 2 ^ 32 = modulus
  rw [Int.bmod_add_bmod, Int.natCast_add, Int.natCast_one]

/-- From 2^31 on a size becomes a negative `int`. -/
theorem toInt_of_ge
    {size : Nat}
    (large : 2 ^ 31 ≤ size)
    (bound : size < 2 ^ 32) :
    toInt size = size - 2 ^ 32 := by
  have shifted (modulus : Nat) :
      (size : Int).bmod modulus = ((size : Int) - modulus).bmod modulus :=
    (Int.sub_bmod_right size modulus).symm
  have inside : ((size : Int) - (2 ^ 32 : Nat)).bmod (2 ^ 32) =
      (size : Int) - (2 ^ 32 : Nat) :=
    Int.bmod_eq_of_le (by omega) (by omega)
  unfold toInt
  rw [shifted, inside]
  omega

theorem toInt_mod (size : Nat) :
    toInt size = toInt (size % 2 ^ 32) := by
  unfold toInt
  generalize (2 ^ 32 : Nat) = modulus
  rw [Int.natCast_emod, Int.emod_bmod]

/-- It is at least 2^32 less than the size, then. -/
theorem toInt_le_of_ge
    {size : Nat}
    (large : 2 ^ 31 ≤ size) :
    toInt size ≤ size - 2 ^ 32 := by
  have rest : size % 2 ^ 32 < 2 ^ 32 := Nat.mod_lt _ (by decide)
  have whole := Nat.div_add_mod size (2 ^ 32)
  rw [toInt_mod]
  by_cases fits : size % 2 ^ 32 < 2 ^ 31
  · rw [toInt_of_lt fits]
    omega
  · rw [toInt_of_ge (Nat.le_of_not_lt fits) rest]
    omega

theorem ofInt_natCast
    {size : Nat}
    (bound : size < 2 ^ 64) :
    ofInt size = size := by
  unfold ofInt
  omega

/-- Through an `int` and back a size does not grow, unless it becomes huge. -/
theorem ofInt_toInt_le (size : Nat) :
    ofInt (toInt size) ≤ size ∨ 2 ^ 63 ≤ ofInt (toInt size) := by
  have rest : size % 2 ^ 32 < 2 ^ 32 := Nat.mod_lt _ (by decide)
  have wrapped := toInt_mod size
  have less : size % 2 ^ 32 ≤ size := Nat.mod_le _ _
  generalize size % 2 ^ 32 = small at *
  rw [wrapped]
  by_cases fits : small < 2 ^ 31
  · left
    rw [toInt_of_lt fits, ofInt_natCast (by omega)]
    exact less
  · right
    rw [toInt_of_ge (by omega) rest, ofInt]
    omega

/-! ## Searching -/

theorem findIn_add_length_le
    {pattern str : Bytes}
    {position : Nat}
    (found : findIn pattern str = some position) :
    position + pattern.length ≤ str.length := by
  induction str generalizing position with
  | nil =>
      unfold findIn at found
      split at found
      · cases found
        simp_all
      · cases found
  | cons byte rest inductionHypothesis =>
      unfold findIn at found
      split at found
      next isPrefix =>
        cases found
        have bound := (List.isPrefixOf_iff_prefix.mp isPrefix).length_le
        omega
      next =>
        obtain ⟨inRest, foundInRest, rfl⟩ := Option.map_eq_some_iff.mp found
        have bound := inductionHypothesis foundInRest
        simp only [List.length_cons]
        omega

/-- An occurrence lies behind the position from which it was searched, and ends
inside of the string. -/
theorem find_bounds
    {str pattern : Bytes}
    {start position : Nat}
    (found : find str pattern start = some position) :
    start ≤ position ∧ position + pattern.length ≤ str.length := by
  unfold find at found
  split at found
  · cases found
  next inside =>
    obtain ⟨offset, foundIn, rfl⟩ := Option.map_eq_some_iff.mp found
    have bound := findIn_add_length_le foundIn
    rw [List.length_drop] at bound
    omega

theorem findIn_isPrefix
    {pattern str : Bytes}
    {position : Nat}
    (found : findIn pattern str = some position) :
    pattern <+: str.drop position := by
  induction str generalizing position with
  | nil =>
      unfold findIn at found
      split at found
      next isEmpty =>
        rw [List.isEmpty_iff.mp isEmpty]
        exact List.nil_prefix
      next => cases found
  | cons byte rest inductionHypothesis =>
      unfold findIn at found
      split at found
      next isPrefix =>
        cases found
        exact List.isPrefixOf_iff_prefix.mp isPrefix
      next =>
        obtain ⟨inRest, foundInRest, rfl⟩ := Option.map_eq_some_iff.mp found
        exact inductionHypothesis foundInRest

/-- What is found lies at the position. -/
theorem find_isPrefix
    {str pattern : Bytes}
    {start position : Nat}
    (found : find str pattern start = some position) :
    pattern <+: str.drop position := by
  unfold find at found
  split at found
  · cases found
  next =>
    obtain ⟨offset, foundIn, rfl⟩ := Option.map_eq_some_iff.mp found
    have isPrefix := findIn_isPrefix foundIn
    rwa [List.drop_drop, Nat.add_comm] at isPrefix

/-- A byte that does not occur in a pattern is not in what is found. -/
theorem find_before_last
    {str pattern : Bytes}
    {last : UInt8}
    {start position : Nat}
    (absent : last ∉ pattern)
    (found : find (str ++ [last]) pattern start = some position) :
    pattern = [] ∨ position + pattern.length ≤ str.length := by
  have bound := (find_bounds found).2
  obtain ⟨behind, equal⟩ := find_isPrefix found
  rw [List.length_append, List.length_singleton] at bound
  by_cases inside : position + pattern.length ≤ str.length
  · exact .inr inside
  left
  by_contra nonempty
  have positive := List.length_pos_of_ne_nil nonempty
  have short : position ≤ str.length := by omega
  have lengths := congrArg List.length equal
  rw [List.drop_append_of_le_length short, List.length_append,
    List.length_append, List.length_drop, List.length_singleton] at lengths
  have noRest : behind = [] := List.length_eq_zero_iff.mp (by omega)
  rw [noRest, List.append_nil, List.drop_append_of_le_length short] at equal
  exact absent (equal ▸ List.mem_append_right _ (List.mem_singleton_self last))

/-- A pattern is not found where its first byte does not occur. -/
theorem findIn_append
    {first : UInt8}
    {pattern text : Bytes}
    (absent : first ∉ text)
    (rest : Bytes) :
    findIn (first :: pattern) (text ++ rest) =
      (findIn (first :: pattern) rest).map (· + text.length) := by
  induction text with
  | nil => simp
  | cons byte text inductionHypothesis =>
      rw [List.mem_cons, not_or] at absent
      have differs : (first == byte) = false := beq_eq_false_iff_ne.mpr absent.1
      rw [List.cons_append, findIn, inductionHypothesis absent.2]
      have absentHere : (first :: pattern).isPrefixOf
          (byte :: (text ++ rest)) = false := by
        rw [List.isPrefixOf_cons_cons, differs, Bool.false_and]
      rw [absentHere, Option.map_map]
      rfl

/-! ## Results of bounded size -/

theorem bytes_append (first second : String) :
    bytes (first ++ second) = bytes first ++ bytes second := by
  rw [bytes, String.toUTF8, String.toByteArray_append, ByteArray.data_append,
    Array.toList_append]
  rfl

theorem length_utf8EncodeChar_digit
    {digit : Char}
    (isDigit : digit.isDigit = true) :
    (String.utf8EncodeChar digit).length = 1 := by
  simp only [Char.isDigit, Bool.and_eq_true, decide_eq_true_eq] at isDigit
  rw [String.length_utf8EncodeChar, Char.utf8Size,
    if_pos (UInt32.le_trans isDigit.2 (by decide))]

theorem length_bytes_repr_le
    {number digits : Nat}
    (positive : 0 < digits)
    (less : number < 10 ^ digits) :
    (bytes number.repr).length ≤ digits := by
  have all : (Nat.toDigits 10 number).flatMap String.utf8EncodeChar =
      bytes number.repr := by
    rw [bytes, String.toUTF8, Nat.repr, String.toByteArray_ofList,
      List.utf8Encode, List.data_toByteArray]
  have one : ∀ digit ∈ Nat.toDigits 10 number,
      (String.utf8EncodeChar digit).length = 1 := fun digit member =>
    length_utf8EncodeChar_digit
      (Nat.isDigit_of_mem_toDigits (by decide) (by decide) member)
  rw [← all, List.length_flatMap, List.map_congr_left one, List.map_const',
    List.sum_replicate_nat, Nat.mul_one]
  exact (Nat.length_toDigits_le_iff (by decide) positive).mpr less

/-- An `int` has at most ten digits and a sign. -/
theorem length_ofInt32_le (value : Int32) : (ofInt32 value).length ≤ 11 := by
  have upper := Int32.toInt_lt value
  have lower := Int32.le_toInt value
  rw [ofInt32]
  generalize value.toInt = number at *
  cases number with
  | ofNat size =>
      apply Nat.le_succ_of_le
      apply length_bytes_repr_le (by decide)
      change (size : Int) < 2 ^ 31 at upper
      omega
  | negSucc size =>
      have digits : (bytes size.succ.repr).length ≤ 10 :=
        length_bytes_repr_le (by decide) (by omega)
      have sign : (bytes "-").length = 1 := by decide
      change (bytes ("-" ++ size.succ.repr)).length ≤ 11
      rw [bytes_append, List.length_append, sign]
      omega

/-! ## Results that keep their last byte -/

/-- Replacing keeps the last byte if it is not in the pattern. The bound on the
length is one of `std::string`. -/
theorem replaceLoop_concat
    {pattern replacement : Bytes}
    {last : UInt8}
    (absent : last ∉ pattern)
    (nonempty : pattern ≠ [])
    (fuel : Nat) :
    ∀ {cursor : Int} {str result : Bytes},
      str.length + 1 + fuel * replacement.length < 2 ^ 63 →
      replaceLoop pattern replacement fuel cursor (str ++ [last]) =
        some result →
      ∃ kept, result = kept ++ [last] ∧
        kept.length ≤ str.length + fuel * replacement.length := by
  induction fuel with
  | zero =>
      intro cursor str result _ returned
      cases returned
  | succ fuel inductionHypothesis =>
      intro cursor str result bounded returned
      rw [replaceLoop] at returned
      rw [Nat.succ_mul] at bounded ⊢
      split at returned
      next =>
        cases returned
        exact ⟨str, rfl, by omega⟩
      next position found =>
        have before := (find_before_last absent found).resolve_left nonempty
        dsimp only at returned
        split at returned
        next =>
          cases returned
          exact ⟨str, rfl, by omega⟩
        split at returned
        next => cases returned
        next noThrow =>
          rw [List.length_append, List.length_singleton] at noThrow
          have start := (ofInt_toInt_le position).resolve_right (by omega)
          rw [List.take_append_of_le_length (by omega),
            List.drop_append_of_le_length (by omega), ← List.append_assoc]
            at returned
          obtain ⟨kept, equal, length⟩ := inductionHypothesis (by
            simp only [List.length_append, List.length_take, List.length_drop]
            omega) returned
          refine ⟨kept, equal, ?_⟩
          simp only [List.length_append, List.length_take, List.length_drop]
            at length
          omega

/-- A format string with one placeholder keeps its last byte. -/
theorem format_concat
    {template value result : Bytes}
    {last : UInt8}
    (absent : last ∉ bytes "$0")
    (bounded : template.length + 1 + (template.length + 2) * value.length <
      2 ^ 63)
    (returned : format (template ++ [last]) [value] = some result) :
    ∃ kept, result = kept ++ [last] := by
  have pattern : bytes "$" ++ decimal 0 = bytes "$0" := by decide
  rw [format, formatImpl, pattern] at returned
  obtain ⟨replaced, first, rest⟩ := Option.bind_eq_some_iff.mp returned
  cases rest
  rw [replaceAll, if_neg (by simp), List.length_append,
    List.length_singleton] at first
  obtain ⟨kept, equal, -⟩ :=
    replaceLoop_concat absent (by decide) _ bounded first
  exact ⟨kept, equal⟩

theorem length_escaped_le (string : Bytes) :
    (escaped string).length ≤ 6 * string.length := by
  induction string with
  | nil => exact Nat.le_refl 0
  | cons byte rest inductionHypothesis =>
      have six : (jsonEscapeByte byte).length ≤ 6 := by
        unfold jsonEscapeByte
        repeat' split
        all_goals first | decide | exact Nat.le_of_ble_eq_true rfl
      rw [escaped, List.flatMap_cons, List.length_append, List.length_cons]
      rw [escaped] at inductionHypothesis
      omega

/-! ## Results that are not empty -/

/-- Putting in something that is not empty leaves nothing empty. -/
theorem replaceLoop_ne_nil
    {pattern replacement : Bytes}
    (nonempty : replacement ≠ [])
    (fuel : Nat) :
    ∀ {cursor : Int} {str result : Bytes}, str ≠ [] →
      replaceLoop pattern replacement fuel cursor str = some result →
      result ≠ [] := by
  induction fuel with
  | zero =>
      intro cursor str result _ returned
      cases returned
  | succ fuel inductionHypothesis =>
      intro cursor str result strNonempty returned
      unfold replaceLoop at returned
      split at returned
      · cases returned
        exact strNonempty
      · dsimp only at returned
        split at returned
        · cases returned
          exact strNonempty
        split at returned
        · cases returned
        · refine inductionHypothesis ?_ returned
          simp [nonempty]

theorem formatImpl_ne_nil
    {values : List Bytes}
    (nonempty : ∀ value ∈ values, value ≠ []) :
    ∀ {scratch result : Bytes} {argn : Nat}, scratch ≠ [] →
      formatImpl scratch argn values = some result → result ≠ [] := by
  induction values with
  | nil =>
      intro scratch result argn scratchNonempty returned
      cases returned
      exact scratchNonempty
  | cons value values inductionHypothesis =>
      intro scratch result argn scratchNonempty returned
      obtain ⟨replaced, first, rest⟩ := Option.bind_eq_some_iff.mp returned
      refine inductionHypothesis
        (fun other member => nonempty other (List.mem_cons_of_mem _ member))
        ?_ rest
      unfold replaceAll at first
      split at first
      · cases first
        exact scratchNonempty
      · exact replaceLoop_ne_nil (nonempty value (by simp)) _ scratchNonempty
          first

/-- Escaping drops no byte. -/
theorem jsonEscapeByte_ne_nil (byte : UInt8) : jsonEscapeByte byte ≠ [] := by
  unfold jsonEscapeByte
  repeat' split
  all_goals first | decide | simp

theorem escaped_ne_nil
    {string : Bytes}
    (nonempty : string ≠ []) :
    escaped string ≠ [] := by
  obtain ⟨first, rest, rfl⟩ := List.exists_cons_of_ne_nil nonempty
  intro empty
  rw [escaped, List.flatMap_cons, List.append_eq_nil_iff] at empty
  exact jsonEscapeByte_ne_nil first empty.1

/-! ## The index of `jsonEscape` -/

/-- From a position on the loop escapes what it gets to before its index becomes
negative. -/
theorem jsonEscapeLoop_eq
    {position : Nat}
    (inRange : position ≤ 2 ^ 31)
    (string newStr : Bytes) :
    jsonEscapeLoop (toInt position) string newStr =
      newStr ++ escaped (string.take (2 ^ 31 - position)) := by
  induction string generalizing position newStr with
  | nil => rw [jsonEscapeLoop, List.take_nil, escaped, List.flatMap_nil, List.append_nil]
  | cons byte string inductionHypothesis =>
      rw [jsonEscapeLoop]
      by_cases last : position = 2 ^ 31
      · have negative : toInt position < 0 := by
          rw [last, toInt_of_ge (by decide) (by decide)]
          decide
        rw [if_pos negative, last, Nat.sub_self, List.take_zero, escaped,
          List.flatMap_nil, List.append_nil]
      · have more : 2 ^ 31 - position = (2 ^ 31 - (position + 1)) + 1 := by omega
        rw [if_neg (by rw [toInt_of_lt (by omega)]; omega), increment_toInt,
          inductionHypothesis (by omega), more, List.take_succ_cons, escaped,
          escaped, List.flatMap_cons, List.append_assoc]

/-- The first 2^31 bytes of a string are escaped. -/
theorem jsonEscape_eq (string : Bytes) :
    jsonEscape string = escaped (string.take (2 ^ 31)) := by
  have looped := @jsonEscapeLoop_eq 0 (Nat.zero_le _) string []
  rwa [List.nil_append, Nat.sub_zero] at looped

theorem length_jsonEscape_le (string : Bytes) :
    (jsonEscape string).length ≤ 6 * 2 ^ 31 := by
  rw [jsonEscape_eq]
  exact (length_escaped_le _).trans
    (Nat.mul_le_mul_left 6 (List.length_take_le _ string))

theorem jsonEscape_ne_nil
    {string : Bytes}
    (nonempty : string ≠ []) : jsonEscape string ≠ [] := by
  rw [jsonEscape_eq]
  refine escaped_ne_nil fun empty => ?_
  rcases List.take_eq_nil_iff.mp empty with none | isEmpty
  · exact absurd none (by decide)
  · exact nonempty isEmpty

theorem jsonEscape_of_le
    {string : Bytes}
    (fits : string.length ≤ 2 ^ 31) : jsonEscape string = escaped string := by
  rw [jsonEscape_eq, List.take_of_length_le fits]

end StringUtil
end EvCollect
