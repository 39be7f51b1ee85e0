import EvCollect.Config.Progress

/-!
# Quoted values

A quoted value ends at its delimiter, unless its last character is a backslash:
the lexer then takes the delimiter for a part of the value, although values have
no escapes.
-/

namespace EvCollect
namespace Config
namespace ConfigLexer

variable {lexer : ConfigLexer}
variable {delim : UInt8}
variable {payload rest : Bytes}

/-- Quotation marks. -/
def isQuote (byte : UInt8) : Bool :=
  decide (byte = 0x22 ∨ byte = 0x27)

/-- From the opening quotation mark a call parses a string. -/
theorem nextToken_quote
    (quote : isQuote delim = true)
    (here : lexer.At (delim :: rest)) :
    lexer.nextToken =
      setToken { lexer with stringValue := [] }.parseString := by
  have marks := of_decide_eq_true quote
  have cleared := here.clear
  have facts : isSkipped delim = false ∧ delim ≠ 0x2f ∧ delim ≠ 0x23 ∧
      delim ≠ 0x0a ∧ delim ≠ 0x0d := by
    rcases marks with rfl | rfl <;> decide
  obtain ⟨stops, noSlash, noHash, noLineEnd⟩ := facts
  have spaced := consumeSpace_stop cleared stops (by tauto)
  rw [if_neg noSlash] at spaced
  rw [nextToken, spaced]
  dsimp only
  rw [if_neg (by decide), consumeEndOfLine_other cleared.1 noLineEnd,
    if_neg Bool.false_ne_true, parseToken, cleared.1]
  dsimp only
  rw [if_pos marks]

/-- The loop over a quoted value takes nothing back. -/
theorem takeQuoted_prefix (delim last : Option UInt8) (lexer : ConfigLexer) :
    lexer.stringValue <+: (lexer.takeQuoted delim last).stringValue := by
  fun_induction takeQuoted delim last lexer with
  | case1 => exact List.prefix_refl _
  | case2 _ lexer _ _ inductionHypothesis =>
      rw [stringValue_nextChar] at inductionHypothesis
      exact (List.prefix_append _ _).trans inductionHypothesis
  | case3 => exact List.prefix_refl _

theorem stringValue_parseString (lexer : ConfigLexer) :
    lexer.parseString.2.stringValue =
      (lexer.nextChar.takeQuoted lexer.currentChar none).stringValue := by
  rw [parseString]
  split
  · exact stringValue_nextChar _
  · rfl

/-- A backslash before the delimiter makes it a part of the value. -/
theorem parseString_backslash
    (absent : delim ∉ payload)
    (backslash : payload.getLast? = some 0x5c)
    (here : lexer.At (delim :: (payload ++ delim :: rest))) :
    lexer.stringValue ++ payload ++ [delim] <+:
      lexer.parseString.2.stringValue := by
  obtain ⟨after, taken, there, value⟩ :=
    takeQuoted_payload payload absent none here.nextChar
  have goesOn : after.takeQuoted (some delim) (some 0x5c) =
      after.pushChar.nextChar.takeQuoted (some delim) after.currentChar := by
    rw [takeQuoted, dif_neg (by simp [there.eof_cons]), if_pos (Or.inr rfl)]
  have pushed := takeQuoted_prefix (some delim) after.currentChar
    after.pushChar.nextChar
  rw [stringValue_nextChar, there.pushChar.2, value, stringValue_nextChar]
    at pushed
  rw [stringValue_parseString, here.1, taken, backslash, Option.some_or, goesOn]
  exact pushed

theorem nextToken_closed
    (quote : isQuote delim = true)
    (absent : delim ∉ payload)
    (noBackslash : payload.getLast? ≠ some 0x5c)
    (here : lexer.At (delim :: (payload ++ delim :: rest))) :
    lexer.nextToken.current = (.value, payload) ∧ lexer.nextToken.At rest := by
  obtain ⟨after, parsed, there, value⟩ :=
    parseString_closed absent noBackslash here.clear
  rw [nextToken_quote quote here, parsed]
  refine ⟨?_, there⟩
  rw [current, setToken, value]
  rfl

theorem nextToken_backslash
    (quote : isQuote delim = true)
    (absent : delim ∉ payload)
    (backslash : payload.getLast? = some 0x5c)
    (here : lexer.At (delim :: (payload ++ delim :: rest))) :
    payload ++ [delim] <+: lexer.nextToken.stringValue := by
  rw [nextToken_quote quote here]
  exact parseString_backslash absent backslash here.clear

/-- From the opening quotation mark the lexer reads a quoted value up to its
closing one, if and only if the value does not end with a backslash. -/
theorem nextToken_quoted_iff
    {lexer : ConfigLexer}
    {delim : UInt8}
    {payload rest : Bytes}
    (quote : isQuote delim = true)
    (absent : delim ∉ payload)
    (here : lexer.At (delim :: (payload ++ delim :: rest))) :
    (lexer.nextToken.current = (.value, payload) ∧
      lexer.nextToken.At rest) ↔ payload.getLast? ≠ some 0x5c := by
  constructor
  · rintro ⟨read, -⟩ backslash
    have longer := (nextToken_backslash quote absent backslash here).length_le
    have value : lexer.nextToken.stringValue = payload := congrArg Prod.snd read
    rw [value, List.length_append, List.length_singleton] at longer
    omega
  · exact fun noBackslash => nextToken_closed quote absent noBackslash here

theorem nextToken_quoted_iff_word :
    ((opened (bytes "<string>") (bytes "'/var/log/x' y")).nextToken.current =
        (.value, bytes "/var/log/x") ∧
      (opened (bytes "<string>") (bytes "'/var/log/x' y")).nextToken.At
        (bytes " y")) ↔
      (bytes "/var/log/x").getLast? ≠ some 0x5c :=
  @nextToken_quoted_iff _ 0x27 _ _ (by decide) (by decide) ⟨rfl, rfl, rfl⟩

/-- The value of one backslash does not end where it is closed. -/
theorem nextToken_one_backslash :
    ¬ ((opened (bytes "<string>") (bytes "\"\\\" x")).nextToken.current =
        (.value, bytes "\\") ∧
      (opened (bytes "<string>") (bytes "\"\\\" x")).nextToken.At
        (bytes " x")) := by
  rintro ⟨read, -⟩
  have here : (opened (bytes "<string>") (bytes "\"\\\" x")).At
      (0x22 :: (bytes "\\" ++ 0x22 :: bytes " x")) := ⟨rfl, rfl, rfl⟩
  have longer := (nextToken_backslash (by decide) (by decide) (by decide)
    here).length_le
  have value : (opened (bytes "<string>")
      (bytes "\"\\\" x")).nextToken.stringValue = bytes "\\" :=
    congrArg Prod.snd read
  rw [value] at longer
  revert longer
  decide

end ConfigLexer
end Config
end EvCollect
