import Mathlib.Logic.Function.Iterate
import EvCollect.Config.Lexer

/-!
# Lexing undoes printing

Tokens that are written one after another, with a single space between
neighbours, are what the lexer returns for that text. The proof follows what the
lexer has not read yet, the current character included.
-/

namespace EvCollect
namespace Config

/-! ## Printed tokens -/

inductive LineEnd
  | lf
  | crLf
  deriving DecidableEq, Repr

def LineEnd.text : LineEnd → Bytes
  | lf => [0x0a]
  | crLf => [0x0d, 0x0a]

/-- A letter, and characters that names go on with. -/
def isName : Bytes → Bool
  | [] => false
  | first :: rest => isAlpha first && rest.all isWord

/-- A digit, and characters that values go on with. -/
def isNumeral : Bytes → Bool
  | [] => false
  | first :: rest => isDigit first && rest.all isWord

/-- A payload that ends where its delimiter comes, and does not begin a
comment. -/
def isQuotable (delim : UInt8) (payload : Bytes) : Bool :=
  decide ((delim = 0x22 ∨ delim = 0x27 ∨ delim = 0x2f) ∧ delim ∉ payload ∧
    payload.getLast? ≠ some 0x5c ∧
      (delim = 0x2f → payload.head? ≠ some 0x2a))

/-- A token with the text that it is written as. -/
inductive Printed
  | word (text : Bytes) (isName : isName text = true)
  | numeral (text : Bytes) (isNumeral : isNumeral text = true)
  | quoted (delim : UInt8) (payload : Bytes)
      (isQuotable : isQuotable delim payload = true)
  | lineEnds (first : LineEnd) (more : List LineEnd)

namespace Printed

def text : Printed → Bytes
  | word text _ => text
  | numeral text _ => text
  | quoted delim payload _ => delim :: (payload ++ [delim])
  | lineEnds first more => (first :: more).flatMap LineEnd.text

/-- The kind of the token, and its string value. -/
def token : Printed → ConfigToken × Bytes
  | word text _ => ((ConfigLexer.keyword text).getD .name, text)
  | numeral text _ => (.value, text)
  | quoted _ payload _ => (.value, payload)
  | lineEnds _ _ => (.end, bytes "LF")

end Printed

/-- Tokens with a single space between neighbours. -/
def print (tokens : List Printed) : Bytes :=
  [0x20].intercalate (tokens.map Printed.text)

/-- What is written behind a token. -/
def behind : List Printed → Bytes
  | [] => []
  | tokens => 0x20 :: print tokens

theorem print_cons (token : Printed) (tokens : List Printed) :
    print (token :: tokens) = token.text ++ behind tokens := by
  cases tokens with
  | nil => simp [print, behind, List.intercalate]
  | cons next rest => simp [print, behind, List.intercalate]

namespace ConfigLexer

/-- The token that the lexer has read last. -/
def current (lexer : ConfigLexer) : ConfigToken × Bytes :=
  (lexer.currentToken, lexer.stringValue)

/-- What the lexer has not read yet, the current character included. -/
def At (lexer : ConfigLexer) : Bytes → Prop
  | [] => lexer.currentChar = none
  | byte :: rest =>
      lexer.currentChar = some byte ∧ lexer.rest = rest ∧ lexer.ended = false

variable {lexer : ConfigLexer}
variable {byte : UInt8}
variable {text rest : Bytes}

/-! ## Characters -/

theorem At.eof_nil (here : lexer.At []) : lexer.eof = true := by
  rw [eof, show lexer.currentChar = none from here]
  rfl

theorem At.eof_cons (here : lexer.At (byte :: text)) : lexer.eof = false := by
  rw [eof, here.1, here.2.2]
  rfl

theorem At.nextChar (here : lexer.At (byte :: text)) :
    lexer.nextChar.At text := by
  obtain ⟨current, input, ended⟩ := here
  rw [ConfigLexer.nextChar, current]
  cases text with
  | nil =>
      rw [input]
      rfl
  | cons next rest =>
      rw [input]
      dsimp only
      split
      · exact ⟨rfl, rfl, ended⟩
      · exact ⟨rfl, rfl, ended⟩

@[simp] theorem stringValue_nextChar (lexer : ConfigLexer) :
    lexer.nextChar.stringValue = lexer.stringValue := by
  unfold nextChar
  repeat' split
  all_goals rfl

theorem At.pushChar (here : lexer.At (byte :: text)) :
    lexer.pushChar.At (byte :: text) ∧
      lexer.pushChar.stringValue = lexer.stringValue ++ [byte] := by
  refine ⟨here, ?_⟩
  rw [ConfigLexer.pushChar, here.1]
  rfl

/-- A peek does not see the end of the input unless it is there. -/
theorem At.peekChar (here : lexer.At (byte :: text)) (more : text ≠ []) :
    lexer.peekChar.2.At (byte :: text) := by
  refine ⟨here.1, here.2.1, ?_⟩
  rw [ConfigLexer.peekChar, here.2.1, here.2.2]
  simpa using more

theorem At.peekChar_fst (here : lexer.At (byte :: text)) :
    lexer.peekChar.1 = text.head? := by
  rw [ConfigLexer.peekChar, here.2.1]

/-! ## White space -/

/-- Characters that `consumeSpace` skips. -/
def isSkipped (byte : UInt8) : Bool :=
  decide (byte ≠ 0x0d ∧ byte ≠ 0x0a) && (isSpace byte || !isPrint byte)

/-- Characters that a printed token begins with: line ends, or printable ones
that do not begin a comment of one line. -/
def isFirst (byte : UInt8) : Bool :=
  decide (byte = 0x0d ∨ byte = 0x0a) ||
    isPrint byte && !isSpace byte && byte != 0x23

theorem skipSpaces_skipped
    (here : lexer.At (byte :: text))
    (skipped : isSkipped byte = true) :
    lexer.skipSpaces = lexer.nextChar.skipSpaces := by
  rw [isSkipped, Bool.and_eq_true, decide_eq_true_iff] at skipped
  obtain ⟨noLineEnd, skipped⟩ := skipped
  rw [skipSpaces, dif_neg (by simp [here.eof_cons])]
  split
  next current => rw [here.1] at current; cases current
  next other current =>
    rw [here.1] at current
    cases current
    rw [if_neg (by tauto)]
    split
    · rfl
    next noSpace =>
      rw [if_neg]
      simpa [noSpace] using skipped

theorem skipSpaces_stop
    (here : lexer.At (byte :: text))
    (stops : isSkipped byte = false) :
    lexer.skipSpaces = lexer := by
  rw [isSkipped, Bool.and_eq_false_iff, decide_eq_false_iff_not,
    Bool.or_eq_false_iff, Bool.not_eq_false'] at stops
  rw [skipSpaces, dif_neg (by simp [here.eof_cons])]
  split
  next => rfl
  next other current =>
    rw [here.1] at current
    cases current
    split
    · rfl
    next noLineEnd =>
      obtain ⟨noSpace, printable⟩ := stops.resolve_left (by tauto)
      rw [if_neg (by simp [noSpace]), if_pos printable]

theorem isSkipped_of_isFirst (first : isFirst byte = true) :
    isSkipped byte = false := by
  rw [isSkipped, Bool.and_eq_false_iff, decide_eq_false_iff_not,
    Bool.or_eq_false_iff, Bool.not_eq_false']
  rw [isFirst, Bool.or_eq_true, decide_eq_true_iff, Bool.and_eq_true,
    Bool.and_eq_true, Bool.not_eq_true'] at first
  rcases first with isLineEnd | printable
  · exact .inl (by tauto)
  · exact .inr ⟨printable.1.2, printable.1.1⟩

theorem skipSpaces_first
    (here : lexer.At (byte :: text))
    (first : isFirst byte = true) :
    lexer.skipSpaces = lexer :=
  skipSpaces_stop here (isSkipped_of_isFirst first)

theorem skipSpaces_nil (here : lexer.At []) : lexer.skipSpaces = lexer := by
  rw [skipSpaces, dif_pos here.eof_nil]

/-- Nothing but a separator is left. -/
theorem consumeSpace_nil
    (here : lexer.At []) :
    lexer.consumeSpace = (false, lexer) := by
  rw [consumeSpace, skipSpaces_nil here, dif_pos here.eof_nil]

theorem consumeSpace_last
    (here : lexer.At [byte])
    (skipped : isSkipped byte = true) :
    lexer.consumeSpace = (false, lexer.nextChar) := by
  have next := here.nextChar
  rw [consumeSpace, skipSpaces_skipped here skipped, skipSpaces_nil next,
    dif_pos next.eof_nil]

/-- A separator is skipped up to the first character of a token. -/
theorem consumeSpace_token
    {separator : UInt8}
    (here : lexer.At (separator :: byte :: text))
    (skipped : isSkipped separator = true)
    (first : isFirst byte = true)
    (noComment : byte = 0x2f → ∃ next, text.head? = some next ∧ next ≠ 0x2a) :
    ∃ after, lexer.consumeSpace = (true, after) ∧ after.At (byte :: text) ∧
      after.stringValue = lexer.stringValue := by
  have next := here.nextChar
  have noHash : byte ≠ 0x23 := by
    rintro rfl
    cases first
  rw [consumeSpace, skipSpaces_skipped here skipped,
    skipSpaces_first next first, dif_neg (by simp [next.eof_cons])]
  dsimp only
  rw [next.1]
  split
  · exact ⟨_, rfl, next, stringValue_nextChar lexer⟩
  rw [if_neg (by simpa using noHash)]
  split
  next isSlash =>
    cases isSlash
    obtain ⟨other, head, differs⟩ := noComment rfl
    rw [next.peekChar_fst, head, if_neg (by simpa using differs)]
    have more : text ≠ [] := by
      rintro rfl
      cases head
    exact ⟨_, rfl, next.peekChar more, stringValue_nextChar lexer⟩
  · exact ⟨_, rfl, next, stringValue_nextChar lexer⟩

/-! ## Words -/

/-- A text that does not go on with a word. -/
def Parts (text : Bytes) : Prop :=
  ∀ byte ∈ text.head?, isWord byte = false

theorem takeWord_append
    (word : Bytes)
    (isWord : word.all isWord = true)
    (parts : Parts rest)
    (here : lexer.At (word ++ rest)) :
    lexer.takeWord.At rest ∧
      lexer.takeWord.stringValue = lexer.stringValue ++ word := by
  induction word generalizing lexer with
  | nil =>
      rw [List.nil_append] at here
      have stops : lexer.takeWord = lexer := by
        rw [takeWord]
        split
        next => rfl
        next byte current =>
          cases rest with
          | nil =>
              rw [show lexer.currentChar = none from here] at current
              cases current
          | cons next more =>
              rw [here.1] at current
              cases current
              rw [if_neg (by simpa using parts _ rfl)]
      rw [stops, List.append_nil]
      exact ⟨here, rfl⟩
  | cons byte word inductionHypothesis =>
      rw [List.all_cons, Bool.and_eq_true] at isWord
      obtain ⟨pushed, appended⟩ := here.pushChar
      obtain ⟨after, value⟩ := inductionHypothesis isWord.2 pushed.nextChar
      have goesOn : lexer.takeWord = lexer.pushChar.nextChar.takeWord := by
        rw [takeWord]
        split
        next current => rw [here.1] at current; cases current
        next other current =>
          rw [here.1] at current
          cases current
          rw [if_pos isWord.1]
      rw [goesOn]
      refine ⟨after, ?_⟩
      rw [value, stringValue_nextChar, appended, List.append_assoc]
      rfl

/-- `parseName` and `parseValue` read a character and what goes on with it. -/
theorem pushChar_takeWord
    {first : UInt8}
    {word : Bytes}
    (isWord : word.all isWord = true)
    (parts : Parts rest)
    (here : lexer.At (first :: word ++ rest)) :
    lexer.pushChar.nextChar.takeWord.At rest ∧
      lexer.pushChar.nextChar.takeWord.stringValue =
        lexer.stringValue ++ first :: word := by
  obtain ⟨pushed, appended⟩ := here.pushChar
  obtain ⟨after, value⟩ := takeWord_append word isWord parts pushed.nextChar
  refine ⟨after, ?_⟩
  rw [value, stringValue_nextChar, appended, List.append_assoc]
  rfl

/-! ## Quoted values -/

/-- Up to the delimiter everything is taken, and the last byte is kept. -/
theorem takeQuoted_payload
    {delim : UInt8}
    (payload : Bytes)
    (absent : delim ∉ payload)
    (last : Option UInt8)
    (here : lexer.At (payload ++ rest)) :
    ∃ after : ConfigLexer,
      lexer.takeQuoted (some delim) last =
        after.takeQuoted (some delim) (payload.getLast?.or last) ∧
      after.At rest ∧ after.stringValue = lexer.stringValue ++ payload := by
  induction payload generalizing lexer last with
  | nil => exact ⟨lexer, rfl, here, (List.append_nil _).symm⟩
  | cons byte payload inductionHypothesis =>
      rw [List.mem_cons, not_or] at absent
      obtain ⟨pushed, appended⟩ := here.pushChar
      obtain ⟨after, taken, there, value⟩ := inductionHypothesis absent.2
        (some byte) pushed.nextChar
      have goesOn : lexer.takeQuoted (some delim) last =
          lexer.pushChar.nextChar.takeQuoted (some delim) (some byte) := by
        have differs : some byte ≠ some delim :=
          fun equal => absent.1 (Option.some.inj equal).symm
        rw [takeQuoted, dif_neg (by simp [here.eof_cons]), here.1,
          if_pos (Or.inl differs)]
      refine ⟨after, ?_, there, ?_⟩
      · rw [goesOn, taken, List.getLast?_cons]
        cases payload.getLast? <;> rfl
      · rw [value, stringValue_nextChar, appended, List.append_assoc]
        rfl

theorem takeQuoted_append
    {delim : UInt8}
    (payload : Bytes)
    (absent : delim ∉ payload)
    (last : Option UInt8)
    (noBackslash : payload.getLast?.or last ≠ some 0x5c)
    (here : lexer.At (payload ++ delim :: rest)) :
    (lexer.takeQuoted (some delim) last).At (delim :: rest) ∧
      (lexer.takeQuoted (some delim) last).stringValue =
        lexer.stringValue ++ payload := by
  obtain ⟨after, taken, there, value⟩ :=
    takeQuoted_payload payload absent last here
  have stops : after.takeQuoted (some delim) (payload.getLast?.or last) =
      after := by
    rw [takeQuoted, dif_neg (by simp [there.eof_cons]), there.1, if_neg]
    simpa using noBackslash
  rw [taken, stops]
  exact ⟨there, value⟩

/-- A value ends at its delimiter, if no backslash comes before it. -/
theorem parseString_closed
    {delim : UInt8}
    {payload : Bytes}
    (absent : delim ∉ payload)
    (noBackslash : payload.getLast? ≠ some 0x5c)
    (here : lexer.At (delim :: (payload ++ delim :: rest))) :
    ∃ after : ConfigLexer, lexer.parseString = (.value, after) ∧
      after.At rest ∧ after.stringValue = lexer.stringValue ++ payload := by
  obtain ⟨closing, value⟩ := takeQuoted_append payload absent none
    (by simpa using noBackslash) here.nextChar
  refine ⟨_, ?_, closing.nextChar, ?_⟩
  · rw [parseString, here.1, closing.1, if_pos rfl]
  · rw [stringValue_nextChar, value, stringValue_nextChar]

/-! ## Line ends -/

/-- A text that does not begin with a line end. -/
def NoLineEnd (text : Bytes) : Prop :=
  ∀ byte ∈ text.head?, byte ≠ 0x0a ∧ byte ≠ 0x0d

theorem skipLineEnds_stop
    (noLineEnd : NoLineEnd rest)
    (found : Bool)
    (here : lexer.At rest) :
    lexer.skipLineEnds found = (found, lexer) := by
  rw [skipLineEnds]
  cases rest with
  | nil => rw [dif_pos here.eof_nil]
  | cons byte rest =>
      obtain ⟨noLf, noCr⟩ := noLineEnd byte rfl
      rw [dif_neg (by simp [here.eof_cons]), here.1,
        if_neg (by simpa using noLf), if_neg (by simpa using noCr)]

theorem skipLineEnds_append
    (ends : List LineEnd)
    (noLineEnd : NoLineEnd rest)
    (found : Bool)
    (here : lexer.At (ends.flatMap LineEnd.text ++ rest)) :
    ∃ after, lexer.skipLineEnds found = (found || !ends.isEmpty, after) ∧
      after.At rest ∧ after.stringValue = lexer.stringValue := by
  induction ends generalizing lexer found with
  | nil =>
      refine ⟨lexer, ?_, here, rfl⟩
      rw [skipLineEnds_stop noLineEnd found here]
      simp
  | cons first ends inductionHypothesis =>
      rw [skipLineEnds]
      cases first with
      | lf =>
          have char : lexer.At (0x0a :: (ends.flatMap LineEnd.text ++ rest)) :=
            here
          obtain ⟨after, skipped, there, value⟩ :=
            inductionHypothesis true char.nextChar
          refine ⟨after, ?_, there, value.trans (stringValue_nextChar lexer)⟩
          rw [dif_neg (by simp [char.eof_cons]), char.1, if_pos rfl, skipped]
          simp
      | crLf =>
          have char : lexer.At
              (0x0d :: 0x0a :: (ends.flatMap LineEnd.text ++ rest)) := here
          have peeked := char.peekChar (List.cons_ne_nil _ _)
          obtain ⟨after, skipped, there, value⟩ :=
            inductionHypothesis true peeked.nextChar.nextChar
          refine ⟨after, ?_, there, ?_⟩
          · rw [dif_neg (by simp [char.eof_cons]), char.1,
              if_neg (by decide), if_pos rfl, char.peekChar_fst,
              List.head?_cons, if_pos rfl, skipped]
            simp
          · rw [value, stringValue_nextChar, stringValue_nextChar]
            rfl

/-! ## Tokens -/

theorem parts_behind (tokens : List Printed) : Parts (behind tokens) := by
  cases tokens with
  | nil => intro byte present; cases present
  | cons => intro byte present; cases present; decide

theorem noLineEnd_behind (tokens : List Printed) :
    NoLineEnd (behind tokens) := by
  cases tokens with
  | nil => intro byte present; cases present
  | cons => intro byte present; cases present; decide

theorem At.clear (here : lexer.At text) :
    ({ lexer with stringValue := [] } : ConfigLexer).At text := by
  cases text with
  | nil => exact here
  | cons byte rest => exact here

/-- Behind a separator the lexer parses a token, unless a line end or a comment
comes first. -/
theorem nextToken_first
    {separator : UInt8}
    (skipped : isSkipped separator = true)
    (first : isFirst byte = true)
    (noLineEnd : byte ≠ 0x0a ∧ byte ≠ 0x0d)
    (noComment : byte = 0x2f → ∃ next, text.head? = some next ∧ next ≠ 0x2a)
    (here : lexer.At (separator :: byte :: text)) :
    ∃ after : ConfigLexer, lexer.nextToken = setToken after.parseToken ∧
      after.At (byte :: text) ∧ after.stringValue = [] := by
  obtain ⟨after, spaced, there, value⟩ :=
    consumeSpace_token here.clear skipped first noComment
  have noLines : after.consumeEndOfLine = (false, after) := by
    have stops : NoLineEnd (byte :: text) := by
      intro other present
      cases present
      exact noLineEnd
    rw [consumeEndOfLine, skipLineEnds_stop stops false there]
    rfl
  refine ⟨after, ?_, there, value⟩
  rw [nextToken, spaced]
  dsimp only
  rw [if_neg (by decide), noLines]
  rfl

/-- Characters between the slash and the end of the printable ones begin no line
end, no comment and no quoted value. -/
theorem isFirst_of_range
    {low high : UInt8}
    (inside : low ≤ byte ∧ byte ≤ high)
    (above : 0x2f < low)
    (below : high ≤ 0x7e) :
    isFirst byte = true ∧ ¬ (byte = 0x22 ∨ byte = 0x27) ∧ byte ≠ 0x2f ∧
      byte ≠ 0x0a ∧ byte ≠ 0x0d := by
  simp only [isFirst, isPrint, isSpace, UInt8.le_iff_toNat_le,
    UInt8.lt_iff_toNat_lt, UInt8.reduceToNat, ← UInt8.toNat_inj, bne_iff_ne,
    Bool.or_eq_true, Bool.and_eq_true, decide_eq_true_eq, Bool.not_eq_true',
    decide_eq_false_iff_not, ne_eq] at *
  omega

theorem isFirst_of_isAlpha
    (alpha : isAlpha byte = true) :
    isFirst byte = true ∧ ¬ (byte = 0x22 ∨ byte = 0x27) ∧ byte ≠ 0x2f ∧
      byte ≠ 0x0a ∧ byte ≠ 0x0d := by
  rcases of_decide_eq_true alpha with upper | lower
  · exact isFirst_of_range upper (by decide) (by decide)
  · exact isFirst_of_range lower (by decide) (by decide)

theorem isFirst_of_isDigit
    (digit : isDigit byte = true) :
    isFirst byte = true ∧ ¬ (byte = 0x22 ∨ byte = 0x27) ∧ byte ≠ 0x2f ∧
      byte ≠ 0x0a ∧ byte ≠ 0x0d :=
  isFirst_of_range (of_decide_eq_true digit) (by decide) (by decide)

theorem not_isAlpha_of_isDigit
    (digit : isDigit byte = true) :
    isAlpha byte = false := by
  have inside := of_decide_eq_true digit
  rw [isAlpha, decide_eq_false_iff_not]
  simp only [UInt8.le_iff_toNat_le, UInt8.reduceToNat] at *
  omega

/-- What the lexer makes of a separator and a printed token. -/
structure Reads (lexer : ConfigLexer) (token : Printed) (rest : Bytes) :
    Prop where
  current : lexer.nextToken.current = token.token
  rest : lexer.nextToken.At rest

theorem reads_word
    {separator first : UInt8}
    {word : Bytes}
    (isName : isName (first :: word) = true)
    (skipped : isSkipped separator = true)
    (parts : Parts rest)
    (here : lexer.At (separator :: (first :: word ++ rest))) :
    Reads lexer (.word (first :: word) isName) rest := by
  have facts := isName
  rw [Config.isName, Bool.and_eq_true] at facts
  obtain ⟨isFirst, noQuote, noSlash, noLineEnd⟩ := isFirst_of_isAlpha facts.1
  obtain ⟨after, next, there, value⟩ := nextToken_first skipped isFirst
    noLineEnd (fun isSlash => absurd isSlash noSlash) here
  obtain ⟨read, word⟩ := pushChar_takeWord facts.2 parts there
  have parsed : after.parseToken = after.parseName := by
    rw [parseToken, there.1]
    dsimp only
    rw [if_neg noQuote, if_neg noSlash, if_pos facts.1]
  rw [value, List.nil_append] at word
  refine ⟨?_, ?_⟩
  · rw [next, parsed, parseName, current, setToken, word]
    rfl
  · rw [next, parsed]
    exact read

theorem reads_numeral
    {separator first : UInt8}
    {word : Bytes}
    (isNumeral : isNumeral (first :: word) = true)
    (skipped : isSkipped separator = true)
    (parts : Parts rest)
    (here : lexer.At (separator :: (first :: word ++ rest))) :
    Reads lexer (.numeral (first :: word) isNumeral) rest := by
  have facts := isNumeral
  rw [Config.isNumeral, Bool.and_eq_true] at facts
  obtain ⟨isFirst, noQuote, noSlash, noLineEnd⟩ := isFirst_of_isDigit facts.1
  obtain ⟨after, next, there, value⟩ := nextToken_first skipped isFirst
    noLineEnd (fun isSlash => absurd isSlash noSlash) here
  obtain ⟨read, word⟩ := pushChar_takeWord facts.2 parts there
  have parsed : after.parseToken = after.parseValue := by
    rw [parseToken, there.1]
    dsimp only
    rw [if_neg noQuote, if_neg noSlash,
      if_neg (by simp [not_isAlpha_of_isDigit facts.1]), if_pos facts.1]
  rw [value, List.nil_append] at word
  refine ⟨?_, ?_⟩
  · rw [next, parsed, parseValue, current, setToken, word]
    rfl
  · rw [next, parsed]
    exact read

theorem reads_quoted
    {separator delim : UInt8}
    {payload : Bytes}
    (isQuotable : isQuotable delim payload = true)
    (skipped : isSkipped separator = true)
    (here : lexer.At
      (separator :: (delim :: (payload ++ [delim]) ++ rest))) :
    Reads lexer (.quoted delim payload isQuotable) rest := by
  obtain ⟨isDelim, absent, noBackslash, noComment⟩ :=
    of_decide_eq_true isQuotable
  rw [List.cons_append, List.append_assoc] at here
  have isFirst : isFirst delim = true := by
    rcases isDelim with rfl | rfl | rfl <;> rfl
  have noLineEnd : delim ≠ 0x0a ∧ delim ≠ 0x0d := by
    rcases isDelim with rfl | rfl | rfl <;> decide
  obtain ⟨after, next, there, value⟩ := nextToken_first skipped isFirst
    noLineEnd (fun isSlash => by
      cases payload with
      | nil => exact ⟨delim, rfl, by rw [isSlash]; decide⟩
      | cons first payload =>
          refine ⟨first, rfl, fun isStar => noComment isSlash ?_⟩
          rw [isStar]
          rfl) here
  have parsed : after.parseToken = after.parseString := by
    rw [parseToken, there.1]
    dsimp only
    rcases isDelim with rfl | rfl | rfl <;> rfl
  obtain ⟨closed, string, there, payloadValue⟩ :=
    parseString_closed absent noBackslash there
  rw [value, List.nil_append] at payloadValue
  refine ⟨?_, ?_⟩
  · rw [next, parsed, string, current, setToken, payloadValue]
    rfl
  · rw [next, parsed, string]
    exact there

theorem reads_lineEnds
    {separator : UInt8}
    (first : LineEnd)
    (more : List LineEnd)
    (skipped : isSkipped separator = true)
    (noLineEnd : NoLineEnd rest)
    (here : lexer.At
      (separator :: ((first :: more).flatMap LineEnd.text ++ rest))) :
    Reads lexer (.lineEnds first more) rest := by
  obtain ⟨byte, others, split, isLineEnd⟩ : ∃ byte others,
      (first :: more).flatMap LineEnd.text ++ rest = byte :: others ∧
        (byte = 0x0d ∨ byte = 0x0a) := by
    cases first with
    | lf => exact ⟨_, _, rfl, .inr rfl⟩
    | crLf => exact ⟨_, _, rfl, .inl rfl⟩
  rw [split] at here
  have isFirst : isFirst byte = true := by
    rcases isLineEnd with rfl | rfl <;> rfl
  obtain ⟨after, spaced, there, value⟩ := consumeSpace_token here.clear skipped
    isFirst (fun isSlash => by rcases isLineEnd with rfl | rfl <;> cases isSlash)
  rw [← split] at there
  obtain ⟨behind, lines, there, kept⟩ :=
    skipLineEnds_append (first :: more) noLineEnd false there
  have next : lexer.nextToken = setToken (.end,
      { behind with stringValue := behind.stringValue ++ bytes "LF" }) := by
    rw [nextToken, spaced]
    dsimp only
    rw [if_neg (by decide), consumeEndOfLine, lines]
    rfl
  refine ⟨?_, ?_⟩
  · rw [next, current, setToken]
    dsimp only
    rw [kept, value]
    rfl
  · rw [next]
    cases rest with
    | nil => exact there
    | cons => exact there

/-- The lexer reads a printed token behind a separator. -/
theorem reads_token
    {separator : UInt8}
    (token : Printed)
    (tokens : List Printed)
    (skipped : isSkipped separator = true)
    (here : lexer.At (separator :: print (token :: tokens))) :
    Reads lexer token (behind tokens) := by
  rw [print_cons] at here
  cases token with
  | word text isName =>
      cases text with
      | nil => cases isName
      | cons => exact reads_word isName skipped (parts_behind tokens) here
  | numeral text isNumeral =>
      cases text with
      | nil => cases isNumeral
      | cons => exact reads_numeral isNumeral skipped (parts_behind tokens) here
  | quoted => exact reads_quoted _ skipped here
  | lineEnds =>
      exact reads_lineEnds _ _ skipped (noLineEnd_behind tokens) here

/-- Behind the last token there is nothing but the end of the input. -/
theorem nextToken_nil (here : lexer.At []) :
    lexer.nextToken.current = (.eof, []) ∧ lexer.nextToken.At [] := by
  rw [nextToken, consumeSpace_nil here.clear]
  exact ⟨rfl, here⟩

theorem nextToken_last
    (here : lexer.At [byte])
    (skipped : isSkipped byte = true) :
    lexer.nextToken.current = (.eof, []) ∧ lexer.nextToken.At [] := by
  rw [nextToken, consumeSpace_last here.clear skipped]
  refine ⟨?_, here.clear.nextChar⟩
  change (ConfigToken.eof, (ConfigLexer.nextChar _).stringValue) = _
  rw [stringValue_nextChar]

/-- Behind a token the lexer returns the tokens that were written there, and then
the end of the input for ever. -/
theorem iterate_nextToken
    (tokens : List Printed)
    (here : lexer.At (behind tokens))
    (count : Nat) :
    (nextToken^[count] lexer.nextToken).current =
      (tokens.map Printed.token)[count]?.getD (.eof, []) := by
  induction count generalizing lexer tokens with
  | zero =>
      cases tokens with
      | nil => exact (nextToken_nil here).1
      | cons token tokens => exact (reads_token token tokens rfl here).current
  | succ count inductionHypothesis =>
      rw [Function.iterate_succ_apply]
      cases tokens with
      | nil => exact inductionHypothesis [] (nextToken_nil here).2
      | cons token tokens =>
          exact inductionHypothesis tokens (reads_token token tokens rfl here).rest

end ConfigLexer

/-- A lexer on printed tokens returns exactly these tokens, and then the end of
the input for ever. -/
theorem lexer_print
    (label : Bytes)
    (tokens : List Printed)
    (count : Nat) :
    (ConfigLexer.nextToken^[count]
        (ConfigLexer.create label (print tokens))).current =
      (tokens.map Printed.token)[count]?.getD (.eof, []) := by
  have start : ({ label := label, rest := print tokens } : ConfigLexer).At
      (0 :: print tokens) := ⟨rfl, rfl, rfl⟩
  unfold ConfigLexer.create
  cases tokens with
  | nil =>
      obtain ⟨isEof, there⟩ := ConfigLexer.nextToken_last start rfl
      cases count with
      | zero => exact isEof
      | succ count =>
          rw [Function.iterate_succ_apply]
          exact ConfigLexer.iterate_nextToken [] there count
  | cons token tokens =>
      have read := ConfigLexer.reads_token token tokens rfl start
      cases count with
      | zero => exact read.current
      | succ count =>
          rw [Function.iterate_succ_apply]
          exact ConfigLexer.iterate_nextToken tokens read.rest count

end Config
end EvCollect
