import EvCollect.Util.StringUtil

/-!
# The lexer of configuration files

`ConfigLexer` over the bytes of a file. The current character is `none` at the
end of the input, and the stream has an end-of-file flag of its own, which a peek
sets as well as a read. A loop of the lexer reads a character in every pass, and
so it ends.
-/

namespace EvCollect
namespace Config

inductive ConfigToken
  | unknown
  | eof
  | end
  | name
  | value
  | event
  | source
  | output
  | plugin
  deriving DecidableEq, Repr

/-! ## Classes of characters, in the locale "C" -/

def isAlpha (byte : UInt8) : Bool :=
  decide (0x41 ≤ byte ∧ byte ≤ 0x5a ∨ 0x61 ≤ byte ∧ byte ≤ 0x7a)

def isDigit (byte : UInt8) : Bool :=
  decide (0x30 ≤ byte ∧ byte ≤ 0x39)

def isSpace (byte : UInt8) : Bool :=
  decide (byte = 0x20 ∨ 0x09 ≤ byte ∧ byte ≤ 0x0d)

def isPrint (byte : UInt8) : Bool :=
  decide (0x20 ≤ byte ∧ byte ≤ 0x7e)

/-- The characters that names and values go on with. -/
def isWord (byte : UInt8) : Bool :=
  isAlpha byte || isDigit byte || byte == 0x5f || byte == 0x2e || byte == 0x3a

structure ConfigLexer where
  label : Bytes
  /-- What `input_` has not given out yet. -/
  rest : Bytes
  /-- The end-of-file flag of `input_`. -/
  ended : Bool := false
  currentToken : ConfigToken := .unknown
  currentLineNr : Int32 := 1
  currentColumn : Int32 := 0
  currentChar : Option UInt8 := some 0
  stringValue : Bytes := []
  deriving DecidableEq, Repr

namespace ConfigLexer

/-! ## Characters -/

def peekChar (lexer : ConfigLexer) : Option UInt8 × ConfigLexer :=
  (lexer.rest.head?, { lexer with ended := lexer.ended || lexer.rest.isEmpty })

def eof (lexer : ConfigLexer) : Bool :=
  lexer.currentChar.isNone || lexer.ended

def nextChar (lexer : ConfigLexer) : ConfigLexer :=
  match lexer.currentChar with
  | none => lexer
  | some _ =>
      match lexer.rest with
      | [] =>
          { lexer with
            ended := true
            currentChar := none
            currentColumn := lexer.currentColumn + 1 }
      | byte :: rest =>
          if byte ≠ 0x0a then
            { lexer with
              rest := rest
              currentChar := some byte
              currentColumn := lexer.currentColumn + 1 }
          else
            { lexer with
              rest := rest
              currentChar := some byte
              currentLineNr := lexer.currentLineNr + 1
              currentColumn := 1 }

/-- Append the current character to the text of the token. -/
def pushChar (lexer : ConfigLexer) : ConfigLexer :=
  { lexer with
    stringValue := lexer.stringValue ++ [lexer.currentChar.getD 0xff] }

/-- `ConfigLexer::currentContext`. -/
def currentContext (lexer : ConfigLexer) : Option Bytes :=
  StringUtil.format (bytes "$0:$1:$2")
    [lexer.label, StringUtil.ofInt32 lexer.currentLineNr,
      StringUtil.ofInt32 lexer.currentColumn]

/-- How many characters the lexer can still read, the current one included. -/
def left (lexer : ConfigLexer) : Nat :=
  lexer.rest.length + if lexer.currentChar.isSome then 1 else 0

theorem left_nextChar_lt
    {lexer : ConfigLexer}
    (more : lexer.currentChar ≠ none) :
    lexer.nextChar.left < lexer.left := by
  obtain ⟨byte, current⟩ := Option.ne_none_iff_exists'.mp more
  rw [nextChar, current]
  cases input : lexer.rest with
  | nil => simp [left, current, input]
  | cons next rest =>
      dsimp only
      split <;> simp [left, current, input]

theorem left_nextChar_le (lexer : ConfigLexer) :
    lexer.nextChar.left ≤ lexer.left := by
  by_cases more : lexer.currentChar = none
  · apply Nat.le_of_eq
    rw [nextChar, more]
  · exact Nat.le_of_lt (left_nextChar_lt more)

theorem currentChar_ne_none
    {lexer : ConfigLexer}
    (more : lexer.eof ≠ true) :
    lexer.currentChar ≠ none := by
  intro none
  simp [eof, none] at more

@[simp] theorem left_pushChar (lexer : ConfigLexer) :
    lexer.pushChar.left = lexer.left := rfl

@[simp] theorem left_peekChar (lexer : ConfigLexer) :
    lexer.peekChar.2.left = lexer.left := rfl

@[simp] theorem currentChar_pushChar (lexer : ConfigLexer) :
    lexer.pushChar.currentChar = lexer.currentChar := rfl

@[simp] theorem currentChar_peekChar (lexer : ConfigLexer) :
    lexer.peekChar.2.currentChar = lexer.currentChar := rfl

/-! ## White space -/

/-- The first loop of `consumeSpace`, up to a line end or to a printable character
that is no space. -/
def skipSpaces (lexer : ConfigLexer) : ConfigLexer :=
  if _more : lexer.eof then lexer
  else
    match lexer.currentChar with
    | none => lexer
    | some byte =>
        if byte = 0x0d ∨ byte = 0x0a then lexer
        else if isSpace byte then lexer.nextChar.skipSpaces
        else if isPrint byte then lexer
        else lexer.nextChar.skipSpaces
termination_by lexer.left
decreasing_by all_goals exact left_nextChar_lt (currentChar_ne_none _more)

/-- The loop over a comment that ends with the line. -/
def skipLine (lexer : ConfigLexer) : ConfigLexer :=
  if _more : lexer.eof then lexer
  else if lexer.currentChar = some 0x0d ∨ lexer.currentChar = some 0x0a then
    lexer
  else lexer.nextChar.skipLine
termination_by lexer.left
decreasing_by exact left_nextChar_lt (currentChar_ne_none _more)

/-- The loop over a comment in `/*` and `*/`, and whether the comment ended before
the input. -/
def skipComment (lexer : ConfigLexer) : Bool × ConfigLexer :=
  if _more : lexer.eof then (false, lexer)
  else if lexer.currentChar = some 0x2a then
    if lexer.peekChar.1 = some 0x2f then
      (true, lexer.peekChar.2.nextChar.nextChar)
    else lexer.peekChar.2.nextChar.skipComment
  else lexer.nextChar.skipComment
termination_by lexer.left
decreasing_by
  · change lexer.peekChar.2.nextChar.left < lexer.peekChar.2.left
    apply left_nextChar_lt
    rw [currentChar_peekChar]
    exact currentChar_ne_none _more
  · exact left_nextChar_lt (currentChar_ne_none _more)

theorem left_skipSpaces_le (lexer : ConfigLexer) :
    lexer.skipSpaces.left ≤ lexer.left := by
  fun_induction skipSpaces lexer with
  | case1 => exact Nat.le_refl _
  | case2 => exact Nat.le_refl _
  | case3 => exact Nat.le_refl _
  | case4 lexer _ _ _ _ _ inductionHypothesis =>
      exact Nat.le_trans inductionHypothesis (left_nextChar_le lexer)
  | case5 => exact Nat.le_refl _
  | case6 lexer _ _ _ _ _ _ inductionHypothesis =>
      exact Nat.le_trans inductionHypothesis (left_nextChar_le lexer)

theorem left_skipComment_le (lexer : ConfigLexer) :
    lexer.skipComment.2.left ≤ lexer.left := by
  fun_induction skipComment lexer with
  | case1 => exact Nat.le_refl _
  | case2 lexer =>
      exact Nat.le_trans (left_nextChar_le _)
        (left_nextChar_le lexer.peekChar.2)
  | case3 lexer _ _ _ inductionHypothesis =>
      exact Nat.le_trans inductionHypothesis (left_nextChar_le lexer.peekChar.2)
  | case4 lexer _ _ inductionHypothesis =>
      exact Nat.le_trans inductionHypothesis (left_nextChar_le lexer)

/-- `ConfigLexer::consumeSpace`: whether there is more input. -/
def consumeSpace (start : ConfigLexer) : Bool × ConfigLexer :=
  if _more : start.skipSpaces.eof then (false, start.skipSpaces)
  else
    let lexer := start.skipSpaces
    if lexer.currentChar = some 0x0d ∨ lexer.currentChar = some 0x0a then
      (true, lexer)
    else if lexer.currentChar = some 0x23 then
      let lexer := lexer.nextChar.skipLine
      if lexer.eof then (false, { lexer with currentToken := .eof })
      else (true, lexer)
    else if lexer.currentChar = some 0x2f then
      if lexer.peekChar.1 = some 0x2a then
        let closed := lexer.peekChar.2.nextChar.skipComment
        if closed.1 then closed.2.consumeSpace
        else (false, { closed.2 with currentToken := .eof })
      else (true, lexer.peekChar.2)
    else (true, lexer)
termination_by start.left
decreasing_by
  apply Nat.lt_of_le_of_lt (left_skipComment_le _)
  apply Nat.lt_of_lt_of_le _ (left_skipSpaces_le start)
  change start.skipSpaces.peekChar.2.nextChar.left <
    start.skipSpaces.peekChar.2.left
  apply left_nextChar_lt
  rw [currentChar_peekChar]
  exact currentChar_ne_none _more

/-! ## Tokens -/

/-- The loop of `consumeEndOfLine`, and whether it has read a line end. -/
def skipLineEnds (found : Bool) (lexer : ConfigLexer) : Bool × ConfigLexer :=
  if _more : lexer.eof then (found, lexer)
  else if lexer.currentChar = some 0x0a then
    lexer.nextChar.skipLineEnds true
  else if lexer.currentChar = some 0x0d then
    if lexer.peekChar.1 = some 0x0a then
      lexer.peekChar.2.nextChar.nextChar.skipLineEnds true
    else (found, lexer.peekChar.2)
  else (found, lexer)
termination_by lexer.left
decreasing_by
  · exact left_nextChar_lt (currentChar_ne_none _more)
  · change _ < lexer.peekChar.2.left
    apply Nat.lt_of_le_of_lt (left_nextChar_le _)
    apply left_nextChar_lt
    rw [currentChar_peekChar]
    exact currentChar_ne_none _more

/-- `ConfigLexer::consumeEndOfLine`. -/
def consumeEndOfLine (lexer : ConfigLexer) : Bool × ConfigLexer :=
  let skipped := lexer.skipLineEnds false
  if skipped.1 then
    (true,
      { skipped.2 with
        stringValue := skipped.2.stringValue ++ bytes "LF" })
  else skipped

/-- The condition of the loops of `parseName` and `parseValue`, and their
bodies. -/
def takeWord (lexer : ConfigLexer) : ConfigLexer :=
  match _current : lexer.currentChar with
  | none => lexer
  | some byte =>
      if isWord byte then lexer.pushChar.nextChar.takeWord else lexer
termination_by lexer.left
decreasing_by
  change _ < lexer.pushChar.left
  apply left_nextChar_lt
  rw [currentChar_pushChar, _current]
  exact Option.some_ne_none byte

/-- `ConfigLexer::parseValue`, which does not test the first character. -/
def parseValue (lexer : ConfigLexer) : ConfigToken × ConfigLexer :=
  (.value, lexer.pushChar.nextChar.takeWord)

/-- The loop of `parseString`, with the last character that was read. -/
def takeQuoted
    (delim last : Option UInt8)
    (lexer : ConfigLexer) : ConfigLexer :=
  if _more : lexer.eof then lexer
  else if lexer.currentChar ≠ delim ∨ last = some 0x5c then
    lexer.pushChar.nextChar.takeQuoted delim lexer.currentChar
  else lexer
termination_by lexer.left
decreasing_by
  change _ < lexer.pushChar.left
  apply left_nextChar_lt
  rw [currentChar_pushChar]
  exact currentChar_ne_none _more

/-- `ConfigLexer::parseString`. -/
def parseString (lexer : ConfigLexer) : ConfigToken × ConfigLexer :=
  let delim := lexer.currentChar
  let lexer := lexer.nextChar.takeQuoted delim none
  if lexer.currentChar = delim then (.value, lexer.nextChar)
  else (.unknown, lexer)

/-- `ConfigLexer::parseRegEx`. -/
def parseRegEx (lexer : ConfigLexer) : ConfigToken × ConfigLexer :=
  lexer.parseString

/-- The words that are keywords. -/
def keyword (word : Bytes) : Option ConfigToken :=
  if word = bytes "event" then some .event
  else if word = bytes "source" then some .source
  else if word = bytes "output" then some .output
  else if word = bytes "plugin" then some .plugin
  else none

/-- `ConfigLexer::parseName`, which does not test the first character. -/
def parseName (lexer : ConfigLexer) : ConfigToken × ConfigLexer :=
  let lexer := lexer.pushChar.nextChar.takeWord
  ((keyword lexer.stringValue).getD .name, lexer)

/-- The part of `nextToken` behind white space and line ends. -/
def parseToken (lexer : ConfigLexer) : ConfigToken × ConfigLexer :=
  match lexer.currentChar with
  | none => (.unknown, lexer)
  | some byte =>
      if byte = 0x22 ∨ byte = 0x27 then lexer.parseString
      else if byte = 0x2f then lexer.parseRegEx
      else if isAlpha byte then lexer.parseName
      else if isDigit byte then lexer.parseValue
      else (.unknown, lexer)

/-- Note the token that was read. -/
def setToken (parsed : ConfigToken × ConfigLexer) : ConfigLexer :=
  { parsed.2 with currentToken := parsed.1 }

/-- `ConfigLexer::nextToken`, which returns the token that it leaves. -/
def nextToken (lexer : ConfigLexer) : ConfigLexer :=
  let spaced := { lexer with stringValue := [] }.consumeSpace
  if !spaced.1 then setToken (.eof, spaced.2)
  else
    let lines := spaced.2.consumeEndOfLine
    if lines.1 then setToken (.end, lines.2)
    else setToken lines.2.parseToken

/-- The constructor. -/
def create (label config : Bytes) : ConfigLexer :=
  { label := label, rest := config : ConfigLexer }.nextToken

/-- `ConfigLexer::fromString`. -/
def fromString (config : Bytes) : ConfigLexer :=
  create (bytes "<string>") config

end ConfigLexer

end Config
end EvCollect
