import Mathlib.Logic.Function.Iterate
import EvCollect.Config.Printing

/-!
# Progress of the lexer

Every call of `nextToken` that returns a token consumes a character, unless it
starts on one that none of its branches consumes: a printable character that
begins no token, or a carriage return with no line feed behind it.
-/

namespace EvCollect
namespace Config
namespace ConfigLexer

/-- The characters that `parseToken` has a branch for. -/
def isInitial (byte : UInt8) : Bool :=
  decide (byte = 0x22 ∨ byte = 0x27 ∨ byte = 0x2f) || isAlpha byte ||
    isDigit byte

/-- The characters that no branch of `nextToken` consumes. -/
def isStray (byte : UInt8) : Bool :=
  isPrint byte && !isSpace byte && byte != 0x23 && !isInitial byte

/-- The lexer is on a character that `nextToken` does not consume. -/
def Stuck (lexer : ConfigLexer) : Prop :=
  ∃ byte rest, lexer.At (byte :: rest) ∧
    (isStray byte = true ∨ byte = 0x0d ∧ rest.head? ≠ some 0x0a)

variable {lexer : ConfigLexer}
variable {byte : UInt8}
variable {text : Bytes}

/-- Before the end of the input there is a current character. -/
theorem exists_at (more : lexer.eof = false) :
    ∃ byte rest, lexer.At (byte :: rest) := by
  rw [eof, Bool.or_eq_false_iff] at more
  cases current : lexer.currentChar with
  | none =>
      rw [current] at more
      cases more.1
  | some byte => exact ⟨byte, lexer.rest, current, rfl, more.2⟩

theorem left_nextChar_at (here : lexer.At (byte :: text)) :
    lexer.nextChar.left < lexer.left := by
  apply left_nextChar_lt
  rw [here.1]
  exact Option.some_ne_none byte

/-! ## No function of the lexer goes back -/

/-- A lexer that the functions lead to: no more is left, and the label is the
same. -/
structure Follows (after before : ConfigLexer) : Prop where
  left : after.left ≤ before.left
  label : after.label = before.label

theorem Follows.refl (lexer : ConfigLexer) : lexer.Follows lexer :=
  ⟨Nat.le_refl _, rfl⟩

theorem Follows.trans
    {last middle first : ConfigLexer}
    (second : last.Follows middle)
    (start : middle.Follows first) : last.Follows first :=
  ⟨Nat.le_trans second.left start.left, second.label.trans start.label⟩

theorem nextChar_follows (lexer : ConfigLexer) :
    lexer.nextChar.Follows lexer := by
  refine ⟨left_nextChar_le lexer, ?_⟩
  unfold nextChar
  repeat' split
  all_goals rfl

theorem pushChar_follows (lexer : ConfigLexer) :
    lexer.pushChar.Follows lexer :=
  ⟨Nat.le_refl _, rfl⟩

theorem peekChar_follows (lexer : ConfigLexer) :
    lexer.peekChar.2.Follows lexer :=
  ⟨Nat.le_refl _, rfl⟩

theorem setToken_follows (parsed : ConfigToken × ConfigLexer) :
    (setToken parsed).Follows parsed.2 :=
  ⟨Nat.le_refl _, rfl⟩

theorem skipSpaces_follows (lexer : ConfigLexer) :
    lexer.skipSpaces.Follows lexer := by
  fun_induction skipSpaces lexer with
  | case1 lexer => exact .refl lexer
  | case2 lexer => exact .refl lexer
  | case3 lexer => exact .refl lexer
  | case4 lexer _ _ _ _ _ inductionHypothesis =>
      exact inductionHypothesis.trans (nextChar_follows lexer)
  | case5 lexer => exact .refl lexer
  | case6 lexer _ _ _ _ _ _ inductionHypothesis =>
      exact inductionHypothesis.trans (nextChar_follows lexer)

theorem skipLine_follows (lexer : ConfigLexer) :
    lexer.skipLine.Follows lexer := by
  fun_induction skipLine lexer with
  | case1 lexer => exact .refl lexer
  | case2 lexer => exact .refl lexer
  | case3 lexer _ _ inductionHypothesis =>
      exact inductionHypothesis.trans (nextChar_follows lexer)

theorem skipComment_follows (lexer : ConfigLexer) :
    lexer.skipComment.2.Follows lexer := by
  fun_induction skipComment lexer with
  | case1 lexer => exact .refl lexer
  | case2 lexer =>
      exact (nextChar_follows _).trans
        ((nextChar_follows _).trans (peekChar_follows lexer))
  | case3 lexer _ _ _ inductionHypothesis =>
      exact inductionHypothesis.trans
        ((nextChar_follows _).trans (peekChar_follows lexer))
  | case4 lexer _ _ inductionHypothesis =>
      exact inductionHypothesis.trans (nextChar_follows lexer)

/-- Behind its first loop `consumeSpace` does not go back either. -/
theorem consumeSpace_follows (lexer : ConfigLexer) :
    lexer.consumeSpace.2.Follows lexer.skipSpaces := by
  fun_induction consumeSpace lexer with
  | case1 => exact .refl _
  | case2 => exact .refl _
  | case3 =>
      exact (setToken_follows (.eof, _)).trans
        ((skipLine_follows _).trans (nextChar_follows _))
  | case4 => exact (skipLine_follows _).trans (nextChar_follows _)
  | case5 start _ _ _ _ _ _ closed _ inductionHypothesis =>
      have opened : start.skipSpaces.peekChar.2.nextChar.Follows
          start.skipSpaces :=
        (nextChar_follows _).trans (peekChar_follows _)
      exact inductionHypothesis.trans ((skipSpaces_follows closed.2).trans
        ((skipComment_follows _).trans opened))
  | case6 start =>
      exact (setToken_follows (.eof, _)).trans ((skipComment_follows _).trans
        ((nextChar_follows _).trans (peekChar_follows start.skipSpaces)))
  | case7 => exact peekChar_follows _
  | case8 => exact .refl _

theorem skipLineEnds_follows (found : Bool) (lexer : ConfigLexer) :
    (lexer.skipLineEnds found).2.Follows lexer := by
  fun_induction skipLineEnds found lexer with
  | case1 _ lexer => exact .refl lexer
  | case2 _ lexer _ _ inductionHypothesis =>
      exact inductionHypothesis.trans (nextChar_follows lexer)
  | case3 _ lexer _ _ _ _ inductionHypothesis =>
      exact inductionHypothesis.trans ((nextChar_follows _).trans
        ((nextChar_follows _).trans (peekChar_follows lexer)))
  | case4 _ lexer => exact peekChar_follows lexer
  | case5 _ lexer => exact .refl lexer

theorem consumeEndOfLine_follows (lexer : ConfigLexer) :
    lexer.consumeEndOfLine.2.Follows (lexer.skipLineEnds false).2 := by
  rw [consumeEndOfLine]
  split
  · exact ⟨Nat.le_refl _, rfl⟩
  · exact .refl _

theorem takeWord_follows (lexer : ConfigLexer) :
    lexer.takeWord.Follows lexer := by
  fun_induction takeWord lexer with
  | case1 lexer => exact .refl lexer
  | case2 lexer _ _ _ inductionHypothesis =>
      exact inductionHypothesis.trans
        ((nextChar_follows _).trans (pushChar_follows lexer))
  | case3 lexer => exact .refl lexer

theorem takeQuoted_follows (delim last : Option UInt8) (lexer : ConfigLexer) :
    (lexer.takeQuoted delim last).Follows lexer := by
  fun_induction takeQuoted delim last lexer with
  | case1 _ lexer => exact .refl lexer
  | case2 _ lexer _ _ inductionHypothesis =>
      exact inductionHypothesis.trans
        ((nextChar_follows _).trans (pushChar_follows lexer))
  | case3 _ lexer => exact .refl lexer

theorem parseString_follows (lexer : ConfigLexer) :
    lexer.parseString.2.Follows lexer.nextChar := by
  have taken := takeQuoted_follows lexer.currentChar none lexer.nextChar
  rw [parseString]
  split
  · exact (nextChar_follows _).trans taken
  · exact taken

theorem parseToken_follows (lexer : ConfigLexer) :
    lexer.parseToken.2.Follows lexer := by
  have quoted := (parseString_follows lexer).trans (nextChar_follows lexer)
  have word := (takeWord_follows lexer.pushChar.nextChar).trans
    ((nextChar_follows _).trans (pushChar_follows lexer))
  rw [parseToken]
  repeat' split
  · exact .refl lexer
  · exact quoted
  · exact quoted
  · exact word
  · exact word
  · exact .refl lexer

theorem nextToken_follows (lexer : ConfigLexer) :
    lexer.nextToken.Follows lexer := by
  have spaced : { lexer with stringValue := [] }.consumeSpace.2.Follows lexer :=
    (consumeSpace_follows _).trans
      ((skipSpaces_follows _).trans ⟨Nat.le_refl _, rfl⟩)
  have lines := (consumeEndOfLine_follows _).trans
    ((skipLineEnds_follows false _).trans spaced)
  rw [nextToken]
  dsimp only
  split
  · exact (setToken_follows _).trans spaced
  split
  · exact (setToken_follows _).trans lines
  · exact (setToken_follows _).trans ((parseToken_follows _).trans lines)

/-! ## White space -/

theorem consumeSpace_eof (ended : lexer.eof = true) :
    lexer.consumeSpace = (false, lexer) := by
  have stays : lexer.skipSpaces = lexer := by
    rw [skipSpaces, dif_pos ended]
  rw [consumeSpace, stays, dif_pos ended]

theorem consumeSpace_skipped
    (here : lexer.At (byte :: text))
    (skipped : isSkipped byte = true) :
    lexer.consumeSpace.2.left < lexer.left := by
  calc lexer.consumeSpace.2.left
      ≤ lexer.skipSpaces.left := (consumeSpace_follows lexer).left
    _ = lexer.nextChar.skipSpaces.left := by rw [skipSpaces_skipped here skipped]
    _ ≤ lexer.nextChar.left := (skipSpaces_follows _).left
    _ < lexer.left := left_nextChar_at here

/-- A comment is consumed. -/
theorem consumeSpace_comment
    (here : lexer.At (byte :: text))
    (comment : byte = 0x23 ∨ byte = 0x2f ∧ text.head? = some 0x2a) :
    lexer.consumeSpace.2.left < lexer.left := by
  have stays : lexer.skipSpaces = lexer := by
    apply skipSpaces_stop here
    rcases comment with rfl | ⟨rfl, -⟩ <;> rfl
  rw [consumeSpace, stays, dif_neg (by simp [here.eof_cons])]
  dsimp only
  rw [here.1]
  rcases comment with rfl | ⟨rfl, star⟩
  · rw [if_neg (by decide), if_pos rfl]
    split
    · exact Nat.lt_of_le_of_lt (skipLine_follows _).left (left_nextChar_at here)
    · exact Nat.lt_of_le_of_lt (skipLine_follows _).left (left_nextChar_at here)
  · rw [if_neg (by decide), if_neg (by decide), if_pos rfl, here.peekChar_fst,
      if_pos star]
    have inside : lexer.peekChar.2.nextChar.left < lexer.left := by
      have more : text ≠ [] := by
        rintro rfl
        cases star
      exact left_nextChar_at (here.peekChar more)
    have closed := (skipComment_follows lexer.peekChar.2.nextChar).left
    split
    · calc _ ≤ _ := (consumeSpace_follows _).left
        _ ≤ _ := (skipSpaces_follows _).left
        _ ≤ _ := closed
        _ < _ := inside
    · exact Nat.lt_of_le_of_lt closed inside

/-- Where no space and no comment begins, `consumeSpace` stays, apart from a
peek behind a slash. -/
theorem consumeSpace_stop
    (here : lexer.At (byte :: text))
    (stops : isSkipped byte = false)
    (noComment : ¬ (byte = 0x23 ∨ byte = 0x2f ∧ text.head? = some 0x2a)) :
    lexer.consumeSpace =
      (true, if byte = 0x2f then lexer.peekChar.2 else lexer) := by
  rw [not_or, not_and] at noComment
  rw [consumeSpace, skipSpaces_stop here stops,
    dif_neg (by simp [here.eof_cons])]
  dsimp only
  rw [here.1]
  split
  next isLineEnd =>
    rw [if_neg]
    rintro rfl
    rcases isLineEnd with equal | equal <;> cases equal
  rw [if_neg (by simpa using noComment.1)]
  split
  next isSlash =>
    have slash := Option.some.inj isSlash
    rw [here.peekChar_fst, if_neg (noComment.2 slash), if_pos slash]
  next noSlash => rw [if_neg (by simpa using noSlash)]

/-! ## Line ends and tokens -/

theorem consumeEndOfLine_lineEnd
    (here : lexer.At (byte :: text))
    (isLineEnd : byte = 0x0a ∨ byte = 0x0d ∧ text.head? = some 0x0a) :
    lexer.consumeEndOfLine.2.left < lexer.left := by
  apply Nat.lt_of_le_of_lt (consumeEndOfLine_follows lexer).left
  rw [skipLineEnds, dif_neg (by simp [here.eof_cons]),
    here.1, here.peekChar_fst]
  rcases isLineEnd with rfl | ⟨rfl, lineFeed⟩
  · rw [if_pos rfl]
    exact Nat.lt_of_le_of_lt ((skipLineEnds_follows _ _).left) (left_nextChar_at here)
  · rw [if_neg (by decide), if_pos rfl, if_pos lineFeed]
    have more : text ≠ [] := by
      rintro rfl
      cases lineFeed
    calc _ ≤ lexer.peekChar.2.nextChar.nextChar.left := (skipLineEnds_follows _ _).left
      _ ≤ lexer.peekChar.2.nextChar.left := left_nextChar_le _
      _ < lexer.left := left_nextChar_at (here.peekChar more)

/-- Where no line end begins, `consumeEndOfLine` stays, apart from a peek. -/
theorem consumeEndOfLine_stop
    (here : lexer.At (byte :: text))
    (noLineEnd : ¬ (byte = 0x0a ∨ byte = 0x0d ∧ text.head? = some 0x0a)) :
    lexer.consumeEndOfLine =
      (false, if byte = 0x0d then lexer.peekChar.2 else lexer) := by
  rw [not_or, not_and] at noLineEnd
  have stays : lexer.skipLineEnds false =
      (false, if byte = 0x0d then lexer.peekChar.2 else lexer) := by
    rw [skipLineEnds, dif_neg (by simp [here.eof_cons]), here.1,
      if_neg (mt Option.some.inj noLineEnd.1)]
    split
    next isReturn =>
      have carriage := Option.some.inj isReturn
      rw [here.peekChar_fst, if_neg (noLineEnd.2 carriage), if_pos carriage]
    next noReturn => rw [if_neg (fun equal => noReturn (congrArg some equal))]
  rw [consumeEndOfLine, stays]
  rfl

theorem consumeEndOfLine_other
    (current : lexer.currentChar = some byte)
    (noLineEnd : byte ≠ 0x0a ∧ byte ≠ 0x0d) :
    lexer.consumeEndOfLine = (false, lexer) := by
  have stays : lexer.skipLineEnds false = (false, lexer) := by
    rw [skipLineEnds]
    split
    · rfl
    rw [current, if_neg (mt Option.some.inj noLineEnd.1),
      if_neg (mt Option.some.inj noLineEnd.2)]
  rw [consumeEndOfLine, stays]
  rfl

theorem left_parseString
    (current : lexer.currentChar = some byte) :
    lexer.parseString.2.left < lexer.left := by
  have opened : lexer.nextChar.left < lexer.left :=
    left_nextChar_lt (by simp [current])
  exact Nat.lt_of_le_of_lt (parseString_follows lexer).left opened

theorem left_takeWord_lt
    (current : lexer.currentChar = some byte) :
    lexer.pushChar.nextChar.takeWord.left < lexer.left := by
  apply Nat.lt_of_le_of_lt ((takeWord_follows _).left)
  change lexer.pushChar.nextChar.left < lexer.pushChar.left
  apply left_nextChar_lt
  rw [currentChar_pushChar, current]
  exact Option.some_ne_none byte

theorem parseToken_initial
    (current : lexer.currentChar = some byte)
    (initial : isInitial byte = true) :
    lexer.parseToken.2.left < lexer.left := by
  rw [isInitial, Bool.or_eq_true, Bool.or_eq_true, decide_eq_true_iff]
    at initial
  rw [parseToken, current]
  dsimp only
  split
  · exact left_parseString current
  split
  · exact left_parseString current
  split
  · exact left_takeWord_lt current
  split
  · exact left_takeWord_lt current
  · tauto

theorem parseToken_other
    (current : lexer.currentChar = some byte)
    (other : isInitial byte = false) :
    lexer.parseToken = (.unknown, lexer) := by
  rw [isInitial, Bool.or_eq_false_iff, Bool.or_eq_false_iff,
    decide_eq_false_iff_not] at other
  obtain ⟨⟨noQuote, noAlpha⟩, noDigit⟩ := other
  rw [parseToken, current]
  dsimp only
  rw [if_neg (by tauto), if_neg (by tauto), if_neg (by simp [noAlpha]),
    if_neg (by simp [noDigit])]

/-! ## One call -/

@[simp] theorem left_setToken (parsed : ConfigToken × ConfigLexer) :
    (setToken parsed).left = parsed.2.left := rfl

/-- A call that finds more input goes on behind the white space. -/
theorem nextToken_spaced
    {after : ConfigLexer}
    (spaced : { lexer with stringValue := [] }.consumeSpace = (true, after)) :
    lexer.nextToken.left ≤ after.consumeEndOfLine.2.left := by
  rw [nextToken, spaced]
  dsimp only
  rw [if_neg (by decide)]
  split
  · exact Nat.le_refl _
  · exact (parseToken_follows _).left

/-- White space or a comment that is consumed is progress. -/
theorem nextToken_of_consumeSpace
    (consumed : { lexer with stringValue := [] }.consumeSpace.2.left <
      lexer.left) :
    lexer.nextToken.currentToken = .eof ∨
      lexer.nextToken.left < lexer.left := by
  cases spaced : { lexer with stringValue := [] }.consumeSpace with
  | mk more after =>
      rw [spaced] at consumed
      cases more with
      | false =>
          left
          rw [nextToken, spaced]
          rfl
      | true =>
          right
          calc lexer.nextToken.left
              ≤ after.consumeEndOfLine.2.left := nextToken_spaced spaced
            _ ≤ (after.skipLineEnds false).2.left :=
              (consumeEndOfLine_follows after).left
            _ ≤ after.left := (skipLineEnds_follows false after).left
            _ < lexer.left := consumed

/-- On a character that no branch consumes, a call returns an unknown token and
stays, apart from a peek behind a carriage return. -/
theorem nextToken_stays
    (here : lexer.At (byte :: text))
    (stray : isStray byte = true ∨ byte = 0x0d ∧ text.head? ≠ some 0x0a) :
    lexer.nextToken = setToken (.unknown,
      if byte = 0x0d then { lexer with stringValue := [] }.peekChar.2
      else { lexer with stringValue := [] }) := by
  have facts : isSkipped byte = false ∧ isInitial byte = false ∧
      byte ≠ 0x23 ∧ byte ≠ 0x2f ∧ byte ≠ 0x0a := by
    rcases stray with stray | ⟨rfl, -⟩
    · simp only [isStray, Bool.and_eq_true, Bool.not_eq_true', bne_iff_ne]
        at stray
      obtain ⟨⟨⟨printable, noSpace⟩, noHash⟩, noInitial⟩ := stray
      refine ⟨by simp [isSkipped, printable, noSpace], noInitial, noHash, ?_, ?_⟩
      · rintro rfl
        cases noInitial
      · rintro rfl
        cases printable
    · exact ⟨rfl, rfl, by decide, by decide, by decide⟩
  obtain ⟨stops, noInitial, noHash, noSlash, noLineFeed⟩ := facts
  have spaced := consumeSpace_stop here.clear stops (by tauto)
  have noLineEnd : ¬ (byte = 0x0a ∨ byte = 0x0d ∧ text.head? = some 0x0a) := by
    rintro (isLineFeed | ⟨rfl, lineFeed⟩)
    · exact noLineFeed isLineFeed
    · exact (stray.resolve_left (by decide)).2 lineFeed
  have lines := consumeEndOfLine_stop here.clear noLineEnd
  rw [if_neg noSlash] at spaced
  rw [nextToken, spaced]
  dsimp only
  rw [if_neg (by decide), lines, if_neg Bool.false_ne_true,
    parseToken_other _ noInitial]
  split
  · exact here.1
  · exact here.1

theorem nextToken_stuck (stuck : lexer.Stuck) :
    lexer.nextToken.currentToken = .unknown ∧
      lexer.nextToken.left = lexer.left := by
  obtain ⟨byte, text, here, stray⟩ := stuck
  rw [nextToken_stays here stray]
  split
  · exact ⟨rfl, rfl⟩
  · exact ⟨rfl, rfl⟩

/-- A stray character is returned as an unknown token for ever. -/
theorem iterate_nextToken_stray
    (here : lexer.At (byte :: text))
    (stray : isStray byte = true)
    (count : Nat) :
    (nextToken^[count] lexer.nextToken).currentToken = .unknown := by
  have noReturn : byte ≠ 0x0d := by
    rintro rfl
    cases stray
  have stays := nextToken_stays here (.inl stray)
  rw [if_neg noReturn] at stays
  induction count generalizing lexer with
  | zero => rw [Function.iterate_zero_apply, stays]; rfl
  | succ count inductionHypothesis =>
      have there : lexer.nextToken.At (byte :: text) := by
        rw [stays]
        exact here
      have again := nextToken_stays there (.inl stray)
      rw [if_neg noReturn] at again
      rw [Function.iterate_succ_apply]
      exact inductionHypothesis there again

theorem nextToken_lineEnd
    (here : lexer.At (byte :: text))
    (isLineEnd : byte = 0x0a ∨ byte = 0x0d ∧ text.head? = some 0x0a) :
    lexer.nextToken.left < lexer.left := by
  have noSlash : byte ≠ 0x2f := by
    rcases isLineEnd with rfl | ⟨rfl, -⟩ <;> decide
  have spaced := consumeSpace_stop here.clear
    (by rcases isLineEnd with rfl | ⟨rfl, -⟩ <;> rfl)
    (by rcases isLineEnd with rfl | ⟨rfl, -⟩ <;> simp)
  rw [if_neg noSlash] at spaced
  exact Nat.lt_of_le_of_lt (nextToken_spaced spaced)
    (consumeEndOfLine_lineEnd here.clear isLineEnd)

theorem isFirst_of_isInitial
    (initial : isInitial byte = true) :
    isFirst byte = true ∧ byte ≠ 0x0a ∧ byte ≠ 0x0d := by
  rw [isInitial, Bool.or_eq_true, Bool.or_eq_true, decide_eq_true_iff]
    at initial
  rcases initial with (delim | alpha) | digit
  · rcases delim with rfl | rfl | rfl <;> exact ⟨rfl, by decide, by decide⟩
  · obtain ⟨first, -, -, noLineEnd⟩ := isFirst_of_isAlpha alpha
    exact ⟨first, noLineEnd⟩
  · obtain ⟨first, -, -, noLineEnd⟩ := isFirst_of_isDigit digit
    exact ⟨first, noLineEnd⟩

theorem nextToken_initial
    (here : lexer.At (byte :: text))
    (noComment : ¬ (byte = 0x23 ∨ byte = 0x2f ∧ text.head? = some 0x2a))
    (initial : isInitial byte = true) :
    lexer.nextToken.left < lexer.left := by
  obtain ⟨first, noLineEnd⟩ := isFirst_of_isInitial initial
  have spaced := consumeSpace_stop here.clear (isSkipped_of_isFirst first)
    noComment
  have kept : ∃ after : ConfigLexer, after.currentChar = some byte ∧
      after.left = lexer.left ∧
      { lexer with stringValue := [] }.consumeSpace = (true, after) := by
    refine ⟨_, ?_, ?_, spaced⟩
    · split <;> exact here.1
    · split <;> rfl
  obtain ⟨after, current, same, spaced⟩ := kept
  rw [nextToken, spaced]
  dsimp only
  rw [if_neg (by decide), consumeEndOfLine_other current noLineEnd,
    if_neg Bool.false_ne_true, ← same]
  exact parseToken_initial current initial

/-- Any other call ends the input or consumes a character. -/
theorem nextToken_progress (free : ¬ lexer.Stuck) :
    lexer.nextToken.currentToken = .eof ∨
      lexer.nextToken.left < lexer.left := by
  cases more : lexer.eof with
  | true =>
      left
      have ended : ({ lexer with stringValue := [] } : ConfigLexer).eof = true :=
        more
      rw [nextToken, consumeSpace_eof ended]
      rfl
  | false =>
      obtain ⟨byte, text, here⟩ := exists_at more
      have cleared := here.clear
      cases skipped : isSkipped byte with
      | true =>
          exact nextToken_of_consumeSpace (consumeSpace_skipped cleared skipped)
      | false =>
          by_cases comment : byte = 0x23 ∨ byte = 0x2f ∧ text.head? = some 0x2a
          · exact nextToken_of_consumeSpace (consumeSpace_comment cleared comment)
          · right
            by_cases isLineEnd : byte = 0x0a ∨ byte = 0x0d ∧ text.head? = some 0x0a
            · exact nextToken_lineEnd here isLineEnd
            cases initial : isInitial byte with
            | true => exact nextToken_initial here comment initial
            | false =>
                exfalso
                apply free
                refine ⟨byte, text, here, ?_⟩
                rw [not_or] at comment isLineEnd
                rw [isSkipped, Bool.and_eq_false_iff, decide_eq_false_iff_not,
                  Bool.or_eq_false_iff, Bool.not_eq_false'] at skipped
                rcases skipped with endsLine | printable
                · exact .inr (by tauto)
                · left
                  simp [isStray, printable, comment.1, initial]

theorem nextToken_progress_iff (lexer : ConfigLexer) :
    (lexer.nextToken.currentToken = .eof ∨
      lexer.nextToken.left < lexer.left) ↔ ¬ lexer.Stuck := by
  constructor
  · intro progress stuck
    obtain ⟨unknown, same⟩ := nextToken_stuck stuck
    rcases progress with ended | consumed
    · rw [unknown] at ended
      cases ended
    · omega
  · exact nextToken_progress

/-! ## All calls -/

/-- The lexer on the first character of a text, before its first call. -/
def opened (label config : Bytes) : ConfigLexer :=
  { label := label, rest := config : ConfigLexer }.nextChar

@[simp] theorem left_opened (label config : Bytes) :
    (opened label config).left = config.length := by
  cases config with
  | nil => rfl
  | cons byte rest =>
      simp only [opened, nextChar]
      split <;> rfl

/-- The constructor skips the zero byte that the lexer starts from, and calls
`nextToken` on the first character. -/
theorem create_eq_nextToken (label config : Bytes) :
    create label config = (opened label config).nextToken := by
  have start : ({ label := label, rest := config } : ConfigLexer).At
      (0 :: config) := ⟨rfl, rfl, rfl⟩
  have spaced : ({ label := label, rest := config } : ConfigLexer).skipSpaces =
      (opened label config).skipSpaces := skipSpaces_skipped start rfl
  have cleared : ({ opened label config with stringValue := [] } : ConfigLexer) =
      opened label config := by
    cases config with
    | nil => rfl
    | cons byte rest =>
        simp only [opened, nextChar]
        split <;> rfl
  have same : ({ label := label, rest := config } : ConfigLexer).consumeSpace =
      (opened label config).consumeSpace := by
    rw [consumeSpace, consumeSpace]
    simp only [spaced]
  rw [create, nextToken, nextToken, cleared]
  simp only [same]

/-- As every call consumes a character, the end comes. -/
theorem exists_eof
    {bound : Nat}
    (inside : lexer.left ≤ bound)
    (free : ∀ count, ¬ (nextToken^[count] lexer).Stuck) :
    ∃ count ≤ bound,
      (nextToken^[count] lexer.nextToken).currentToken = .eof := by
  induction bound generalizing lexer with
  | zero =>
      rcases nextToken_progress (free 0) with ended | consumed
      · exact ⟨0, Nat.le_refl 0, ended⟩
      · exact absurd consumed (by simp; omega)
  | succ bound inductionHypothesis =>
      rcases nextToken_progress (free 0) with ended | consumed
      · exact ⟨0, Nat.zero_le _, ended⟩
      · obtain ⟨count, less, ended⟩ := @inductionHypothesis lexer.nextToken
          (by simp only [Function.iterate_zero, id] at consumed; omega)
          (fun count => free (count + 1))
        exact ⟨count + 1, Nat.succ_le_succ less, ended⟩

end ConfigLexer

open ConfigLexer

/-- The calls of `nextToken`, the one of the constructor included, reach the end
of the input after at most one more than there are characters, with a character
consumed by each call before, if and only if none of them starts on a stray
character. -/
theorem lexer_progress_iff (label config : Bytes) :
    ((∃ count ≤ config.length,
        (nextToken^[count] (create label config)).currentToken = .eof) ∧
      ∀ count,
        (nextToken^[count + 1] (opened label config)).currentToken = .eof ∨
          (nextToken^[count + 1] (opened label config)).left <
            (nextToken^[count] (opened label config)).left) ↔
      ∀ count, ¬ (nextToken^[count] (opened label config)).Stuck := by
  simp only [Function.iterate_succ_apply', nextToken_progress_iff]
  constructor
  · exact And.right
  · intro free
    refine ⟨?_, free⟩
    rw [create_eq_nextToken]
    exact exists_eof (Nat.le_of_eq (left_opened label config)) free

/-- On a text of one stray character the lexer never reaches the end. -/
theorem lexer_stray :
    ¬ ((∃ count ≤ (bytes "@").length,
        (nextToken^[count] (create (bytes "<string>") (bytes "@"))).currentToken =
          .eof) ∧
      ∀ count,
        (nextToken^[count + 1]
            (opened (bytes "<string>") (bytes "@"))).currentToken = .eof ∨
          (nextToken^[count + 1] (opened (bytes "<string>") (bytes "@"))).left <
            (nextToken^[count] (opened (bytes "<string>") (bytes "@"))).left) := by
  rintro ⟨⟨count, -, ended⟩, -⟩
  have here : (opened (bytes "<string>") (bytes "@")).At [0x40] :=
    ⟨rfl, rfl, rfl⟩
  rw [create_eq_nextToken, iterate_nextToken_stray here (by decide)] at ended
  cases ended

end Config
end EvCollect
