import EvCollect.Config.Progress
import EvCollect.Text.Transducer

/-!
# The lexer as a transducer

What `ConfigLexer` returns for a text, read character by character: the mode says
what the characters so far have begun. The lexer refines this transducer: from
any state, the calls of `nextToken` return what the transducer puts out for the
characters that are left.
-/

namespace EvCollect
namespace Config

open Text

/-! ## Modes -/

/-- What the characters that were read last have begun. -/
inductive Mode
  /-- Nothing: only white space. -/
  | blank
  /-- A slash, which begins a comment or a regular expression. -/
  | slash
  /-- A comment in `/*` and `*/`, and whether the last character can begin its
  end. -/
  | comment (star : Bool)
  /-- A comment that ends with the line. -/
  | line
  | ends
  /-- Line ends and a carriage return. -/
  | endsReturn
  /-- A carriage return that no line end comes before. -/
  | carriage
  | word (text : Bytes)
  | quoted (delim : UInt8) (last : Option UInt8) (payload : Bytes)
  /-- A character that begins no token. -/
  | stuck
  deriving DecidableEq, Repr

def endToken : ConfigToken × Bytes :=
  (.end, bytes "LF")

/-- The token of a letter or a digit and the characters it goes on with. -/
def wordToken (text : Bytes) : ConfigToken × Bytes :=
  if text.head?.any isDigit then (.value, text)
  else ((ConfigLexer.keyword text).getD .name, text)

namespace Mode

open ConfigLexer (isSkipped)

/-- What a character begins behind white space. -/
def enter (byte : UInt8) : Mode :=
  if byte = 0x0a then ends
  else if byte = 0x0d then carriage
  else if isSkipped byte then blank
  else if byte = 0x23 then line
  else if byte = 0x2f then slash
  else if byte = 0x22 ∨ byte = 0x27 then quoted byte none []
  else if isAlpha byte ∨ isDigit byte then word [byte]
  else stuck

/-- A character in a quoted value, or the end of it. -/
def stepQuoted
    (delim : UInt8)
    (last : Option UInt8)
    (payload : Bytes)
    (byte : UInt8) : List (ConfigToken × Bytes) × Mode :=
  if byte = delim ∧ last ≠ some 0x5c then ([(.value, payload)], blank)
  else ([], quoted delim (some byte) (payload ++ [byte]))

def step : Mode → UInt8 → List (ConfigToken × Bytes) × Mode
  | blank, byte => ([], enter byte)
  | slash, byte =>
      if byte = 0x2a then ([], comment true)
      else stepQuoted 0x2f none [] byte
  | comment star, byte =>
      if star ∧ byte = 0x2f then ([], blank) else ([], comment (byte = 0x2a))
  | line, byte =>
      if byte = 0x0d ∨ byte = 0x0a then ([], enter byte) else ([], line)
  | ends, byte =>
      if byte = 0x0a then ([], ends)
      else if byte = 0x0d then ([], endsReturn)
      else ([endToken], enter byte)
  | endsReturn, byte =>
      if byte = 0x0a then ([], ends) else ([endToken], stuck)
  | carriage, byte =>
      if byte = 0x0a then ([], ends) else ([], stuck)
  | word text, byte =>
      if isWord byte then ([], word (text ++ [byte]))
      else ([wordToken text], enter byte)
  | quoted delim last payload, byte => stepQuoted delim last payload byte
  | stuck, _ => ([], stuck)

/-- The end of the input, for ever. -/
def eofs : Nat → ConfigToken × Bytes :=
  fun _ => (.eof, [])

/-- A stray character, for ever. -/
def unknowns : Nat → ConfigToken × Bytes :=
  fun _ => (.unknown, [])

/-- What is returned at the end of the input. -/
def finish : Mode → Nat → ConfigToken × Bytes
  | blank => eofs
  | slash => prepend [(.unknown, [])] eofs
  | comment _ => eofs
  | line => eofs
  | ends => prepend [endToken] eofs
  | endsReturn => prepend [endToken] eofs
  | carriage => prepend [(.unknown, [])] eofs
  | word text => prepend [wordToken text] eofs
  | quoted _ _ payload => prepend [(.unknown, payload)] eofs
  | stuck => unknowns

end Mode

/-- The transducer that the lexer is. -/
def scanner : Transducer Mode UInt8 (ConfigToken × Bytes) where
  step := Mode.step
  finish := Mode.finish

namespace Mode

open ConfigLexer (isSkipped)

variable {mode : Mode}
variable {byte : UInt8}
variable {text rest : Bytes}

theorem output_cons (mode : Mode) (byte : UInt8) (text : Bytes) :
    scanner.output mode (byte :: text) =
      prepend (mode.step byte).1 (scanner.output (mode.step byte).2 text) :=
  Transducer.output_cons mode byte text

theorem run_step (mode : Mode) (byte : UInt8) (text : Bytes) :
    scanner.run mode (byte :: text) =
      ((mode.step byte).1 ++ (scanner.run (mode.step byte).2 text).1,
        (scanner.run (mode.step byte).2 text).2) := rfl

theorem run_cons
    {after : List (ConfigToken × Bytes) × Mode}
    {next : Mode}
    (stepped : mode.step byte = ([], next))
    (behind : scanner.run next text = after) :
    scanner.run mode (byte :: text) = after := by
  rw [run_step, stepped, behind]
  rfl

theorem enter_skipped (skipped : isSkipped byte = true) :
    enter byte = blank := by
  have facts := skipped
  rw [isSkipped, Bool.and_eq_true, decide_eq_true_iff] at facts
  rw [enter, if_neg facts.1.2, if_neg facts.1.1, if_pos skipped]

theorem output_stuck (text : Bytes) :
    scanner.output stuck text = unknowns := by
  induction text with
  | nil => rfl
  | cons byte text inductionHypothesis =>
      rw [output_cons]
      exact inductionHypothesis

/-- A carriage return that no line feed comes behind is read as a stray
character. -/
theorem output_carriage
    (differs : byte ≠ 0x0a)
    (text : Bytes) :
    scanner.output blank (0x0d :: byte :: text) = unknowns := by
  have stepped : step carriage byte = ([], stuck) := by
    rw [step, if_neg differs]
  rw [output_cons]
  change scanner.output carriage (byte :: text) = unknowns
  rw [output_cons, stepped]
  exact output_stuck text

/-- A slash that no star comes behind is a delimiter like others. -/
theorem run_slash
    (noStar : byte ≠ 0x2a)
    (text : Bytes) :
    scanner.run slash (byte :: text) =
      scanner.run (quoted 0x2f none []) (byte :: text) := by
  have same : step slash byte = step (quoted 0x2f none []) byte := by
    rw [step, if_neg noStar]
    rfl
  simp only [Transducer.run, scanner, same]

/-- A quoted value begins behind its delimiter. -/
theorem run_quote
    (quote : byte = 0x22 ∨ byte = 0x27 ∨ byte = 0x2f)
    (noStar : byte = 0x2f → text.head? ≠ some 0x2a)
    (nonempty : text ≠ []) :
    scanner.run blank (byte :: text) = scanner.run (quoted byte none []) text := by
  rcases quote with rfl | rfl | rfl
  · rfl
  · rfl
  · obtain ⟨first, rest, rfl⟩ := List.exists_cons_of_ne_nil nonempty
    rw [← run_slash (by simpa using noStar rfl)]
    rfl

/-! ## Complete tokens -/

/-- The scanner has put a token out, or will do so when it is complete. -/
inductive Delivers (token : ConfigToken × Bytes) :
    List (ConfigToken × Bytes) × Mode → Prop
  | closed : Delivers token ([token], .blank)
  | word (text : Bytes) (isToken : wordToken text = token) :
      Delivers token ([], .word text)
  | ends (isToken : endToken = token) : Delivers token ([], .ends)

/-- A word, or line ends, do not go on. -/
def Stops : Mode → Bytes → Prop
  | .word _, text => ∀ byte ∈ text.head?, isWord byte = false
  | .ends, text => ∀ byte more, text = byte :: more → byte ≠ 0x0a ∧
      (byte = 0x0d → ∃ next behind, more = next :: behind ∧ next ≠ 0x0a)
  | _, _ => True

/-- Where the token is complete, it comes before what the rest is read as. -/
theorem Delivers.output
    {token : ConfigToken × Bytes}
    {read : List (ConfigToken × Bytes) × Mode}
    (delivers : Delivers token read)
    (stops : Stops read.2 rest) :
    prepend read.1 (scanner.output read.2 rest) =
      prepend [token] (scanner.output .blank rest) := by
  cases delivers with
  | closed => rfl
  | word text isToken =>
      subst isToken
      cases rest with
      | nil => rfl
      | cons byte rest =>
          have other : isWord byte = false := stops byte rfl
          rw [prepend_nil, output_cons, step, if_neg (by simp [other])]
          rfl
  | ends isToken =>
      subst isToken
      cases rest with
      | nil => rfl
      | cons byte rest =>
          obtain ⟨noFeed, carriage⟩ := stops byte rest rfl
          rw [prepend_nil, output_cons, step, if_neg noFeed]
          split
          next isCarriage =>
            obtain ⟨next, behind, rfl, differs⟩ := carriage isCarriage
            rw [isCarriage, output_carriage differs, prepend_nil, output_cons,
              step, if_neg differs, output_stuck]
          next => rfl

end Mode

namespace ConfigLexer

open Mode

variable {lexer : ConfigLexer}
variable {byte : UInt8}
variable {text rest : Bytes}

/-! ## White space -/

/-- The lexer has read a part of a text, in which the scanner goes from one mode
to another and puts nothing out. -/
structure Passes
    (before after : ConfigLexer)
    (text rest : Bytes)
    (first last : Mode) : Prop where
  here : after.At rest
  value : after.stringValue = before.stringValue
  run : ∃ used, text = used ++ rest ∧ scanner.run first used = ([], last)

namespace Passes

variable {before middle after : ConfigLexer}
variable {first mode last : Mode}

theorem refl
    (here : lexer.At text)
    (mode : Mode) : Passes lexer lexer text text mode mode :=
  ⟨here, rfl, [], rfl, rfl⟩

theorem trans
    {between : Bytes}
    (front : Passes before middle text between first mode)
    (behind : Passes middle after between rest mode last) :
    Passes before after text rest first last := by
  obtain ⟨used, rfl, run⟩ := front.run
  obtain ⟨more, rfl, goesOn⟩ := behind.run
  refine ⟨behind.here, behind.value.trans front.value, used ++ more, ?_, ?_⟩
  · rw [List.append_assoc]
  · exact Transducer.run_silent run goesOn

theorem nextChar
    (here : lexer.At (byte :: text))
    (stepped : first.step byte = ([], last)) :
    Passes lexer lexer.nextChar (byte :: text) text first last :=
  ⟨here.nextChar, stringValue_nextChar lexer, [byte], rfl,
    run_cons stepped rfl⟩

/-- At the end of the input a peek shows only until the next character is
read. -/
theorem peekChar_nextChar
    (here : lexer.At (byte :: text))
    (stepped : first.step byte = ([], last)) :
    Passes lexer lexer.peekChar.2.nextChar (byte :: text) text first last := by
  refine ⟨?_, stringValue_nextChar _, [byte], rfl, run_cons stepped rfl⟩
  cases text with
  | nil =>
      obtain ⟨current, input, -⟩ := here
      change lexer.peekChar.2.nextChar.currentChar = none
      rw [ConfigLexer.nextChar, currentChar_peekChar, current]
      dsimp only [ConfigLexer.peekChar]
      rw [input]
  | cons next rest => exact (here.peekChar (List.cons_ne_nil _ _)).nextChar

theorem length_le (passes : Passes before after text rest first last) :
    rest.length ≤ text.length := by
  obtain ⟨used, rfl, -⟩ := passes.run
  rw [List.length_append]
  exact Nat.le_add_left _ _

/-- Two modes that take the first character the same way cannot be told
apart. -/
theorem start
    {other : Mode}
    (passes : Passes before after (byte :: text) rest first last)
    (same : other.step byte = first.step byte)
    (moves : first ≠ last) :
    Passes before after (byte :: text) rest other last := by
  obtain ⟨used, split, run⟩ := passes.run
  refine ⟨passes.here, passes.value, used, split, ?_⟩
  cases used with
  | nil => exact absurd (congrArg Prod.snd run) moves
  | cons head used =>
      cases (List.cons.inj split).1
      rw [← run]
      simp only [scanner, Transducer.run, same]

/-- What the scanner puts out does not depend on the part. -/
theorem output (passes : Passes before after text rest first last) :
    scanner.output first text = scanner.output last rest := by
  obtain ⟨used, rfl, run⟩ := passes.run
  exact Transducer.output_silent run rest

end Passes

theorem skipSpaces_passes (here : lexer.At text) :
    ∃ rest, Passes lexer lexer.skipSpaces text rest .blank .blank ∧
      ∀ byte ∈ rest.head?, isSkipped byte = false := by
  induction text generalizing lexer with
  | nil =>
      rw [skipSpaces_nil here]
      exact ⟨[], .refl here _, by simp⟩
  | cons byte text inductionHypothesis =>
      cases skipped : isSkipped byte with
      | true =>
          obtain ⟨rest, passes, stops⟩ := inductionHypothesis here.nextChar
          rw [skipSpaces_skipped here skipped]
          have first : Mode.step .blank byte = ([], .blank) := by
            rw [step, enter_skipped skipped]
          exact ⟨rest, (Passes.nextChar here first).trans passes, stops⟩
      | false =>
          rw [skipSpaces_stop here skipped]
          exact ⟨_, .refl here _, by simpa using skipped⟩

theorem skipLine_passes (here : lexer.At text) :
    ∃ rest, Passes lexer lexer.skipLine text rest .line .line ∧
      ∀ byte ∈ rest.head?, byte = 0x0d ∨ byte = 0x0a := by
  induction text generalizing lexer with
  | nil =>
      rw [skipLine, dif_pos here.eof_nil]
      exact ⟨[], .refl here _, by simp⟩
  | cons byte text inductionHypothesis =>
      rw [skipLine, dif_neg (by simp [here.eof_cons]), here.1]
      simp only [Option.some.injEq]
      split
      next isLineEnd => exact ⟨_, .refl here _, by simpa using isLineEnd⟩
      next inside =>
        obtain ⟨rest, passes, stops⟩ := inductionHypothesis here.nextChar
        have first : Mode.step .line byte = ([], .line) := by
          rw [step, if_neg inside]
        exact ⟨rest, (Passes.nextChar here first).trans passes, stops⟩

/-- A comment is read up to its end, or to the end of the input. -/
theorem skipComment_passes
    {star : Bool}
    (here : lexer.At text)
    (inside : star = true → text.head? ≠ some 0x2f) :
    (∃ after rest, lexer.skipComment = (true, after) ∧
        Passes lexer after text rest (.comment star) .blank) ∨
      ∃ after, lexer.skipComment = (false, after) ∧ after.eof = true ∧
        after.stringValue = lexer.stringValue ∧
        scanner.output (.comment star) text = eofs := by
  induction text generalizing lexer star with
  | nil =>
      rw [skipComment, dif_pos here.eof_nil]
      exact .inr ⟨lexer, rfl, here.eof_nil, rfl, rfl⟩
  | cons byte text inductionHypothesis =>
      have first : Mode.step (.comment star) byte =
          ([], .comment (byte = 0x2a)) := by
        rw [step, if_neg]
        rintro ⟨isStar, isSlash⟩
        exact inside isStar (congrArg some isSlash)
      have goesOn : ∀ (next : ConfigLexer) (more : Bool),
          Passes lexer next (byte :: text) text (.comment star)
            (.comment more) →
          (more = true → text.head? ≠ some 0x2f) →
          (∃ after rest, next.skipComment = (true, after) ∧
              Passes lexer after (byte :: text) rest (.comment star) .blank) ∨
            ∃ after, next.skipComment = (false, after) ∧ after.eof = true ∧
              after.stringValue = lexer.stringValue ∧
              scanner.output (.comment star) (byte :: text) = eofs := by
        intro next more opened stays
        rcases inductionHypothesis opened.here stays with
          ⟨after, rest, read, passes⟩ | ⟨after, read, isEof, value, silent⟩
        · exact .inl ⟨after, rest, read, opened.trans passes⟩
        · exact .inr ⟨after, read, isEof, value.trans opened.value,
            opened.output.trans silent⟩
      rw [skipComment, dif_neg (by simp [here.eof_cons]), here.1]
      split
      next isStar =>
        cases Option.some.inj isStar
        have opened := Passes.peekChar_nextChar here first
        rw [here.peekChar_fst]
        split
        next isSlash =>
          obtain ⟨more, rfl⟩ := List.head?_eq_some_iff.mp isSlash
          exact .inl ⟨_, _, rfl, opened.trans (.nextChar opened.here rfl)⟩
        next noSlash => exact goesOn _ true opened fun _ => noSlash
      next noStar =>
        have other : decide (byte = 0x2a) = false := by simpa using noStar
        rw [other] at first
        exact goesOn _ false (.nextChar here first) (by simp)

/-- `consumeSpace` ends on a character that begins neither white space nor a
comment, apart from a peek behind a slash. -/
structure Pending
    (lexer after : ConfigLexer)
    (text : Bytes)
    (byte : UInt8)
    (rest : Bytes)
    (last : Mode) : Prop where
  read : lexer.consumeSpace =
    (true, if byte = 0x2f then after.peekChar.2 else after)
  passes : Passes lexer after text (byte :: rest) .blank last
  same : last.step byte = Mode.step .blank byte
  stops : isSkipped byte = false
  noComment : ¬ (byte = 0x23 ∨ byte = 0x2f ∧ rest.head? = some 0x2a)

/-- What `consumeSpace` reads: all that is left, or the white space before a
token. -/
inductive Spaced (lexer : ConfigLexer) (text : Bytes) : Prop
  | ended (after : ConfigLexer)
      (read : lexer.consumeSpace = (false, after))
      (isEof : after.eof = true)
      (value : after.stringValue = lexer.stringValue)
      (silent : scanner.output .blank text = eofs)
  | pending (after : ConfigLexer) (byte : UInt8) (rest : Bytes) (last : Mode)
      (pending : Pending lexer after text byte rest last)

/-- White space in front of what is read does not show. -/
theorem Spaced.behind
    {before : ConfigLexer}
    {front : Bytes}
    (spaced : Spaced lexer text)
    (passes : Passes before lexer front text .blank .blank)
    (goesOn : before.consumeSpace = lexer.consumeSpace) :
    Spaced before front := by
  cases spaced with
  | ended after read isEof value silent =>
      exact .ended after (goesOn.trans read) isEof (value.trans passes.value)
        (passes.output.trans silent)
  | pending after byte rest last pending =>
      exact .pending after byte rest last
        { pending with
          read := goesOn.trans pending.read
          passes := passes.trans pending.passes }

theorem step_line
    (isLineEnd : byte = 0x0d ∨ byte = 0x0a) :
    Mode.step .line byte = Mode.step .blank byte := by
  change (if byte = 0x0d ∨ byte = 0x0a then ([], enter byte) else _) = _
  rw [if_pos isLineEnd]
  rfl

theorem isSkipped_lineEnd
    (isLineEnd : byte = 0x0d ∨ byte = 0x0a) :
    isSkipped byte = false := by
  rcases isLineEnd with rfl | rfl <;> rfl

/-- From a comment that ends with the line. -/
theorem spaced_hash (here : lexer.At (0x23 :: text)) :
    Spaced lexer (0x23 :: text) := by
  have opened : Passes lexer lexer.nextChar (0x23 :: text) text .blank .line :=
    .nextChar here rfl
  obtain ⟨rest, inside, stops⟩ := skipLine_passes opened.here
  have passes := opened.trans inside
  have read : lexer.consumeSpace =
      if lexer.nextChar.skipLine.eof then
        (false, { lexer.nextChar.skipLine with currentToken := .eof })
      else (true, lexer.nextChar.skipLine) := by
    rw [consumeSpace, skipSpaces_stop here rfl,
      dif_neg (by simp [here.eof_cons])]
    dsimp only
    rw [here.1, if_neg (by decide), if_pos rfl]
  cases rest with
  | nil =>
      rw [if_pos passes.here.eof_nil] at read
      exact .ended _ read passes.here.eof_nil passes.value passes.output
  | cons byte rest =>
      have isLineEnd := stops byte rfl
      have noSlash : byte ≠ 0x2f ∧ byte ≠ 0x23 := by
        rcases isLineEnd with rfl | rfl <;> decide
      rw [if_neg (by simp [passes.here.eof_cons])] at read
      exact .pending _ byte rest .line ⟨by rw [read, if_neg noSlash.1], passes,
        step_line isLineEnd, isSkipped_lineEnd isLineEnd, by tauto⟩

theorem consumeSpace_spaced (here : lexer.At text) : Spaced lexer text := by
  induction bound : text.length using Nat.strongRecOn
    generalizing lexer text with
  | ind length inductionHypothesis =>
    obtain ⟨rest, passes, stops⟩ := skipSpaces_passes here
    have again : lexer.skipSpaces.skipSpaces = lexer.skipSpaces := by
      cases rest with
      | nil => exact skipSpaces_nil passes.here
      | cons byte rest => exact skipSpaces_stop passes.here (stops byte rfl)
    have goesOn : lexer.consumeSpace = lexer.skipSpaces.consumeSpace := by
      rw [consumeSpace, consumeSpace]
      simp only [again]
    refine Spaced.behind ?_ passes goesOn
    have there := passes.here
    have short : rest.length ≤ length := bound ▸ passes.length_le
    generalize lexer.skipSpaces = start at there
    cases rest with
    | nil =>
        exact .ended start (consumeSpace_nil there) there.eof_nil rfl rfl
    | cons byte rest =>
        have stop := stops byte rfl
        by_cases noComment :
          ¬ (byte = 0x23 ∨ byte = 0x2f ∧ rest.head? = some 0x2a)
        · exact .pending start byte rest .blank
            ⟨consumeSpace_stop there stop noComment, .refl there _, rfl, stop,
              noComment⟩
        rcases not_not.mp noComment with rfl | ⟨rfl, isStar⟩
        · exact spaced_hash there
        · obtain ⟨more, rfl⟩ := List.head?_eq_some_iff.mp isStar
          have opened : Passes start start.peekChar.2.nextChar
              (0x2f :: 0x2a :: more) (0x2a :: more) .blank .slash :=
            .peekChar_nextChar there rfl
          have inside := skipComment_passes opened.here
            (show false = true → _ by simp)
          have read : start.consumeSpace =
              if start.peekChar.2.nextChar.skipComment.1 then
                start.peekChar.2.nextChar.skipComment.2.consumeSpace
              else (false, { start.peekChar.2.nextChar.skipComment.2 with
                currentToken := .eof }) := by
            rw [consumeSpace, skipSpaces_stop there stop,
              dif_neg (by simp [there.eof_cons])]
            dsimp only
            rw [there.1, if_neg (by decide), if_neg (by decide), if_pos rfl,
              there.peekChar_fst, List.head?_cons, if_pos rfl]
          rcases inside with
            ⟨after, behind, closed, passed⟩ | ⟨after, open_, isEof, value, silent⟩
          · rw [closed, if_pos rfl] at read
            have whole := opened.trans (passed.start rfl (by simp))
            have less : behind.length < length :=
              Nat.lt_of_lt_of_le (Nat.lt_succ_of_le passed.length_le) short
            exact Spaced.behind (inductionHypothesis _ less passed.here rfl) whole
              read
          · rw [open_, if_neg Bool.false_ne_true] at read
            refine .ended _ read isEof (value.trans opened.value)
              (opened.output.trans ?_)
            rw [← silent, output_cons, output_cons]
            rfl

/-! ## Words and quoted values -/

/-- A word is read as far as it goes. -/
theorem takeWord_reads (here : lexer.At text) (front : Bytes) :
    ∃ used rest, text = used ++ rest ∧ lexer.takeWord.At rest ∧
      lexer.takeWord.stringValue = lexer.stringValue ++ used ∧
      scanner.run (.word front) used = ([], .word (front ++ used)) ∧
      ∀ byte ∈ rest.head?, isWord byte = false := by
  induction text generalizing lexer front with
  | nil =>
      have stops : lexer.takeWord = lexer := by
        rw [takeWord]
        split
        next => rfl
        next byte current =>
          rw [show lexer.currentChar = none from here] at current
          cases current
      rw [stops]
      exact ⟨[], [], rfl, here, by simp, by simp, by simp⟩
  | cons byte text inductionHypothesis =>
      have word : lexer.takeWord =
          if isWord byte then lexer.pushChar.nextChar.takeWord else lexer := by
        rw [takeWord]
        split
        next current => rw [here.1] at current; cases current
        next other current =>
          rw [here.1] at current
          cases current
          rfl
      rw [word]
      split
      next goesOn =>
        obtain ⟨pushed, appended⟩ := here.pushChar
        obtain ⟨used, rest, split, there, value, run, stops⟩ :=
          inductionHypothesis pushed.nextChar (front ++ [byte])
        have stepped : Mode.step (.word front) byte =
            ([], .word (front ++ [byte])) := by
          rw [step, if_pos goesOn]
        refine ⟨byte :: used, rest, by rw [split]; rfl, there, ?_, ?_, stops⟩
        · rw [value, stringValue_nextChar, appended, List.append_assoc]
          rfl
        · rw [run_cons stepped run, List.append_assoc]
          rfl
      next other =>
        exact ⟨[], _, rfl, here, by simp, by simp, by simpa using other⟩

/-- A quoted value is read up to the delimiter that ends it, or to the end of the
input. -/
theorem takeQuoted_reads
    {delim : UInt8}
    (here : lexer.At text)
    (last : Option UInt8)
    (front : Bytes) :
    (∃ payload rest, text = payload ++ delim :: rest ∧
        (lexer.takeQuoted (some delim) last).At (delim :: rest) ∧
        (lexer.takeQuoted (some delim) last).stringValue =
          lexer.stringValue ++ payload ∧
        scanner.run (.quoted delim last front) (payload ++ [delim]) =
          ([(.value, front ++ payload)], .blank)) ∨
      (lexer.takeQuoted (some delim) last).At [] ∧
        (lexer.takeQuoted (some delim) last).stringValue =
          lexer.stringValue ++ text ∧
        ∃ final, scanner.run (.quoted delim last front) text =
          ([], .quoted delim final (front ++ text)) := by
  induction text generalizing lexer last front with
  | nil =>
      rw [takeQuoted, dif_pos here.eof_nil]
      exact .inr ⟨here, by simp, last, by simp⟩
  | cons byte text inductionHypothesis =>
      rw [takeQuoted, dif_neg (by simp [here.eof_cons]), here.1]
      split
      next goesOn =>
        obtain ⟨pushed, appended⟩ := here.pushChar
        have stepped : Mode.step (.quoted delim last front) byte =
            ([], .quoted delim (some byte) (front ++ [byte])) := by
          rw [step, stepQuoted, if_neg]
          rintro ⟨rfl, noBackslash⟩
          exact goesOn.elim (fun differs => differs rfl) noBackslash
        rcases inductionHypothesis pushed.nextChar (some byte)
          (front ++ [byte]) with
            ⟨payload, rest, split, there, value, run⟩ |
              ⟨there, value, final, run⟩
        · refine .inl ⟨byte :: payload, rest, by rw [split]; rfl, there, ?_, ?_⟩
          · rw [value, stringValue_nextChar, appended, List.append_assoc]
            rfl
          · rw [List.cons_append, run_cons stepped run, List.append_assoc]
            rfl
        · refine .inr ⟨there, ?_, final, ?_⟩
          · rw [value, stringValue_nextChar, appended, List.append_assoc]
            rfl
          · rw [run_cons stepped run, List.append_assoc]
            rfl
      next stops =>
        rw [not_or, not_not] at stops
        obtain ⟨isDelim, noBackslash⟩ := stops
        cases Option.some.inj isDelim
        refine .inl ⟨[], text, rfl, here, by simp, ?_⟩
        have stepped : Mode.step (.quoted delim last front) delim =
            ([(.value, front)], .blank) := by
          rw [step, stepQuoted, if_pos ⟨rfl, noBackslash⟩]
        simp only [List.nil_append, List.append_nil, Transducer.run, scanner,
          stepped]

/-! ## Line ends -/

/-- Behind a line end the others are read, and what comes behind them, unless it
is a carriage return at the end of the input. -/
theorem skipLineEnds_reads (here : lexer.At text) :
    ∃ after, lexer.skipLineEnds true = (true, after) ∧
      after.stringValue = lexer.stringValue ∧
      ((∃ rest, Passes lexer after text rest .ends .ends ∧ Stops .ends rest) ∨
        after.eof = true ∧ after.currentChar ≠ none ∧
          scanner.output .ends text = prepend [endToken] eofs) := by
  induction bound : text.length using Nat.strongRecOn
    generalizing lexer text with
  | ind length inductionHypothesis =>
    have goesOn : ∀ (next : ConfigLexer) (rest : Bytes),
        Passes lexer next text rest .ends .ends → rest.length < text.length →
        ∃ after, next.skipLineEnds true = (true, after) ∧
          after.stringValue = lexer.stringValue ∧
          ((∃ rest, Passes lexer after text rest .ends .ends ∧
              Stops .ends rest) ∨
            after.eof = true ∧ after.currentChar ≠ none ∧
              scanner.output .ends text = prepend [endToken] eofs) := by
      intro next rest passes less
      obtain ⟨after, read, value, outcome⟩ :=
        inductionHypothesis _ (bound ▸ less) passes.here rfl
      refine ⟨after, read, value.trans passes.value, ?_⟩
      rcases outcome with ⟨behind, inner, stops⟩ | ⟨isEof, current, silent⟩
      · exact .inl ⟨behind, passes.trans inner, stops⟩
      · exact .inr ⟨isEof, current, passes.output.trans silent⟩
    cases text with
    | nil =>
        rw [skipLineEnds, dif_pos here.eof_nil]
        exact ⟨lexer, rfl, rfl, .inl ⟨[], .refl here _, by simp [Stops]⟩⟩
    | cons byte text =>
        rw [skipLineEnds, dif_neg (by simp [here.eof_cons]), here.1]
        split
        next isFeed =>
          cases Option.some.inj isFeed
          exact goesOn _ _ (.nextChar here rfl) (Nat.lt_succ_self _)
        next noFeed =>
          split
          next isCarriage =>
            cases Option.some.inj isCarriage
            have opened : Passes lexer lexer.peekChar.2.nextChar
                (0x0d :: text) text .ends .endsReturn :=
              .peekChar_nextChar here rfl
            rw [here.peekChar_fst]
            split
            next feed =>
              obtain ⟨more, rfl⟩ := List.head?_eq_some_iff.mp feed
              have closed := opened.trans (.nextChar opened.here rfl)
              exact goesOn _ _ closed
                (Nat.lt_succ_of_lt (Nat.lt_succ_self _))
            next noFeed =>
              cases text with
              | nil =>
                  refine ⟨_, rfl, rfl, .inr ⟨?_, ?_, rfl⟩⟩
                  · rw [eof, peekChar, here.2.1]
                    simp
                  · rw [currentChar_peekChar, here.1]
                    exact Option.some_ne_none _
              | cons next more =>
                  refine ⟨_, rfl, rfl, .inl ⟨_, ⟨here.peekChar (by simp), rfl,
                    [], rfl, rfl⟩, ?_⟩⟩
                  rintro _ _ ⟨⟩
                  exact ⟨by decide, fun _ => ⟨next, more, rfl,
                    by simpa using noFeed⟩⟩
          next noCarriage =>
            refine ⟨_, rfl, rfl, .inl ⟨_, .refl here _, ?_⟩⟩
            rintro _ _ ⟨⟩
            exact ⟨by simpa using noFeed,
              fun isCarriage => absurd (congrArg some isCarriage) noCarriage⟩

/-- A line end is read with all others behind it. -/
theorem consumeEndOfLine_reads
    (here : lexer.At (byte :: text))
    (isLineEnd : byte = 0x0a ∨ byte = 0x0d ∧ text.head? = some 0x0a) :
    ∃ after, lexer.consumeEndOfLine = (true, after) ∧
      after.stringValue = lexer.stringValue ++ bytes "LF" ∧
      ((∃ used rest, text = used ++ rest ∧ after.At rest ∧
          scanner.run .blank (byte :: used) = ([], .ends) ∧
          Stops .ends rest) ∨
        after.eof = true ∧ after.currentChar ≠ none ∧
          scanner.output .blank (byte :: text) = prepend [endToken] eofs) := by
  obtain ⟨next, behind, first, passes⟩ : ∃ (next : ConfigLexer) (behind : Bytes),
      lexer.skipLineEnds false = next.skipLineEnds true ∧
        Passes lexer next (byte :: text) behind .blank .ends := by
    rw [skipLineEnds, dif_neg (by simp [here.eof_cons]), here.1]
    rcases isLineEnd with rfl | ⟨rfl, feed⟩
    · exact ⟨_, _, by rw [if_pos rfl], .nextChar here rfl⟩
    · have opened : Passes lexer lexer.peekChar.2.nextChar (0x0d :: text) text
          .blank .carriage := .peekChar_nextChar here rfl
      obtain ⟨more, rfl⟩ := List.head?_eq_some_iff.mp feed
      refine ⟨_, _, ?_, opened.trans (.nextChar opened.here rfl)⟩
      rw [if_neg (by decide), if_pos rfl, here.peekChar_fst, List.head?_cons,
        if_pos rfl]
  obtain ⟨after, read, value, outcome⟩ := skipLineEnds_reads passes.here
  refine ⟨_, by rw [consumeEndOfLine, first, read, if_pos rfl], ?_, ?_⟩
  · dsimp only
    rw [value, passes.value]
  rcases outcome with ⟨rest, inner, stops⟩ | ⟨isEof, current, silent⟩
  · have whole := passes.trans inner
    obtain ⟨used, split, run⟩ := whole.run
    cases used with
    | nil => cases congrArg Prod.snd run
    | cons head used =>
        obtain ⟨rfl, rfl⟩ := List.cons.inj split
        refine .inl ⟨used, rest, rfl, ?_, run, stops⟩
        cases rest with
        | nil => exact whole.here
        | cons => exact whole.here
  · exact .inr ⟨isEof, current, passes.output.trans silent⟩

/-! ## Tokens -/

/-- What a call of `nextToken` reads. -/
inductive Scanned (lexer : ConfigLexer) (text : Bytes) : Prop
  /-- A token, up to where it ends. -/
  | read (used rest : Bytes)
      (split : text = used ++ rest)
      (here : lexer.nextToken.At rest)
      (delivers : Delivers lexer.nextToken.current (scanner.run .blank used))
      (stops : Stops (scanner.run .blank used).2 rest)
  /-- All that is left. -/
  | last
      (isEof : lexer.nextToken.eof = true)
      (kind : lexer.nextToken.currentToken = .eof ∨
        lexer.nextToken.currentToken = .unknown ∨
          lexer.nextToken.currentChar ≠ none)
      (silent : scanner.output .blank text =
        prepend [lexer.nextToken.current] eofs)
  /-- Nothing but white space, up to a stray character. -/
  | stray (rest : Bytes)
      (here : lexer.nextToken.At rest)
      (current : lexer.nextToken.current = (.unknown, []))
      (same : scanner.output .blank text = unknowns)
      (again : scanner.output .blank rest = unknowns)

/-- Behind white space, `nextToken` reads line ends or a token. -/
theorem nextToken_eq
    {found : ConfigLexer}
    (read : { lexer with stringValue := [] }.consumeSpace = (true, found)) :
    lexer.nextToken =
      if found.consumeEndOfLine.1 then
        setToken (.end, found.consumeEndOfLine.2)
      else setToken found.consumeEndOfLine.2.parseToken := by
  rw [nextToken, read]
  rfl

namespace Pending

variable {after : ConfigLexer}
variable {last : Mode}

theorem output (pending : Pending lexer after text byte rest last) :
    scanner.output .blank text = scanner.output .blank (byte :: rest) := by
  rw [pending.passes.output, output_cons, pending.same, ← output_cons]

/-- What is read from the character on is read from the white space on. -/
theorem run
    {used behind : Bytes}
    (pending : Pending lexer after text byte (used ++ behind) last) :
    ∃ front, text = front ++ behind ∧
      scanner.run .blank front = scanner.run .blank (byte :: used) := by
  obtain ⟨white, rfl, silent⟩ := pending.passes.run
  refine ⟨white ++ byte :: used, by simp, ?_⟩
  rw [Transducer.run_append, silent]
  simp only [Transducer.run, scanner, pending.same, List.nil_append]

theorem scanned_lineEnd
    (pending : Pending { lexer with stringValue := [] } after text byte rest
      last)
    (isLineEnd : byte = 0x0a ∨ byte = 0x0d ∧ rest.head? = some 0x0a) :
    Scanned lexer text := by
  have noSlash : byte ≠ 0x2f := by
    rcases isLineEnd with rfl | ⟨rfl, -⟩ <;> decide
  obtain ⟨found, lines, value, outcome⟩ :=
    consumeEndOfLine_reads pending.passes.here isLineEnd
  have read := pending.read
  rw [if_neg noSlash] at read
  have next := nextToken_eq read
  rw [lines, if_pos rfl] at next
  have current : lexer.nextToken.current = endToken := by
    rw [next, ConfigLexer.current, setToken, value, pending.passes.value]
    rfl
  rcases outcome with ⟨used, behind, rfl, there, run, stops⟩ |
    ⟨isEof, more, silent⟩
  · obtain ⟨front, split, whole⟩ := pending.run
    refine .read front behind split ?_ ?_ ?_
    · rw [next]
      cases behind with
      | nil => exact there
      | cons => exact there
    · rw [whole, run, current]
      exact .ends rfl
    · rw [whole, run]
      exact stops
  · refine .last ?_ (.inr (.inr ?_)) ?_
    · rw [next]
      exact isEof
    · rw [next]
      exact more
    · rw [current]
      exact pending.output.trans silent

/-- A carriage return that no line feed comes behind stays where it is. -/
theorem scanned_carriage
    (pending : Pending { lexer with stringValue := [] } after text 0x0d rest
      last)
    (noFeed : rest.head? ≠ some 0x0a) :
    Scanned lexer text := by
  have here := pending.passes.here
  have read := pending.read
  rw [if_neg (by decide)] at read
  have next := nextToken_eq read
  rw [consumeEndOfLine_stop here (by simpa using noFeed),
    if_neg Bool.false_ne_true, if_pos rfl] at next
  have unread : after.peekChar.2.parseToken = (.unknown, after.peekChar.2) :=
    parseToken_other here.1 rfl
  dsimp only at next
  rw [unread] at next
  have current : lexer.nextToken.current = (.unknown, []) := by
    rw [next]
    exact Prod.ext rfl pending.passes.value
  cases rest with
  | nil =>
      refine .last ?_ (.inr (.inl ?_)) ?_
      · rw [next, eof, setToken, peekChar, here.2.1]
        simp
      · rw [next]
        rfl
      · rw [current]
        exact pending.output
  | cons byte rest =>
      have differs : byte ≠ 0x0a := by simpa using noFeed
      have same := output_carriage differs rest
      refine .stray (0x0d :: byte :: rest) ?_ current
        (pending.output.trans same) same
      rw [next]
      exact here.peekChar (by simp)

/-- Where no line end is, `nextToken` parses a token. -/
theorem nextToken_parses
    (pending : Pending { lexer with stringValue := [] } after text byte rest
      last)
    (noLineEnd : byte ≠ 0x0a ∧ byte ≠ 0x0d) :
    lexer.nextToken = setToken
      (if byte = 0x2f then after.peekChar.2 else after).parseToken := by
  have current : (if byte = 0x2f then after.peekChar.2 else after).currentChar =
      some byte := by
    split <;> exact pending.passes.here.1
  rw [nextToken_eq pending.read, consumeEndOfLine_other current noLineEnd]
  rfl

/-- A letter or a digit begins a word. -/
theorem scanned_word
    (pending : Pending { lexer with stringValue := [] } after text byte rest
      last)
    (word : isAlpha byte = true ∨ isDigit byte = true) :
    Scanned lexer text := by
  have facts : isFirst byte = true ∧ ¬ (byte = 0x22 ∨ byte = 0x27) ∧
      byte ≠ 0x2f ∧ byte ≠ 0x0a ∧ byte ≠ 0x0d :=
    word.elim isFirst_of_isAlpha isFirst_of_isDigit
  obtain ⟨-, noQuote, noSlash, noLineEnd⟩ := facts
  have noHash : byte ≠ 0x23 := fun isHash => pending.noComment (.inl isHash)
  have entered : enter byte = .word [byte] := by
    rw [enter, if_neg noLineEnd.1, if_neg noLineEnd.2, pending.stops,
      if_neg Bool.false_ne_true, if_neg noHash, if_neg noSlash, if_neg noQuote,
      if_pos word]
  have here := pending.passes.here
  obtain ⟨pushed, appended⟩ := here.pushChar
  obtain ⟨used, behind, rfl, there, value, run, stops⟩ :=
    takeWord_reads pushed.nextChar [byte]
  rw [stringValue_nextChar, appended, pending.passes.value, List.nil_append]
    at value
  have next := pending.nextToken_parses noLineEnd
  rw [if_neg noSlash, parseToken, here.1] at next
  dsimp only at next
  rw [if_neg noQuote, if_neg noSlash] at next
  have parsed : lexer.nextToken = setToken ((wordToken (byte :: used)).1,
      after.pushChar.nextChar.takeWord) := by
    rw [next]
    cases digit : isDigit byte with
    | true =>
        rw [not_isAlpha_of_isDigit digit, if_neg Bool.false_ne_true,
          if_pos rfl, parseValue, wordToken, List.head?_cons, Option.any_some,
          digit, if_pos rfl]
    | false =>
        rw [if_pos (word.resolve_right (by simp [digit])), parseName, value,
          wordToken, List.head?_cons, Option.any_some, digit,
          if_neg Bool.false_ne_true]
        rfl
  obtain ⟨front, split, whole⟩ := pending.run
  have ran : scanner.run .blank (byte :: used) = ([], .word (byte :: used)) := by
    apply run_cons _ run
    rw [step, entered]
  refine .read front behind split ?_ ?_ ?_
  · rw [parsed]
    cases behind with
    | nil => exact there
    | cons => exact there
  · rw [whole, ran, parsed]
    refine .word _ ?_
    rw [ConfigLexer.current, setToken, value]
    have kept : (wordToken (byte :: used)).2 = byte :: used := by
      unfold wordToken
      split <;> rfl
    exact Prod.ext rfl kept
  · rw [whole, ran]
    exact stops

/-- A quotation mark, or a slash that begins no comment, begins a quoted
value. -/
theorem scanned_quoted
    (pending : Pending { lexer with stringValue := [] } after text byte rest
      last)
    (quote : byte = 0x22 ∨ byte = 0x27 ∨ byte = 0x2f) :
    Scanned lexer text := by
  have noLineEnd : byte ≠ 0x0a ∧ byte ≠ 0x0d := by
    rcases quote with rfl | rfl | rfl <;> decide
  have noStar : byte = 0x2f → rest.head? ≠ some 0x2a :=
    fun isSlash isStar => pending.noComment (.inr ⟨isSlash, isStar⟩)
  have here := pending.passes.here
  have next := pending.nextToken_parses noLineEnd
  have opened :
      (if byte = 0x2f then after.peekChar.2 else after).currentChar =
          some byte ∧
        (if byte = 0x2f then after.peekChar.2 else after).nextChar.At rest ∧
        (if byte = 0x2f then after.peekChar.2 else after).nextChar.stringValue =
          [] := by
    split
    · have moved : Passes after after.peekChar.2.nextChar (byte :: rest) rest
          .blank (enter byte) := .peekChar_nextChar here rfl
      exact ⟨here.1, moved.here, moved.value.trans pending.passes.value⟩
    · exact ⟨here.1, here.nextChar,
        (stringValue_nextChar _).trans pending.passes.value⟩
  generalize (if byte = 0x2f then after.peekChar.2 else after) = start
    at opened next
  obtain ⟨current, inside, value⟩ := opened
  have string : start.parseToken = start.parseString := by
    rw [parseToken, current]
    dsimp only
    rcases quote with rfl | rfl | rfl <;> rfl
  rw [string, parseString, current] at next
  rcases @takeQuoted_reads _ _ byte inside none [] with
    ⟨payload, behind, rfl, there, taken, run⟩ | ⟨there, taken, final, run⟩
  · rw [there.1, if_pos rfl] at next
    rw [value, List.nil_append] at taken
    rw [List.nil_append] at run
    have token : lexer.nextToken.current = (.value, payload) := by
      rw [next]
      exact Prod.ext rfl ((stringValue_nextChar _).trans taken)
    have split : payload ++ byte :: behind = (payload ++ [byte]) ++ behind := by
      simp
    rw [split] at pending noStar
    obtain ⟨front, split, whole⟩ := pending.run
    have noStarHere : byte = 0x2f → (payload ++ [byte]).head? ≠ some 0x2a := by
      intro isSlash
      have other := noStar isSlash
      cases payload with
      | nil => exact other
      | cons => exact other
    have ran := run_quote quote noStarHere (by simp)
    rw [run] at ran
    refine .read front behind split ?_ ?_ ?_
    · rw [next]
      have closed := there.nextChar
      cases behind with
      | nil => exact closed
      | cons => exact closed
    · rw [whole, ran, token]
      exact .closed
    · rw [whole, ran]
      trivial
  · rw [show (start.nextChar.takeQuoted (some byte) none).currentChar = none
      from there, if_neg (by simp)] at next
    rw [value, List.nil_append] at taken
    have token : lexer.nextToken.current = (.unknown, rest) := by
      rw [next]
      exact Prod.ext rfl taken
    refine .last ?_ (.inr (.inl ?_)) ?_
    · rw [next]
      exact there.eof_nil
    · rw [next]
      rfl
    · rw [token, pending.output]
      by_cases nonempty : rest = []
      · subst nonempty
        rcases quote with rfl | rfl | rfl <;> rfl
      · rw [Transducer.output, run_quote quote noStar nonempty, run]
        rfl

/-- Any other character stays where it is. -/
theorem scanned_stray
    (pending : Pending { lexer with stringValue := [] } after text byte rest
      last)
    (noLineEnd : byte ≠ 0x0a ∧ byte ≠ 0x0d)
    (noInitial : isInitial byte = false) :
    Scanned lexer text := by
  have initial := noInitial
  rw [isInitial, Bool.or_eq_false_iff, Bool.or_eq_false_iff,
    decide_eq_false_iff_not] at initial
  obtain ⟨⟨noQuote, noAlpha⟩, noDigit⟩ := initial
  have noSlash : byte ≠ 0x2f := fun isSlash => noQuote (.inr (.inr isSlash))
  have noHash : byte ≠ 0x23 := fun isHash => pending.noComment (.inl isHash)
  have here := pending.passes.here
  have entered : enter byte = .stuck := by
    rw [enter, if_neg noLineEnd.1, if_neg noLineEnd.2, pending.stops,
      if_neg Bool.false_ne_true, if_neg noHash, if_neg noSlash,
      if_neg (by tauto), if_neg (by simp [noAlpha, noDigit])]
  have same : scanner.output .blank (byte :: rest) = unknowns := by
    rw [output_cons, step, entered]
    exact output_stuck rest
  have next := pending.nextToken_parses noLineEnd
  rw [if_neg noSlash, parseToken_other here.1 noInitial] at next
  refine .stray (byte :: rest) ?_ ?_ (pending.output.trans same) same
  · rw [next]
    exact here
  · rw [next]
    exact Prod.ext rfl pending.passes.value

end Pending

/-- Every call reads a token, all that is left, or nothing but white space. -/
theorem nextToken_scanned (here : lexer.At text) : Scanned lexer text := by
  cases consumeSpace_spaced here.clear with
  | ended after read isEof value silent =>
      have next : lexer.nextToken = setToken (.eof, after) := by
        rw [nextToken, read]
        rfl
      have current : lexer.nextToken.current = (.eof, []) := by
        rw [next]
        exact Prod.ext rfl value
      refine .last ?_ (.inl ?_) ?_
      · rw [next]
        exact isEof
      · rw [next]
        rfl
      · rw [current, silent]
        funext count
        cases count <;> rfl
  | pending after byte rest last pending =>
      by_cases isFeed : byte = 0x0a
      · exact pending.scanned_lineEnd (.inl isFeed)
      by_cases isCarriage : byte = 0x0d
      · by_cases feed : rest.head? = some 0x0a
        · exact pending.scanned_lineEnd (.inr ⟨isCarriage, feed⟩)
        · subst isCarriage
          exact pending.scanned_carriage feed
      cases initial : isInitial byte with
      | false => exact pending.scanned_stray ⟨isFeed, isCarriage⟩ initial
      | true =>
          rw [isInitial, Bool.or_eq_true, Bool.or_eq_true, decide_eq_true_iff,
            or_assoc] at initial
          rcases initial with quote | word
          · exact pending.scanned_quoted quote
          · exact pending.scanned_word word

/-! ## The lexer refines the scanner -/

/-- What the lexer has not read yet, and nothing when it takes the input for
ended. -/
def unread (lexer : ConfigLexer) : Bytes :=
  if lexer.eof then [] else lexer.currentChar.toList ++ lexer.rest

theorem At.unread (here : lexer.At text) : lexer.unread = text := by
  cases text with
  | nil => rw [ConfigLexer.unread, if_pos here.eof_nil]
  | cons byte text =>
      rw [ConfigLexer.unread, if_neg (by simp [here.eof_cons]), here.1, here.2.1]
      rfl

theorem unread_eof (isEof : lexer.eof = true) : lexer.unread = [] := by
  rw [unread, if_pos isEof]

theorem eofs_eq : eofs = prepend [(.eof, [])] eofs := by
  funext count
  cases count <;> rfl

/-- The scanner puts out what a call returns, and then what it puts out for the
rest. -/
theorem output_unread (lexer : ConfigLexer) :
    scanner.output .blank lexer.unread =
      prepend [lexer.nextToken.current]
        (scanner.output .blank lexer.nextToken.unread) := by
  cases more : lexer.eof with
  | true =>
      have next : lexer.nextToken =
          setToken (.eof, { lexer with stringValue := [] }) := by
        have ended : ({ lexer with stringValue := [] } : ConfigLexer).eof = true :=
          more
        rw [nextToken, consumeSpace_eof ended]
        rfl
      rw [unread_eof more, unread_eof (by rw [next]; exact more), next]
      exact eofs_eq
  | false =>
      obtain ⟨byte, rest, here⟩ := exists_at more
      rw [here.unread]
      cases nextToken_scanned here with
      | read used behind split there delivers stops =>
          rw [there.unread, split, Transducer.output_append]
          exact delivers.output stops
      | last isEof _ silent =>
          rw [unread_eof isEof]
          exact silent
      | stray behind there current same again =>
          rw [there.unread, again, current, same]
          funext count
          cases count <;> rfl

end ConfigLexer

open ConfigLexer

/-- The calls of `nextToken` return what the scanner puts out for what has not
been read. -/
theorem iterate_eq_output
    (lexer : ConfigLexer)
    (count : Nat) :
    (nextToken^[count] lexer.nextToken).current =
      scanner.output .blank lexer.unread count := by
  induction count generalizing lexer with
  | zero =>
      rw [output_unread]
      rfl
  | succ count inductionHypothesis =>
      rw [Function.iterate_succ_apply, inductionHypothesis, output_unread lexer]
      rfl

/-- The tokens of a text are what the scanner puts out for it. -/
theorem tokens_eq_output
    (label text : Bytes)
    (count : Nat) :
    (nextToken^[count] (create label text)).current =
      scanner.output .blank text count := by
  have start : ({ label := label, rest := text } : ConfigLexer).At
      (0 :: text) := ⟨rfl, rfl, rfl⟩
  rw [create, iterate_eq_output, start.unread]
  rfl

end Config
end EvCollect
