import Mathlib.Data.Int.Order.Basic
import EvCollect.Config.Termination

/-!
# Positions

The functions of the lexer read characters one after the other, so the line and
the column of a lexer are those of what has been read. On the first line the
column is the number of characters read; on the others it is one more.
-/

namespace EvCollect
namespace Config
namespace ConfigLexer

/-- What the positions of a lexer depend on. -/
def place (lexer : ConfigLexer) : ConfigLexer :=
  { lexer with
    ended := false
    currentToken := .unknown
    stringValue := [] }

/-- The place behind one more character. -/
def nextPlace (lexer : ConfigLexer) : ConfigLexer :=
  lexer.nextChar.place

theorem place_nextChar (lexer : ConfigLexer) :
    lexer.nextChar.place = lexer.place.nextPlace := by
  obtain ⟨label, rest, ended, token, line, column, current, value⟩ := lexer
  cases current with
  | none => rfl
  | some byte =>
      cases rest with
      | nil => rfl
      | cons next rest =>
          by_cases newline : next = 0x0a
          · simp [nextPlace, nextChar, place, newline]
          · simp [nextPlace, nextChar, place, newline]

/-- A lexer that reading some characters leads to. -/
def Advances (after before : ConfigLexer) : Prop :=
  ∃ count, after.place = nextPlace^[count] before.place

namespace Advances

variable {last middle first : ConfigLexer}

theorem of_place (same : last.place = first.place) : last.Advances first :=
  ⟨0, same⟩

theorem refl (lexer : ConfigLexer) : lexer.Advances lexer :=
  .of_place rfl

theorem trans
    (second : last.Advances middle)
    (start : middle.Advances first) : last.Advances first := by
  obtain ⟨more, isLast⟩ := second
  obtain ⟨count, isMiddle⟩ := start
  refine ⟨more + count, ?_⟩
  rw [isLast, isMiddle, Function.iterate_add_apply]

theorem next
    (second : last.Advances middle.nextChar)
    (start : middle.Advances first) : last.Advances first :=
  (second.trans ⟨1, place_nextChar middle⟩).trans start

end Advances

theorem nextChar_advances (lexer : ConfigLexer) :
    lexer.nextChar.Advances lexer :=
  .next (.refl _) (.refl _)

theorem skipSpaces_advances (lexer : ConfigLexer) :
    lexer.skipSpaces.Advances lexer := by
  fun_induction skipSpaces lexer with
  | case1 lexer => exact .refl lexer
  | case2 lexer => exact .refl lexer
  | case3 lexer => exact .refl lexer
  | case4 lexer _ _ _ _ _ inductionHypothesis =>
      exact inductionHypothesis.next (.refl lexer)
  | case5 lexer => exact .refl lexer
  | case6 lexer _ _ _ _ _ _ inductionHypothesis =>
      exact inductionHypothesis.next (.refl lexer)

theorem skipLine_advances (lexer : ConfigLexer) :
    lexer.skipLine.Advances lexer := by
  fun_induction skipLine lexer with
  | case1 lexer => exact .refl lexer
  | case2 lexer => exact .refl lexer
  | case3 lexer _ _ inductionHypothesis =>
      exact inductionHypothesis.next (.refl lexer)

theorem skipComment_advances (lexer : ConfigLexer) :
    lexer.skipComment.2.Advances lexer := by
  fun_induction skipComment lexer with
  | case1 lexer => exact .refl lexer
  | case2 lexer => exact .next (nextChar_advances _) (.of_place rfl)
  | case3 lexer _ _ _ inductionHypothesis =>
      exact inductionHypothesis.next (.of_place rfl)
  | case4 lexer _ _ inductionHypothesis =>
      exact inductionHypothesis.next (.refl lexer)

theorem consumeSpace_advances (lexer : ConfigLexer) :
    lexer.consumeSpace.2.Advances lexer := by
  fun_induction consumeSpace lexer with
  | case1 start => exact skipSpaces_advances start
  | case2 start => exact skipSpaces_advances start
  | case3 start =>
      exact Advances.trans (.of_place rfl) ((skipLine_advances _).next
        (skipSpaces_advances start))
  | case4 start => exact (skipLine_advances _).next (skipSpaces_advances start)
  | case5 start _ _ _ _ _ _ closed _ inductionHypothesis =>
      have spaces : start.skipSpaces.peekChar.2.Advances start :=
        Advances.trans (.of_place rfl) (skipSpaces_advances start)
      exact inductionHypothesis.trans ((skipComment_advances _).next spaces)
  | case6 start =>
      have spaces : start.skipSpaces.peekChar.2.Advances start :=
        Advances.trans (.of_place rfl) (skipSpaces_advances start)
      exact Advances.trans (.of_place rfl) ((skipComment_advances _).next spaces)
  | case7 start => exact Advances.trans (.of_place rfl) (skipSpaces_advances start)
  | case8 start => exact skipSpaces_advances start

theorem skipLineEnds_advances (found : Bool) (lexer : ConfigLexer) :
    (lexer.skipLineEnds found).2.Advances lexer := by
  fun_induction skipLineEnds found lexer with
  | case1 _ lexer => exact .refl lexer
  | case2 _ lexer _ _ inductionHypothesis =>
      exact inductionHypothesis.next (.refl lexer)
  | case3 _ lexer _ _ _ _ inductionHypothesis =>
      exact inductionHypothesis.next ((nextChar_advances _).trans (.of_place rfl))
  | case4 _ lexer => exact .of_place rfl
  | case5 _ lexer => exact .refl lexer

theorem consumeEndOfLine_advances (lexer : ConfigLexer) :
    lexer.consumeEndOfLine.2.Advances lexer := by
  have skipped := skipLineEnds_advances false lexer
  rw [consumeEndOfLine]
  split
  · exact Advances.trans (.of_place rfl) skipped
  · exact skipped

theorem takeWord_advances (lexer : ConfigLexer) :
    lexer.takeWord.Advances lexer := by
  fun_induction takeWord lexer with
  | case1 lexer => exact .refl lexer
  | case2 lexer _ _ _ inductionHypothesis =>
      exact inductionHypothesis.next (.of_place rfl)
  | case3 lexer => exact .refl lexer

theorem takeQuoted_advances (delim last : Option UInt8) (lexer : ConfigLexer) :
    (lexer.takeQuoted delim last).Advances lexer := by
  fun_induction takeQuoted delim last lexer with
  | case1 _ lexer => exact .refl lexer
  | case2 _ lexer _ _ inductionHypothesis =>
      exact inductionHypothesis.next (.of_place rfl)
  | case3 _ lexer => exact .refl lexer

theorem parseToken_advances (lexer : ConfigLexer) :
    lexer.parseToken.2.Advances lexer := by
  have quoted : lexer.parseString.2.Advances lexer := by
    have taken := (takeQuoted_advances lexer.currentChar none lexer.nextChar).next
      (.refl lexer)
    rw [parseString]
    split
    · exact (nextChar_advances _).trans taken
    · exact taken
  have word : lexer.pushChar.nextChar.takeWord.Advances lexer :=
    (takeWord_advances _).next (.of_place rfl)
  rw [parseToken]
  repeat' split
  · exact .refl lexer
  · exact quoted
  · exact quoted
  · exact word
  · exact word
  · exact .refl lexer

/-- `nextToken` reads characters one after the other. -/
theorem nextToken_advances (lexer : ConfigLexer) :
    lexer.nextToken.Advances lexer := by
  have spaced : { lexer with stringValue := [] }.consumeSpace.2.Advances lexer :=
    (consumeSpace_advances _).trans (.of_place rfl)
  have lines := (consumeEndOfLine_advances _).trans spaced
  rw [nextToken]
  dsimp only
  split
  · exact Advances.trans (.of_place rfl) spaced
  · split
    · exact Advances.trans (.of_place rfl) lines
    · exact Advances.trans (.of_place rfl) ((parseToken_advances _).trans lines)

end ConfigLexer

/-! ## Lines and columns -/

/-- The line on which the last character of a text stands. -/
def lineNr (read : Bytes) : Nat :=
  1 + read.count 0x0a

/-- What has been read of the last line. -/
def lastLine (read : Bytes) : Bytes :=
  (read.reverse.takeWhile (· ≠ 0x0a)).reverse

/-- The column of the last character of a text: a line feed itself is in column
one of the line that it begins. -/
def column (read : Bytes) : Nat :=
  (lastLine read).length + if 0x0a ∈ read then 1 else 0

theorem lineNr_append (read : Bytes) (byte : UInt8) :
    lineNr (read ++ [byte]) =
      lineNr read + if byte = 0x0a then 1 else 0 := by
  rw [lineNr, lineNr, List.count_append, List.count_singleton, Nat.add_assoc]
  simp only [beq_iff_eq]

theorem column_append_newline (read : Bytes) :
    column (read ++ [0x0a]) = 1 := by
  rw [column, lastLine, List.reverse_append, List.reverse_singleton,
    if_pos (List.mem_append_right _ (List.mem_singleton_self _))]
  rfl

theorem column_append
    {byte : UInt8}
    (inLine : byte ≠ 0x0a)
    (read : Bytes) : column (read ++ [byte]) = column read + 1 := by
  have same : 0x0a ∈ read ++ [byte] ↔ 0x0a ∈ read := by
    rw [List.mem_append, List.mem_singleton, or_iff_left inLine.symm]
  rw [column, column, lastLine, lastLine, List.reverse_append,
    List.reverse_singleton, List.singleton_append,
    List.takeWhile_cons_of_pos (by simpa using inLine), List.length_reverse,
    List.length_cons, List.length_reverse, if_congr same rfl rfl]
  omega

theorem lineNr_le (read : Bytes) : lineNr read ≤ read.length + 1 := by
  have count := List.count_le_length (a := (0x0a : UInt8)) (l := read)
  rw [lineNr]
  omega

theorem column_le (read : Bytes) : column read ≤ read.length + 1 := by
  have prefixed := (List.takeWhile_prefix (l := read.reverse)
    (fun byte => byte ≠ 0x0a)).length_le
  rw [List.length_reverse] at prefixed
  rw [column, lastLine, List.length_reverse]
  split <;> omega

/-- The positions of a lexer are those of what it has read of a text. At the end
of the text the column is one more. -/
structure Position (label config : Bytes) (lexer : ConfigLexer) : Prop where
  label : lexer.label = label
  read : ∃ read, config = read ++ lexer.rest ∧
    lexer.currentLineNr = Int32.ofNat (lineNr read) ∧
    lexer.currentColumn =
      Int32.ofNat (column read + if lexer.currentChar = none then 1 else 0)
  ended : lexer.currentChar = none → lexer.rest = []

namespace Position

variable {label config : Bytes}
variable {before after : ConfigLexer}

theorem of_place
    (position : Position label config before)
    (same : after.place = before.place) : Position label config after := by
  have places : ∀ lexer : ConfigLexer, lexer.place.rest = lexer.rest ∧
      lexer.place.currentChar = lexer.currentChar := fun _ => ⟨rfl, rfl⟩
  have rest : after.rest = before.rest := by
    rw [← (places after).1, same, (places before).1]
  have current : after.currentChar = before.currentChar := by
    rw [← (places after).2, same, (places before).2]
  obtain ⟨read, isRead, line, column⟩ := position.read
  exact {
    label := (congrArg ConfigLexer.label same).trans position.label
    read := ⟨read, by rw [rest, isRead],
      (congrArg ConfigLexer.currentLineNr same).trans line,
      by rw [current]; exact (congrArg ConfigLexer.currentColumn same).trans column⟩
    ended := by rw [rest, current]; exact position.ended }

theorem initial (label config : Bytes) :
    Position label config { label := label, rest := config } where
  label := rfl
  read := ⟨[], rfl, rfl, rfl⟩
  ended := nofun

/-- At the end of the text. -/
theorem nextChar_nil
    {byte : UInt8}
    (current : before.currentChar = some byte)
    (input : before.rest = []) :
    before.nextChar = { before with
      ended := true
      currentChar := none
      currentColumn := before.currentColumn + 1 } := by
  rw [ConfigLexer.nextChar, current, input]

theorem nextChar_newline
    {byte : UInt8}
    {rest : Bytes}
    (current : before.currentChar = some byte)
    (input : before.rest = 0x0a :: rest) :
    before.nextChar = { before with
      rest := rest
      currentChar := some 0x0a
      currentLineNr := before.currentLineNr + 1
      currentColumn := 1 } := by
  rw [ConfigLexer.nextChar, current, input]
  exact if_neg (not_not_intro rfl)

theorem nextChar_inLine
    {byte next : UInt8}
    {rest : Bytes}
    (current : before.currentChar = some byte)
    (input : before.rest = next :: rest)
    (inLine : next ≠ 0x0a) :
    before.nextChar = { before with
      rest := rest
      currentChar := some next
      currentColumn := before.currentColumn + 1 } := by
  rw [ConfigLexer.nextChar, current, input]
  exact if_pos inLine

theorem nextChar
    (position : Position label config before) :
    Position label config before.nextChar := by
  obtain ⟨read, isRead, line, column⟩ := position.read
  cases current : before.currentChar with
  | none =>
      have same : before.nextChar = before := by rw [ConfigLexer.nextChar, current]
      rw [same]
      exact position
  | some byte =>
      rw [current, if_neg (Option.some_ne_none byte), Nat.add_zero] at column
      cases input : before.rest with
      | nil =>
          rw [nextChar_nil current input]
          exact {
            label := position.label
            read := ⟨read, isRead, line, by
              rw [if_pos rfl, Int32.ofNat_add, column]; rfl⟩
            ended := fun _ => input }
      | cons next rest =>
          have isRead' : config = (read ++ [next]) ++ rest := by
            rw [isRead, input, List.append_assoc, List.singleton_append]
          by_cases newline : next = 0x0a
          · subst newline
            rw [nextChar_newline current input]
            exact {
              label := position.label
              read := ⟨read ++ [0x0a], isRead', by
                  rw [lineNr_append, if_pos rfl, Int32.ofNat_add, line]; rfl, by
                  rw [column_append_newline]; rfl⟩
              ended := fun ends => absurd ends (Option.some_ne_none _) }
          · rw [nextChar_inLine current input newline]
            exact {
              label := position.label
              read := ⟨read ++ [next], isRead', by
                  rw [lineNr_append, if_neg newline, Nat.add_zero]; exact line, by
                  rw [column_append newline, if_neg (Option.some_ne_none next),
                    Nat.add_zero, Int32.ofNat_add, column]; rfl⟩
              ended := fun ends => absurd ends (Option.some_ne_none _) }

/-- Reading any number of characters keeps the positions right. -/
theorem advance
    (position : Position label config before)
    (advances : after.Advances before) : Position label config after := by
  obtain ⟨count, isAfter⟩ := advances
  suffices kept : ∀ count, Position label config
      (ConfigLexer.nextPlace^[count] before.place) from
    (kept count).of_place (isAfter ▸ rfl)
  intro count
  induction count with
  | zero => exact position.of_place rfl
  | succ count inductionHypothesis =>
      rw [Function.iterate_succ_apply']
      exact inductionHypothesis.nextChar.of_place rfl

theorem nextToken
    (position : Position label config before) :
    Position label config before.nextToken :=
  position.advance (ConfigLexer.nextToken_advances before)

end Position

/-! ## The context of an error -/

section Context

open StringUtil

/-- A place in a text, for an error message. -/
def contextText (label : Bytes) (line column : Nat) : Bytes :=
  label ++ (bytes ":" ++ (decimal line ++ (bytes ":" ++ decimal column)))

theorem ofInt32_ofNat
    {number : Nat}
    (small : number < 2 ^ 31) : ofInt32 (Int32.ofNat number) = decimal number := by
  rw [ofInt32, Int32.toInt_ofNat_of_lt small]
  rfl

theorem not_mem_decimal
    {byte : UInt8}
    (before : byte < 0x30)
    (number : Nat) : byte ∉ decimal number :=
  fun member => absurd (isDigit_of_mem_decimal member).1 (UInt8.not_le.mpr before)

theorem length_decimal_le
    {number : Nat}
    (small : number < 2 ^ 31) : (decimal number).length ≤ 10 :=
  length_bytes_repr_le (by decide) (by omega)

theorem zero_not_mem_contextText
    {label : Bytes}
    (noZero : 0 ∉ label)
    (line column : Nat) : 0 ∉ contextText label line column := by
  have colon : (0 : UInt8) ∉ bytes ":" := by decide
  have number := not_mem_decimal (show (0 : UInt8) < 0x30 by decide)
  simp only [contextText, List.mem_append, not_or]
  exact ⟨noZero, colon, number line, colon, number column⟩

theorem length_contextText_le
    {label : Bytes}
    {line column : Nat}
    (short : label.length ≤ 900)
    (smallLine : line < 2 ^ 31)
    (smallColumn : column < 2 ^ 31) :
    (contextText label line column).length ≤ 922 := by
  have lineLength := length_decimal_le smallLine
  have columnLength := length_decimal_le smallColumn
  have colon : (bytes ":").length = 1 := by decide
  simp only [contextText, List.length_append, colon]
  omega

/-- The context names the line and the column of what has been read. -/
theorem Position.currentContext
    {label config : Bytes}
    {lexer : ConfigLexer}
    (position : Position label config lexer)
    (plain : 0x24 ∉ label)
    (short : label.length ≤ 900)
    (fits : config.length + 2 < 2 ^ 31) :
    ∃ read ahead, config = read ++ lexer.rest ∧ ahead ≤ 1 ∧
      (ahead = 1 → lexer.rest = []) ∧
      lineNr read < 2 ^ 31 ∧ column read + ahead < 2 ^ 31 ∧
      lexer.currentContext =
        some (contextText label (lineNr read) (column read + ahead)) := by
  obtain ⟨read, isRead, line, columnNr⟩ := position.read
  obtain ⟨ahead, isAhead⟩ : ∃ ahead : Nat,
      ahead = if lexer.currentChar = none then 1 else 0 := ⟨_, rfl⟩
  have inside : read.length ≤ config.length := by
    rw [isRead, List.length_append]
    exact Nat.le_add_right _ _
  have lineLe := lineNr_le read
  have columnLe := column_le read
  have aheadLe : ahead ≤ 1 := by
    rw [isAhead]
    split <;> decide
  have smallLine : lineNr read < 2 ^ 31 := by omega
  have smallColumn : column read + ahead < 2 ^ 31 := by omega
  refine ⟨read, ahead, isRead, aheadLe, fun ends => ?_, smallLine, smallColumn, ?_⟩
  · refine position.ended ?_
    by_contra more
    rw [isAhead, if_neg more] at ends
    cases ends
  · have isTemplate : bytes "$0:$1:$2" =
        template 0 [[], bytes ":", bytes ":"] [] := by
      decide
    have isFilled : contextText label (lineNr read) (column read + ahead) =
        filled [([], label), (bytes ":", decimal (lineNr read)),
          (bytes ":", decimal (column read + ahead))] [] := by
      simp [contextText, filled]
    have colon : (0x24 : UInt8) ∉ bytes ":" := by decide
    have number := not_mem_decimal (show (0x24 : UInt8) < 0x30 by decide)
    have plainPieces : ∀ piece ∈ [([], label),
        (bytes ":", decimal (lineNr read)),
        (bytes ":", decimal (column read + ahead))],
        (0x24 : UInt8) ∉ piece.1 ∧ 0x24 ∉ piece.2 := by
      simp only [List.forall_mem_cons]
      exact ⟨⟨List.not_mem_nil, plain⟩, ⟨colon, number _⟩, ⟨colon, number _⟩,
        fun _ absent => absurd absent List.not_mem_nil⟩
    have length := length_contextText_le short smallLine smallColumn
    rw [ConfigLexer.currentContext, position.label, line, columnNr, ← isAhead,
      ofInt32_ofNat smallLine, ofInt32_ofNat smallColumn, isTemplate, isFilled]
    rw [isFilled] at length
    refine format_template [([], label), (bytes ":", decimal (lineNr read)),
      (bytes ":", decimal (column read + ahead))] [] (show 3 ≤ 10 by decide)
      plainPieces List.not_mem_nil ?_
    exact Nat.lt_of_le_of_lt (Nat.mul_le_mul (Nat.add_le_add_right length _)
      (Nat.add_le_add_right length 1)) (show (922 + 2 * 3) * (922 + 1) < 2 ^ 31 by
        decide)

end Context

end Config
end EvCollect
