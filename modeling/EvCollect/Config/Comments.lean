import EvCollect.Config.Scanner

/-!
# Comments between tokens

A comment in `/*` and `*/` that is put between two tokens does not change the
tokens, unless its body begins with a slash: the lexer takes the star of the
opener for the first half of the end.
-/

namespace EvCollect
namespace Config

open Text ConfigLexer Mode

/-- The position between two parts of a text lies between two of its tokens:
behind the token that a call has returned, and white space that has not been
left. -/
structure Between
    (label before after : Bytes)
    (count : Nat)
    (gap : Bytes) : Prop where
  here : (nextToken^[count] (create label (before ++ after))).At (gap ++ after)
  known : (nextToken^[count] (create label (before ++ after))).currentToken ≠
    .unknown
  pending : (nextToken^[count] (create label (before ++ after))).currentToken ≠
    .eof
  white : scanner.run .blank gap = ([], .blank)

/-- A comment with a space on either side. -/
def blockComment (body : Bytes) : Bytes :=
  bytes " /*" ++ body ++ bytes "*/ "

/-- Whether the lexer, behind an opener or else in white space, reads a text up
to the end `*/` that follows it as comments and white space. Behind an opener a
slash ends the comment at once. -/
def closesLast : Bool → Bytes → Bool
  | true, [] => true
  | true, byte :: text => byte != 0x2f || closesLast false text
  | false, [] => false
  | false, [byte] => byte == 0x2f
  | false, 0x2f :: 0x2a :: text => closesLast true text
  | false, byte :: text => isSkipped byte && closesLast false text

variable {lexer : ConfigLexer}
variable {text rest front behind inserted gap after : Bytes}

/-! ## White space that is put between tokens -/

/-- A word and line ends are complete before a space as they were before. -/
theorem stops_insert
    {mode : Mode}
    (stops : Stops mode (front ++ behind))
    (more : Bytes) :
    Stops mode (front ++ 0x20 :: more) := by
  cases mode with
  | word word =>
      cases front with
      | nil => simp [Stops]; decide
      | cons byte front => simpa [Stops] using stops
  | ends =>
      rintro byte rest split
      cases front with
      | nil =>
          cases split
          exact ⟨by decide, fun isCarriage => absurd isCarriage (by decide)⟩
      | cons first front =>
          obtain ⟨rfl, rfl⟩ := List.cons.inj split
          obtain ⟨noFeed, carriage⟩ := stops first (front ++ behind) rfl
          refine ⟨noFeed, fun isCarriage => ?_⟩
          obtain ⟨next, others, equal, differs⟩ := carriage isCarriage
          cases front with
          | nil => exact ⟨0x20, more, rfl, by decide⟩
          | cons second front =>
              rw [← (List.cons.inj equal).1] at differs
              exact ⟨second, front ++ 0x20 :: more, rfl, differs⟩
  | _ => trivial

/-- A call that does not return the end of the input or a stray character, now
or later, reads a token up to where it ends. -/
theorem read_of_known
    (count : Nat)
    (here : lexer.At text)
    (there : (nextToken^[count + 1] lexer).At rest)
    (known : (nextToken^[count + 1] lexer).currentToken ≠ .unknown)
    (pending : (nextToken^[count + 1] lexer).currentToken ≠ .eof) :
    ∃ used behind, text = used ++ behind ∧ lexer.nextToken.At behind ∧
      Delivers lexer.nextToken.current (scanner.run .blank used) ∧
      Stops (scanner.run .blank used).2 behind := by
  cases nextToken_scanned here with
  | read used behind split there delivers stops =>
      exact ⟨used, behind, split, there, delivers, stops⟩
  | last isEof kind silent =>
      exfalso
      cases count with
      | zero =>
          rcases kind with ended | unknown | current
          · exact pending ended
          · exact known unknown
          · cases rest with
            | nil => exact current there
            | cons byte rest =>
                exact Bool.false_ne_true (there.eof_cons.symm.trans isEof)
      | succ count =>
          have read := iterate_eq_output lexer.nextToken count
          rw [unread_eof isEof, ← Function.iterate_succ_apply,
            ← Function.iterate_succ_apply] at read
          exact pending (congrArg Prod.fst read)
  | stray behind at_ current same again =>
      exfalso
      cases count with
      | zero => exact known (congrArg Prod.fst current)
      | succ count =>
          have read := iterate_eq_output lexer.nextToken count
          rw [at_.unread, again, ← Function.iterate_succ_apply,
            ← Function.iterate_succ_apply] at read
          exact known (congrArg Prod.fst read)

/-- A change behind a space does not change the token before it. -/
theorem output_behind
    {token : ConfigToken × Bytes}
    {used more : Bytes}
    (delivers : Delivers token (scanner.run .blank used))
    (stops : Stops (scanner.run .blank used).2 (front ++ behind))
    (same : scanner.output .blank (front ++ 0x20 :: more) =
      scanner.output .blank (front ++ behind)) :
    scanner.output .blank (used ++ front ++ 0x20 :: more) =
      scanner.output .blank (used ++ (front ++ behind)) := by
  rw [List.append_assoc, Transducer.output_append,
    Transducer.output_append _ used, delivers.output stops,
    delivers.output (stops_insert stops more), same]

/-- White space behind a token does not change what is read. -/
theorem output_inserted
    (silent : scanner.run .blank (0x20 :: inserted) = ([], .blank))
    (white : scanner.run .blank gap = ([], .blank))
    (count : Nat)
    (here : lexer.At text)
    (there : (nextToken^[count + 1] lexer).At (gap ++ after))
    (known : (nextToken^[count + 1] lexer).currentToken ≠ .unknown)
    (pending : (nextToken^[count + 1] lexer).currentToken ≠ .eof) :
    ∃ front, text = front ++ after ∧
      scanner.output .blank (front ++ 0x20 :: (inserted ++ after)) =
        scanner.output .blank text := by
  induction count generalizing lexer text with
  | zero =>
      obtain ⟨used, behind, rfl, next, delivers, stops⟩ :=
        read_of_known 0 here there known pending
      obtain rfl : behind = gap ++ after := next.unread.symm.trans there.unread
      refine ⟨used ++ gap, (List.append_assoc _ _ _).symm, ?_⟩
      apply output_behind delivers stops
      rw [Transducer.output_silent white, Transducer.output_silent white,
        ← List.cons_append, Transducer.output_silent silent]
  | succ count inductionHypothesis =>
      obtain ⟨used, behind, rfl, next, delivers, stops⟩ :=
        read_of_known (count + 1) here there known pending
      obtain ⟨front, rfl, same⟩ := inductionHypothesis next there known pending
      exact ⟨used ++ front, (List.append_assoc _ _ _).symm,
        output_behind delivers stops same⟩

/-- White space between two tokens does not change the tokens. -/
theorem tokens_inserted
    {label before : Bytes}
    {count : Nat}
    (silent : scanner.run .blank (0x20 :: inserted) = ([], .blank))
    (between : Between label before after count gap) :
    scanner.output .blank (before ++ 0x20 :: (inserted ++ after)) =
      scanner.output .blank (before ++ after) := by
  have start : ({ label := label, rest := before ++ after } : ConfigLexer).At
      (0 :: (before ++ after)) := ⟨rfl, rfl, rfl⟩
  obtain ⟨front, split, same⟩ := output_inserted silent between.white count start
    between.here between.known between.pending
  obtain rfl : 0 :: before = front := List.append_cancel_right split
  exact same

/-! ## Comments as white space -/

/-- A comment is left at the first end behind its opener. -/
theorem run_comment
    {star : Bool}
    (noEnd : ¬ bytes "*/" <:+: text)
    (inside : star = true → text.head? ≠ some 0x2f) :
    scanner.run (.comment star) (text ++ bytes "*/") = ([], .blank) := by
  induction text generalizing star with
  | nil => cases star <;> rfl
  | cons byte text inductionHypothesis =>
      have stepped : Mode.step (.comment star) byte =
          ([], .comment (byte = 0x2a)) := by
        rw [step, if_neg]
        rintro ⟨isStar, isSlash⟩
        exact inside isStar (congrArg some isSlash)
      refine run_cons stepped (inductionHypothesis ?_ ?_)
      · exact fun inRest => noEnd (List.infix_cons inRest)
      · intro isStar isSlash
        obtain ⟨more, rfl⟩ := List.head?_eq_some_iff.mp isSlash
        refine noEnd ⟨[], more, ?_⟩
        rw [of_decide_eq_true isStar]
        rfl

/-- Behind an opener, or in white space. -/
def inside : Bool → Mode
  | true => .comment true
  | false => .blank

theorem noEnd_tail
    {byte : UInt8}
    (noEnd : ¬ bytes "*/" <:+: byte :: text) :
    ¬ bytes "*/" <:+: text :=
  fun inRest => noEnd (List.infix_cons inRest)

/-- Where the body closes only with its last end, the comment is white space. -/
theorem run_closesLast
    {opened : Bool}
    (noEnd : ¬ bytes "*/" <:+: text)
    (closes : closesLast opened text = true) :
    scanner.run (inside opened) (text ++ bytes "*/") = ([], .blank) := by
  fun_induction closesLast opened text with
  | case1 => rfl
  | case2 byte text inductionHypothesis =>
      rw [Bool.or_eq_true, bne_iff_ne] at closes
      by_cases isSlash : byte = 0x2f
      · subst isSlash
        exact run_cons rfl
          (inductionHypothesis (noEnd_tail noEnd) (closes.resolve_left (by simp)))
      · exact run_comment noEnd fun _ => by simpa using isSlash
  | case3 => cases closes
  | case4 byte =>
      cases eq_of_beq closes
      rfl
  | case5 text inductionHypothesis =>
      exact run_cons rfl (run_cons rfl
        (inductionHypothesis (noEnd_tail (noEnd_tail noEnd)) closes))
  | case6 byte text _ _ inductionHypothesis =>
      rw [Bool.and_eq_true] at closes
      have stepped : Mode.step .blank byte = ([], .blank) := by
        rw [step, enter_skipped closes.1]
      exact run_cons stepped (inductionHypothesis (noEnd_tail noEnd) closes.2)

theorem run_blockComment
    {body : Bytes}
    (noEnd : ¬ bytes "*/" <:+: body)
    (closes : closesLast true body = true) :
    scanner.run .blank (blockComment body) = ([], .blank) := by
  have opener : scanner.run .blank (bytes " /*") = ([], .comment true) := by
    decide
  have closed := Transducer.run_silent opener (run_closesLast noEnd closes)
  have split : blockComment body =
      bytes " /*" ++ (body ++ bytes "*/") ++ [0x20] := by
    rw [blockComment, ← List.append_assoc, List.append_assoc _ _ [0x20]]
    rfl
  rw [split]
  exact Transducer.run_silent closed rfl

/-! ## Comments that are left too early -/

/-- The first token that is put out for a quoted value is a value or no known
token, and it goes on from what has been read. -/
theorem output_quoted_zero
    (delim : UInt8)
    (last : Option UInt8)
    (text : Bytes) :
    ∃ kind more, (kind = .value ∨ kind = .unknown) ∧ ∀ payload,
      scanner.output (.quoted delim last payload) text 0 =
        (kind, payload ++ more) := by
  induction text generalizing last with
  | nil =>
      refine ⟨.unknown, [], .inr rfl, fun payload => ?_⟩
      rw [List.append_nil]
      rfl
  | cons byte text inductionHypothesis =>
      by_cases closes : byte = delim ∧ last ≠ some 0x5c
      · refine ⟨.value, [], .inl rfl, fun payload => ?_⟩
        rw [output_cons, step, stepQuoted, if_pos closes, List.append_nil]
        rfl
      · obtain ⟨kind, more, isKind, token⟩ := inductionHypothesis (some byte)
        refine ⟨kind, byte :: more, isKind, fun payload => ?_⟩
        rw [output_cons, step, stepQuoted, if_neg closes, prepend_nil, token,
          List.append_assoc]
        rfl

/-- A word is the first token that is put out for it. -/
theorem output_word_zero (word text : Bytes) :
    ∃ more, scanner.output (.word word) text 0 = wordToken (word ++ more) := by
  induction text generalizing word with
  | nil => exact ⟨[], by rw [List.append_nil]; rfl⟩
  | cons byte text inductionHypothesis =>
      rw [output_cons, step]
      split
      · obtain ⟨more, token⟩ := inductionHypothesis (word ++ [byte])
        refine ⟨byte :: more, ?_⟩
        rw [prepend_nil, token, List.append_assoc]
        rfl
      · exact ⟨[], by rw [List.append_nil]; rfl⟩

/-- Line ends are the first token that is put out for them. -/
theorem output_ends_zero (text : Bytes) :
    scanner.output .ends text 0 = endToken ∧
      scanner.output .endsReturn text 0 = endToken := by
  induction text with
  | nil => exact ⟨rfl, rfl⟩
  | cons byte text inductionHypothesis =>
      rw [output_cons, output_cons, step, step]
      by_cases isFeed : byte = 0x0a
      · rw [if_pos isFeed, if_pos isFeed]
        exact ⟨inductionHypothesis.1, inductionHypothesis.1⟩
      rw [if_neg isFeed, if_neg isFeed]
      by_cases isCarriage : byte = 0x0d
      · rw [if_pos isCarriage]
        exact ⟨inductionHypothesis.2, rfl⟩
      · rw [if_neg isCarriage]
        exact ⟨rfl, rfl⟩

/-- Behind a carriage return comes a line end or a stray character. -/
theorem output_carriage_zero (text : Bytes) :
    (scanner.output .carriage text 0).1 = .end ∨
      (scanner.output .carriage text 0).1 = .unknown := by
  cases text with
  | nil => exact .inr rfl
  | cons byte text =>
      rw [output_cons, step]
      split
      · exact .inl (congrArg Prod.fst (output_ends_zero text).1)
      · exact .inr (congrArg Prod.fst (congrFun (output_stuck text) 0))

/-- Behind a comment that ends with the line comes no word. -/
theorem output_line_zero (text : Bytes) :
    (scanner.output .line text 0).1 = .end ∨
      (scanner.output .line text 0).1 = .unknown ∨
        (scanner.output .line text 0).1 = .eof := by
  induction text with
  | nil => exact .inr (.inr rfl)
  | cons byte text inductionHypothesis =>
      rw [output_cons, step]
      split
      next isLineEnd =>
        rcases isLineEnd with rfl | rfl
        · exact (output_carriage_zero text).imp_right .inl
        · exact .inl (congrArg Prod.fst (output_ends_zero text).1)
      next => exact inductionHypothesis

theorem keyword_ne_value (word : Bytes) :
    (keyword word).getD .name ≠ .value := by
  unfold keyword
  repeat' split
  all_goals decide

/-- A word that begins with a letter is no value, and nothing else is a name. -/
theorem output_first_zero
    {byte : UInt8}
    (stops : isSkipped byte = false)
    (noComment : byte = 0x2f → text ≠ [] ∧ text.head? ≠ some 0x2a) :
    (scanner.output .blank (byte :: text) 0).1 ≠
      if isAlpha byte then .value else .name := by
  rw [output_cons]
  change (scanner.output (enter byte) text 0).1 ≠ _
  unfold enter
  split
  next isFeed =>
    subst isFeed
    rw [(output_ends_zero text).1]
    decide
  split
  next isCarriage =>
    subst isCarriage
    rcases output_carriage_zero text with kind | kind <;> rw [kind] <;> decide
  rw [stops, if_neg Bool.false_ne_true]
  split
  next isHash =>
    subst isHash
    rcases output_line_zero text with kind | kind | kind <;> rw [kind] <;> decide
  split
  next isSlash =>
    subst isSlash
    obtain ⟨nonempty, noStar⟩ := noComment rfl
    obtain ⟨next, rest, rfl⟩ := List.exists_cons_of_ne_nil nonempty
    rw [Transducer.output, run_slash (by simpa using noStar),
      ← Transducer.output]
    obtain ⟨kind, more, isKind, token⟩ :=
      output_quoted_zero 0x2f none (next :: rest)
    rw [token]
    rcases isKind with rfl | rfl <;> dsimp only <;> decide
  split
  next quote =>
    obtain ⟨kind, more, isKind, token⟩ := output_quoted_zero byte none text
    rw [token]
    rcases quote with rfl | rfl <;> rcases isKind with rfl | rfl <;>
      dsimp only <;> decide
  split
  next word =>
    obtain ⟨more, token⟩ := output_word_zero [byte] text
    rw [token, wordToken, List.singleton_append, List.head?_cons,
      Option.any_some]
    cases digit : isDigit byte with
    | true =>
        rw [not_isAlpha_of_isDigit digit, if_pos rfl]
        dsimp only
        decide
    | false =>
        rw [word.resolve_right (by simp [digit])]
        exact keyword_ne_value _
  next other =>
    rw [output_stuck]
    split <;> decide

/-- The words that the text behind a comment is compared with. -/
def sampleWord (letter : Bool) : Bytes :=
  if letter then bytes "1" else bytes "b"

theorem output_first_ne
    {byte : UInt8}
    (stops : isSkipped byte = false)
    (noComment : byte = 0x2f → text ++ (bytes "*/ " ++
        sampleWord (isAlpha byte)) ≠ [] ∧
      (text ++ (bytes "*/ " ++ sampleWord (isAlpha byte))).head? ≠ some 0x2a) :
    scanner.output .blank (byte :: (text ++
        (bytes "*/ " ++ sampleWord (isAlpha byte)))) 0 ≠
      wordToken (sampleWord (isAlpha byte)) := by
  intro equal
  apply output_first_zero stops noComment
  rw [equal]
  cases isAlpha byte <;> decide

/-- Where the comment is left too early, the rest of its body is not read like
white space before every word. -/
theorem output_leftOver
    {opened : Bool}
    (early : closesLast opened text = false) :
    ∃ letter, scanner.output (inside opened)
        (text ++ (bytes "*/ " ++ sampleWord letter)) 0 ≠
      wordToken (sampleWord letter) := by
  fun_induction closesLast opened text with
  | case1 => cases early
  | case2 byte text inductionHypothesis =>
      rw [Bool.or_eq_false_iff, bne_eq_false_iff_eq] at early
      obtain ⟨rfl, early⟩ := early
      exact inductionHypothesis early
  | case3 => exact ⟨false, by decide⟩
  | case4 byte =>
      have noSlash : byte ≠ 0x2f := by simpa using early
      cases skipped : isSkipped byte with
      | false => exact ⟨_, output_first_ne skipped fun equal => absurd equal noSlash⟩
      | true =>
          refine ⟨false, ?_⟩
          rw [List.cons_append, inside, output_cons, step,
            enter_skipped skipped]
          decide
  | case5 text inductionHypothesis => exact inductionHypothesis early
  | case6 byte text notLast noOpener inductionHypothesis =>
      cases skipped : isSkipped byte with
      | false =>
          refine ⟨_, output_first_ne skipped fun isSlash => ?_⟩
          cases text with
          | nil => exact absurd rfl notLast
          | cons next text =>
              refine ⟨by simp, fun isStar => ?_⟩
              exact noOpener text isSlash (by cases isStar; rfl)
      | true =>
          rw [skipped, Bool.true_and] at early
          obtain ⟨letter, differs⟩ := inductionHypothesis early
          refine ⟨letter, ?_⟩
          rw [List.cons_append, inside, output_cons, step,
            enter_skipped skipped]
          exact differs

/-- Behind the name `a` and a space, before a word. -/
theorem between_sample (label : Bytes) (letter : Bool) :
    Between label (bytes "a ") (sampleWord letter) 0 [0x20] := by
  obtain ⟨word, isText⟩ : ∃ word, print [.word (bytes "a") (by decide), word] =
      bytes "a " ++ sampleWord letter := by
    cases letter with
    | true => exact ⟨.numeral (bytes "1") (by decide), by decide⟩
    | false => exact ⟨.word (bytes "b") (by decide), by decide⟩
  have start (text : Bytes) :
      ({ label := label, rest := text } : ConfigLexer).At (0 :: text) :=
    ⟨rfl, rfl, rfl⟩
  have reads := reads_token (.word (bytes "a") (by decide)) [word] rfl (start _)
  rw [isText] at reads
  have current : (create label (bytes "a " ++ sampleWord letter)).currentToken =
      .name := congrArg Prod.fst reads.current
  have isRest : behind [word] = [0x20] ++ sampleWord letter := by
    have split := print_cons (.word (bytes "a") (by decide)) [word]
    rw [isText] at split
    have last : print [word] = sampleWord letter :=
      (List.append_cancel_left split).symm
    exact congrArg (List.cons 0x20) last
  refine ⟨?_, ?_, ?_, by decide⟩
  · rw [← isRest]
    exact reads.rest
  · rw [Function.iterate_zero, id, current]
    decide
  · rw [Function.iterate_zero, id, current]
    decide

/-- A comment can be put between any two tokens of any text, and the tokens stay
as they are, if and only if the lexer leaves it at its last end only. -/
theorem comment_insert_iff
    {body : Bytes}
    (noEnd : ¬ bytes "*/" <:+: body) :
    (∀ label before after count gap, Between label before after count gap →
      ∀ index,
        (nextToken^[index] (create label
            (before ++ blockComment body ++ after))).current =
          (nextToken^[index] (create label (before ++ after))).current) ↔
      closesLast true body = true := by
  constructor
  · intro unchanged
    cases closes : closesLast true body with
    | true => rfl
    | false =>
        exfalso
        obtain ⟨letter, differs⟩ := output_leftOver closes
        have same := unchanged [] _ _ _ _ (between_sample [] letter) 1
        have name : scanner.run .blank (bytes "a ") =
            ([(.name, bytes "a")], .blank) := by decide
        have opener : scanner.run .blank (bytes " /*") = ([], inside true) := by
          decide
        have word : scanner.output .blank (sampleWord letter) 0 =
            wordToken (sampleWord letter) := by
          cases letter <;> decide
        rw [tokens_eq_output, tokens_eq_output, List.append_assoc,
          Transducer.output_append, Transducer.output_append _ (bytes "a "), name,
          prepend_cons_succ, prepend_cons_succ, prepend_nil, prepend_nil, word,
          blockComment, List.append_assoc, List.append_assoc,
          Transducer.output_silent opener] at same
        exact differs same
  · intro closes label before after count gap between index
    have silent := run_blockComment noEnd closes
    rw [tokens_eq_output, tokens_eq_output, List.append_assoc]
    exact congrFun (tokens_inserted silent between) index

theorem comment_insert_iff_word :
    (∀ label before after count gap, Between label before after count gap →
      ∀ index,
        (nextToken^[index] (create label
            (before ++ blockComment (bytes "x") ++ after))).current =
          (nextToken^[index] (create label (before ++ after))).current) ↔
      closesLast true (bytes "x") = true :=
  comment_insert_iff (by decide)

/-- The comment with the body `/` is left at its opener, and the star of its end
is a stray character. -/
theorem comment_insert_slash :
    ¬ bytes "*/" <:+: bytes "/" ∧
      Between (bytes "<string>") (bytes "a ") (bytes "b") 0 [0x20] ∧
      (nextToken^[1] (create (bytes "<string>")
        (bytes "a " ++ blockComment (bytes "/") ++ bytes "b"))).current =
          (.unknown, []) ∧
      (nextToken^[1] (create (bytes "<string>")
        (bytes "a " ++ bytes "b"))).current = (.name, bytes "b") := by
  refine ⟨by decide, between_sample _ false, ?_, ?_⟩
  · rw [tokens_eq_output]
    decide
  · rw [tokens_eq_output]
    decide

end Config
end EvCollect
