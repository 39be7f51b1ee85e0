import EvCollect.Config.Comments

/-!
# Blank lines and comment lines

A line that holds no token is put before a line of a text. Line ends are merged
only where they adjoin, so a line that is not quite empty gives one more token
`End`, and so does any line before the first.
-/

namespace EvCollect
namespace Config

open Text ConfigLexer Mode

/-- A place where a line of a text begins. -/
def LineStart (before : Bytes) : Prop :=
  before = [] ∨ before.getLast? = some 0x0a

/-- Spaces and tabs. -/
def Indent (text : Bytes) : Prop :=
  ∀ byte ∈ text, byte = 0x20 ∨ byte = 0x09

/-- What a line can hold behind its indentation: nothing, or a comment that ends
with the line. -/
def Remark (commented : Bool) (text : Bytes) : Prop :=
  if commented then ∃ comment, text = 0x23 :: comment ∧
    ∀ byte ∈ comment, byte ≠ 0x0a ∧ byte ≠ 0x0d
  else text = []

/-- A text that begins with a line end. -/
def BeginsLine (text : Bytes) : Prop :=
  text.head? = some 0x0a ∨ [0x0d, 0x0a] <+: text

/-- Where a line without a token can be put, by what the lexer is in at the
start of the line. -/
def Mode.Hides (mode : Mode) (indent : Bytes) (commented : Bool) (after : Bytes) :
    Prop :=
  match mode with
  | .stuck => True
  | .comment _ => commented = false
  | .ends => indent = [] ∧ commented = false
  | .blank => BeginsLine after
  | _ => False

variable {mode : Mode}
variable {before after indent remark text : Bytes}
variable {commented : Bool}

theorem oneLine_of_all
    (oneLine : (text.all fun byte => byte != 0x0a && byte != 0x0d) = true) :
    ∀ byte ∈ text, byte ≠ 0x0a ∧ byte ≠ 0x0d := by
  intro byte member
  simpa using List.all_eq_true.mp oneLine byte member

/-! ## Where a line begins -/

/-- The delimiters of quoted values. -/
def Mode.Proper : Mode → Prop
  | .quoted delim _ _ => delim = 0x22 ∨ delim = 0x27 ∨ delim = 0x2f
  | _ => True

theorem proper_enter (byte : UInt8) : (enter byte).Proper := by
  unfold enter
  repeat' split
  all_goals first | trivial | (simp only [Proper]; tauto)

theorem proper_stepQuoted
    {delim : UInt8}
    (quote : delim = 0x22 ∨ delim = 0x27 ∨ delim = 0x2f)
    (last : Option UInt8)
    (payload : Bytes)
    (byte : UInt8) :
    (stepQuoted delim last payload byte).2.Proper := by
  unfold stepQuoted
  split
  · trivial
  · exact quote

theorem proper_step (proper : mode.Proper) (byte : UInt8) :
    (mode.step byte).2.Proper := by
  cases mode with
  | quoted delim last payload => exact proper_stepQuoted proper last payload byte
  | blank => exact proper_enter byte
  | slash =>
      rw [step]
      split
      · trivial
      · exact proper_stepQuoted (.inr (.inr rfl)) none [] byte
  | _ =>
      rw [step]
      repeat' split
      all_goals first | trivial | exact proper_enter byte

theorem proper_run (proper : mode.Proper) (text : Bytes) :
    (scanner.run mode text).2.Proper := by
  induction text generalizing mode with
  | nil => exact proper
  | cons byte text inductionHypothesis =>
      exact inductionHypothesis (proper_step proper byte)

/-- Behind a line feed the lexer is in line ends, in a quoted value or a comment,
or it is stuck. -/
inductive AtLine : Mode → Prop
  | ends : AtLine .ends
  | stuck : AtLine .stuck
  | comment : AtLine (.comment false)
  | quoted (delim : UInt8) (payload : Bytes)
      (quote : delim = 0x22 ∨ delim = 0x27 ∨ delim = 0x2f) :
      AtLine (.quoted delim (some 0x0a) payload)

theorem atLine_step (proper : mode.Proper) : AtLine (mode.step 0x0a).2 := by
  cases mode with
  | quoted delim last payload =>
      have differs : 0x0a ≠ delim := by
        rcases proper with rfl | rfl | rfl <;> decide
      rw [step, stepQuoted, if_neg fun both => differs both.1]
      exact .quoted delim _ proper
  | slash => exact .quoted 0x2f _ (.inr (.inr rfl))
  | comment star =>
      rw [step, if_neg fun both => absurd both.2 (by decide)]
      exact .comment
  | word word =>
      rw [step, if_neg (by decide)]
      exact .ends
  | stuck => exact .stuck
  | _ => exact .ends

theorem atLine_of_lineStart
    (lineStart : LineStart before)
    (nonempty : before ≠ []) :
    AtLine (scanner.run .blank before).2 := by
  have last := lineStart.resolve_left nonempty
  obtain ⟨front, rfl⟩ := List.getLast?_eq_some_iff.mp last
  rw [Transducer.run_append]
  exact atLine_step (proper_run (show Proper .blank from trivial) front)

/-! ## What a line without a token is read as -/

/-- An empty line, of any kind. -/
theorem run_lineEnd (lineEnd : LineEnd) :
    scanner.run .blank lineEnd.text = ([], .ends) ∧
      scanner.run .line lineEnd.text = ([], .ends) ∧
        scanner.run .ends lineEnd.text = ([], .ends) := by
  cases lineEnd <;> exact ⟨rfl, rfl, rfl⟩

theorem run_line
    (inside : ∀ byte ∈ text, byte ≠ 0x0a ∧ byte ≠ 0x0d) :
    scanner.run .line text = ([], .line) := by
  induction text with
  | nil => rfl
  | cons byte text inductionHypothesis =>
      obtain ⟨noFeed, noCarriage⟩ := inside byte (List.mem_cons_self ..)
      have stepped : Mode.step .line byte = ([], .line) := by
        rw [step, if_neg (by tauto)]
      exact run_cons stepped (inductionHypothesis fun other member =>
        inside other (List.mem_cons_of_mem _ member))

theorem run_indent (isIndent : Indent indent) :
    scanner.run .blank indent = ([], .blank) := by
  induction indent with
  | nil => rfl
  | cons byte indent inductionHypothesis =>
      have stepped : Mode.step .blank byte = ([], .blank) := by
        rcases isIndent byte (List.mem_cons_self ..) with rfl | rfl <;> rfl
      exact run_cons stepped (inductionHypothesis fun other member =>
        isIndent other (List.mem_cons_of_mem _ member))

/-- From white space, a line without a token is read as a line end. -/
theorem run_layout
    (isIndent : Indent indent)
    (isRemark : Remark commented remark)
    (lineEnd : LineEnd) :
    scanner.run .blank (indent ++ (remark ++ lineEnd.text)) = ([], .ends) := by
  refine Transducer.run_silent (run_indent isIndent) ?_
  cases commented with
  | false =>
      obtain rfl : remark = [] := isRemark
      exact (run_lineEnd lineEnd).1
  | true =>
      obtain ⟨comment, rfl, inside⟩ := isRemark
      exact run_cons rfl
        (Transducer.run_silent (run_line inside) (run_lineEnd lineEnd).2.1)

/-- Behind line ends, what does not begin with a line end completes them. -/
theorem run_ends
    {byte : UInt8}
    (noFeed : byte ≠ 0x0a)
    (noCarriage : byte ≠ 0x0d)
    (text : Bytes) :
    scanner.run .ends (byte :: text) =
      (endToken :: (scanner.run .blank (byte :: text)).1,
        (scanner.run .blank (byte :: text)).2) := by
  have stepped : Mode.step .ends byte = ([endToken], enter byte) := by
    rw [step, if_neg noFeed, if_neg noCarriage]
  rw [run_step, stepped]
  rfl

/-- Behind line ends, a line that is not empty is read as more of them. -/
theorem run_ends_layout
    (isIndent : Indent indent)
    (isRemark : Remark commented remark)
    (nonempty : indent ++ remark ≠ [])
    (lineEnd : LineEnd) :
    scanner.run .ends (indent ++ (remark ++ lineEnd.text)) =
      ([endToken], .ends) := by
  have whole := run_layout isIndent isRemark lineEnd
  obtain ⟨byte, rest, split, noFeed, noCarriage⟩ : ∃ byte rest,
      indent ++ (remark ++ lineEnd.text) = byte :: rest ∧ byte ≠ 0x0a ∧
        byte ≠ 0x0d := by
    cases indent with
    | cons byte indent =>
        refine ⟨byte, _, rfl, ?_⟩
        rcases isIndent byte (List.mem_cons_self ..) with rfl | rfl <;> decide
    | nil =>
        cases commented with
        | false => exact absurd isRemark nonempty
        | true =>
            obtain ⟨comment, rfl, -⟩ := isRemark
            exact ⟨0x23, _, rfl, by decide, by decide⟩
  rw [split] at whole ⊢
  rw [run_ends noFeed noCarriage, whole]

/-- In a comment nothing but a star matters. -/
theorem run_comment_plain
    (plain : ∀ byte ∈ text, byte ≠ 0x2a) :
    scanner.run (.comment false) text = ([], .comment false) := by
  induction text with
  | nil => rfl
  | cons byte text inductionHypothesis =>
      have noStar : byte ≠ 0x2a := plain byte (List.mem_cons_self ..)
      have stepped : Mode.step (.comment false) byte = ([], .comment false) := by
        rw [step, if_neg fun both => Bool.false_ne_true both.1,
          decide_eq_false noStar]
      exact run_cons stepped (inductionHypothesis fun other member =>
        plain other (List.mem_cons_of_mem _ member))

/-! ## Tokens that differ -/

/-- No text is read as line ends for ever. -/
theorem output_settles (mode : Mode) (text : Bytes) :
    ∃ index, scanner.output mode text index ≠ endToken := by
  refine ⟨(scanner.run mode text).1.length + 1, ?_⟩
  have behind : scanner.output mode text
      ((scanner.run mode text).1.length + 1) =
        (scanner.run mode text).2.finish 1 := by
    rw [Transducer.output, prepend, List.getElem?_eq_none (by omega),
      Option.getD_none, Nat.add_sub_cancel_left]
    rfl
  rw [behind]
  intro equal
  cases ended : (scanner.run mode text).2 <;>
    · rw [ended] at equal
      cases congrArg Prod.fst equal

/-- One more line end is noticed. -/
theorem output_ne_end (mode : Mode) (text : Bytes) :
    scanner.output mode text ≠ prepend [endToken] (scanner.output mode text) := by
  intro equal
  obtain ⟨index, differs⟩ := output_settles mode text
  have all : ∀ index, scanner.output mode text index = endToken := by
    intro index
    induction index with
    | zero => rw [equal]; rfl
    | succ index inductionHypothesis =>
        rw [equal, prepend_cons_succ, prepend_nil, inductionHypothesis]
  exact differs (all index)

/-! ## The line by what it is put into -/

/-- Some line of each shape. -/
theorem exists_remark (commented : Bool) :
    Remark commented (if commented then [0x23] else []) := by
  cases commented with
  | true => exact ⟨[], rfl, by simp⟩
  | false => rfl

/-- Line ends and white space are told apart, unless a line end follows. -/
theorem output_ends_iff (after : Bytes) :
    scanner.output .ends after = scanner.output .blank after ↔
      BeginsLine after := by
  constructor
  · intro equal
    cases after with
    | nil => exact nomatch congrArg Prod.fst (congrFun equal 0)
    | cons byte rest =>
        by_cases isFeed : byte = 0x0a
        · exact .inl (congrArg some isFeed)
        by_cases isCarriage : byte = 0x0d
        · subst isCarriage
          cases rest with
          | nil => exact nomatch congrArg Prod.fst (congrFun equal 0)
          | cons next rest =>
              by_cases feed : next = 0x0a
              · exact .inr ⟨rest, by rw [feed]; rfl⟩
              · exfalso
                have first := congrFun equal 0
                rw [(output_ends_zero _).1, output_carriage feed] at first
                exact nomatch congrArg Prod.fst first
        · exfalso
          have completed : scanner.output .ends (byte :: rest) =
              prepend [endToken] (scanner.output .blank (byte :: rest)) := by
            rw [Transducer.output, run_ends isFeed isCarriage]
            exact prepend_append [endToken] _ _
          exact output_ne_end .blank _ (equal.symm.trans completed)
  · rintro (feed | ⟨rest, rfl⟩)
    · obtain ⟨rest, rfl⟩ := List.head?_eq_some_iff.mp feed
      rfl
    · rfl

theorem same_blank
    (isIndent : Indent indent)
    (lineEnd : LineEnd) :
    (∀ remark, Remark commented remark →
      scanner.output .blank (indent ++ (remark ++ lineEnd.text) ++ after) =
        scanner.output .blank after) ↔ BeginsLine after := by
  rw [← output_ends_iff]
  constructor
  · intro same
    rw [← same _ (exists_remark commented), Transducer.output_silent
      (run_layout isIndent (exists_remark commented) lineEnd)]
  · intro equal remark isRemark
    rw [Transducer.output_silent (run_layout isIndent isRemark lineEnd), equal]

theorem same_ends
    (isIndent : Indent indent)
    (lineEnd : LineEnd) :
    (∀ remark, Remark commented remark →
      scanner.output .ends (indent ++ (remark ++ lineEnd.text) ++ after) =
        scanner.output .ends after) ↔ indent = [] ∧ commented = false := by
  constructor
  · intro same
    have isRemark := exists_remark commented
    have equal := same _ isRemark
    by_contra other
    have nonempty : indent ++ (if commented then [0x23] else []) ≠ [] := by
      intro empty
      rw [List.append_eq_nil_iff] at empty
      refine other ⟨empty.1, ?_⟩
      cases commented with
      | true => cases empty.2
      | false => rfl
    have read := run_ends_layout isIndent isRemark nonempty lineEnd
    apply output_ne_end .ends after
    rw [Transducer.output_append, read] at equal
    exact equal.symm
  · rintro ⟨rfl, rfl⟩ remark rfl
    exact Transducer.output_silent (run_lineEnd lineEnd).2.2 after

theorem plain_indent
    (isIndent : Indent indent)
    {byte : UInt8}
    (member : byte ∈ indent) :
    byte ≠ 0x2a ∧ byte ≠ 0x22 ∧ byte ≠ 0x27 ∧ byte ≠ 0x2f := by
  rcases isIndent byte member with rfl | rfl <;> decide

theorem plain_lineEnd
    {lineEnd : LineEnd}
    {byte : UInt8}
    (member : byte ∈ lineEnd.text) :
    byte ≠ 0x2a ∧ byte ≠ 0x22 ∧ byte ≠ 0x27 ∧ byte ≠ 0x2f := by
  cases lineEnd with
  | lf =>
      rw [List.mem_singleton.mp member]
      decide
  | crLf =>
      rcases List.mem_pair.mp member with rfl | rfl <;> decide

/-- A line end completes a word. -/
theorem output_word_lineEnd
    (word : Bytes)
    (lineEnd : LineEnd)
    (text : Bytes) :
    scanner.output (.word word) (lineEnd.text ++ text) 0 = wordToken word := by
  cases lineEnd <;> rfl

/-- A line in a comment can end it, if it has a comment of its own. -/
theorem same_comment
    (isIndent : Indent indent)
    (lineEnd : LineEnd) :
    (∀ remark, Remark commented remark →
      scanner.output (.comment false)
          (indent ++ (remark ++ lineEnd.text) ++ after) =
        scanner.output (.comment false) after) ↔ commented = false := by
  have indented : scanner.run (.comment false) indent = ([], .comment false) :=
    run_comment_plain fun byte member => (plain_indent isIndent member).1
  constructor
  · intro same
    by_contra isCommented
    rw [Bool.not_eq_false] at isCommented
    subst isCommented
    have stray := same (bytes "#*/*")
      ⟨bytes "*/*", by decide, oneLine_of_all (by decide)⟩
    have name := same (bytes "#*/a")
      ⟨bytes "*/a", by decide, oneLine_of_all (by decide)⟩
    have strayRead : scanner.run (.comment false) (bytes "#*/*") =
        ([], .stuck) := by decide
    have nameRead : scanner.run (.comment false) (bytes "#*/a") =
        ([], .word (bytes "a")) := by decide
    rw [List.append_assoc, List.append_assoc,
      Transducer.output_silent indented] at stray name
    rw [Transducer.output_silent strayRead, output_stuck] at stray
    rw [Transducer.output_silent nameRead] at name
    have first := congrFun (name.trans stray.symm) 0
    rw [output_word_lineEnd] at first
    exact absurd first (by decide)
  · rintro rfl remark rfl
    have ended : scanner.run (.comment false) lineEnd.text =
        ([], .comment false) :=
      run_comment_plain fun byte member => (plain_lineEnd member).1
    exact Transducer.output_silent (Transducer.run_silent indented ended) after

/-- In a quoted value, all but its delimiter is taken. -/
theorem run_quoted_plain
    {delim : UInt8}
    (plain : ∀ byte ∈ text, byte ≠ delim)
    (last : Option UInt8)
    (payload : Bytes) :
    scanner.run (.quoted delim last payload) text =
      ([], .quoted delim (text.getLast?.or last) (payload ++ text)) := by
  induction text generalizing last payload with
  | nil => simp
  | cons byte text inductionHypothesis =>
      have differs : byte ≠ delim := plain byte (List.mem_cons_self ..)
      have stepped : Mode.step (.quoted delim last payload) byte =
          ([], .quoted delim (some byte) (payload ++ [byte])) := by
        rw [step, stepQuoted, if_neg fun both => differs both.1]
      refine run_cons stepped ((inductionHypothesis (fun other member =>
        plain other (List.mem_cons_of_mem _ member)) _ _).trans ?_)
      rw [List.getLast?_cons, List.append_assoc]
      cases text.getLast? <;> rfl

/-- A line in a quoted value becomes a part of it. -/
theorem not_same_quoted
    {delim : UInt8}
    (quote : delim = 0x22 ∨ delim = 0x27 ∨ delim = 0x2f)
    (payload : Bytes)
    (isIndent : Indent indent)
    (lineEnd : LineEnd) :
    ¬ ∀ remark, Remark commented remark →
      scanner.output (.quoted delim (some 0x0a) payload)
          (indent ++ (remark ++ lineEnd.text) ++ after) =
        scanner.output (.quoted delim (some 0x0a) payload) after := by
  intro same
  have equal := same _ (exists_remark commented)
  have plain : ∀ byte ∈ indent ++
      ((if commented then [0x23] else []) ++ lineEnd.text), byte ≠ delim := by
    intro byte member
    have facts : byte ≠ 0x22 ∧ byte ≠ 0x27 ∧ byte ≠ 0x2f := by
      rcases List.mem_append.mp member with inIndent | behind
      · exact (plain_indent isIndent inIndent).2
      rcases List.mem_append.mp behind with inRemark | inEnd
      · cases commented with
        | false => cases inRemark
        | true =>
            cases List.mem_singleton.mp inRemark
            decide
      · exact (plain_lineEnd inEnd).2
    rcases quote with rfl | rfl | rfl
    · exact facts.1
    · exact facts.2.1
    · exact facts.2.2
  have last : (indent ++ ((if commented then [0x23] else []) ++
      lineEnd.text)).getLast? = some 0x0a := by
    rw [← List.append_assoc]
    cases lineEnd <;> simp [LineEnd.text]
  obtain ⟨kind, more, -, token⟩ := output_quoted_zero delim (some 0x0a) after
  rw [Transducer.output_silent (run_quoted_plain plain _ _), last,
    Option.some_or] at equal
  have first := congrArg (fun read => (Prod.snd read).length) (congrFun equal 0)
  simp only [token, List.length_append] at first
  cases lineEnd <;> simp [LineEnd.text] at first

/-! ## Lines that are put into a text -/

/-- The tokens stay as they are, if what comes behind the start of the line is
read the same way. -/
theorem tokens_line_iff (label before line after : Bytes) :
    (∀ index, (nextToken^[index] (create label
        (before ++ (line ++ after)))).current =
          (nextToken^[index] (create label (before ++ after))).current) ↔
      scanner.output (scanner.run .blank before).2 (line ++ after) =
        scanner.output (scanner.run .blank before).2 after := by
  simp only [tokens_eq_output]
  rw [← funext_iff, Transducer.output_append, Transducer.output_append _ before]
  exact (prepend_injective _).eq_iff

/-- A line of an indentation, and of any comment if it has one, can be put before
a line of a text, and the tokens stay as they are, if and only if one of these
is the case: the lexer is stuck before; the line is in a comment and has none of
its own; it is empty and not the first; it is the first, and a line end
follows. -/
theorem line_insert_iff
    (label : Bytes)
    {before indent : Bytes}
    (lineStart : LineStart before)
    (isIndent : Indent indent)
    (commented : Bool)
    (lineEnd : LineEnd)
    (after : Bytes) :
    (∀ remark, Remark commented remark → ∀ index,
      (nextToken^[index] (create label (before ++
          (indent ++ (remark ++ lineEnd.text) ++ after)))).current =
        (nextToken^[index] (create label (before ++ after))).current) ↔
      (scanner.run .blank before).2.Hides indent commented after := by
  simp only [tokens_line_iff]
  by_cases first : before = []
  · subst first
    exact same_blank isIndent lineEnd
  cases atLine : (scanner.run .blank before).2 with
  | ends => exact same_ends isIndent lineEnd
  | stuck =>
      simp only [output_stuck]
      exact ⟨fun _ => trivial, fun _ _ _ => trivial⟩
  | comment star =>
      have place := atLine_of_lineStart lineStart first
      rw [atLine] at place
      cases place
      exact same_comment isIndent lineEnd
  | quoted delim last payload =>
      have place := atLine_of_lineStart lineStart first
      rw [atLine] at place
      cases place with
      | quoted _ _ quote =>
          exact iff_of_false (not_same_quoted quote payload isIndent lineEnd) id
  | _ =>
      have place := atLine_of_lineStart lineStart first
      rw [atLine] at place
      cases place

theorem line_insert_iff_empty :
    (∀ remark, Remark false remark → ∀ index,
      (nextToken^[index] (create (bytes "<string>") (bytes "a
" ++
          ([] ++ (remark ++ LineEnd.lf.text) ++ bytes "b
")))).current =
        (nextToken^[index] (create (bytes "<string>")
          (bytes "a
" ++ bytes "b
"))).current) ↔
      (scanner.run .blank (bytes "a
")).2.Hides [] false (bytes "b
") :=
  line_insert_iff _ (.inr (by decide)) (by simp [Indent]) false .lf _

/-- A text that begins with a comment begins with a line end, and not with its
first word. -/
theorem line_insert_first :
    LineStart [] ∧ Indent [] ∧ Remark true (bytes "# submit events to kafka") ∧
      (nextToken^[0] (create (bytes "<string>") ([] ++ ([] ++
          (bytes "# submit events to kafka" ++ LineEnd.lf.text) ++
            bytes "output kafka1
")))).current = endToken ∧
      (nextToken^[0] (create (bytes "<string>")
        ([] ++ bytes "output kafka1
"))).current =
          (.output, bytes "output") := by
  refine ⟨.inl rfl, by simp [Indent],
    ⟨bytes " submit events to kafka", by decide, oneLine_of_all (by decide)⟩,
    ?_, ?_⟩
  · rw [tokens_eq_output]
    decide
  · rw [tokens_eq_output]
    decide

end Config
end EvCollect
