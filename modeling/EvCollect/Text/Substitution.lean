import Mathlib.Logic.Function.Basic
import EvCollect.Text.Separators

/-!
# Substitution of placeholders

A placeholder is a mark and a name, a letter each. Replacing the placeholders of
one name after the other gives what one pass over the text gives, as long as what
is put in does not make a placeholder of a name whose turn is still to come.
-/

namespace EvCollect
namespace Text

variable {α : Type} [DecidableEq α]

/-- One pass from left to right: a placeholder whose name has a value is replaced
by it, and everything else is copied. -/
def substitute (mark : α) (values : α → Option (List α)) : List α → List α
  | [] => []
  | [last] => [last]
  | first :: second :: rest =>
      if first = mark then
        match values second with
        | some value => value ++ substitute mark values rest
        | none => first :: substitute mark values (second :: rest)
      else first :: substitute mark values (second :: rest)

/-- The positions in the result at which a pass puts in a value, if the text
begins at a given one. -/
def insertions (mark : α) (values : α → Option (List α)) :
    Nat → List α → List Nat
  | _, [] => []
  | _, [_] => []
  | start, first :: second :: rest =>
      if first = mark then
        match values second with
        | some value =>
            start :: insertions mark values (start + value.length) rest
        | none => insertions mark values (start + 1) (second :: rest)
      else insertions mark values (start + 1) (second :: rest)

/-- At how many positions of a text a placeholder stands. -/
def occurrences (mark name : α) (text : List α) : Nat :=
  text.tails.countP ([mark, name].isPrefixOf ·)

/-- A single value. -/
def single (name : α) (value : List α) : α → Option (List α) :=
  Function.update (fun _ => none) name (some value)

variable {mark name : α}
variable {values : α → Option (List α)}

/-! ## The letters of a text -/

/-- A letter at which no placeholder is replaced. -/
def Plain
    (mark : α)
    (values : α → Option (List α))
    (first : α)
    (rest : List α) : Prop :=
  first = mark → ∀ second ∈ rest.head?, values second = none

theorem substitute_plain
    {first : α}
    {rest : List α}
    (plain : Plain mark values first rest) :
    substitute mark values (first :: rest) =
      first :: substitute mark values rest := by
  cases rest with
  | nil => rfl
  | cons second rest =>
      rw [substitute]
      split
      next isMark => rw [plain isMark second rfl]
      next => rfl

/-- A letter that is not the mark is copied. -/
theorem substitute_letter
    {first : α}
    (notMark : first ≠ mark)
    (rest : List α) :
    substitute mark values (first :: rest) =
      first :: substitute mark values rest :=
  substitute_plain fun isMark => absurd isMark notMark

theorem substitute_placeholder
    {second : α}
    {value : List α}
    (given : values second = some value)
    (rest : List α) :
    substitute mark values (mark :: second :: rest) =
      value ++ substitute mark values rest := by
  rw [substitute, if_pos rfl, given]

theorem insertions_plain
    {first : α}
    {rest : List α}
    (plain : Plain mark values first rest)
    (start : Nat) :
    insertions mark values start (first :: rest) =
      insertions mark values (start + 1) rest := by
  cases rest with
  | nil => rfl
  | cons second rest =>
      rw [insertions]
      split
      next isMark => rw [plain isMark second rfl]
      next => rfl

theorem insertions_placeholder
    {second : α}
    {value : List α}
    (given : values second = some value)
    (start : Nat)
    (rest : List α) :
    insertions mark values start (mark :: second :: rest) =
      start :: insertions mark values (start + value.length) rest := by
  rw [insertions, if_pos rfl, given]

/-- Induction over the letters and the placeholders that a pass reads. -/
theorem substitute_induction
    (mark : α)
    (values : α → Option (List α))
    {motive : List α → Prop}
    (nil : motive [])
    (letter : ∀ first rest, Plain mark values first rest → motive rest →
      motive (first :: rest))
    (placeholder : ∀ second value rest, values second = some value →
      motive rest → motive (mark :: second :: rest)) :
    ∀ text, motive text
  | [] => nil
  | [last] => letter last [] (fun _ => nofun) nil
  | first :: second :: rest => by
      have behind := substitute_induction mark values nil letter placeholder rest
      have next := substitute_induction mark values nil letter placeholder
        (second :: rest)
      by_cases isMark : first = mark
      · cases given : values second with
        | some value => exact isMark ▸ placeholder second value rest given behind
        | none =>
            refine letter first _ (fun _ other isHead => ?_) next
            cases isHead
            exact given
      · exact letter first _ (fun same => absurd same isMark) next

theorem substitute_eq_self
    (absent : ∀ name, values name = none)
    (text : List α) :
    substitute mark values text = text := by
  induction text with
  | nil => rfl
  | cons first rest inductionHypothesis =>
      rw [substitute_plain fun _ second _ => absent second, inductionHypothesis]

/-! ## Counting placeholders -/

theorem isPrefixOf_placeholder (first : α) (rest : List α) :
    [mark, name].isPrefixOf (first :: rest) = true ↔
      first = mark ∧ rest.head? = some name := by
  cases rest with
  | nil => simp
  | cons second rest => simp [@eq_comm _ mark, @eq_comm _ name]

theorem occurrences_cons (first : α) (rest : List α) :
    occurrences mark name (first :: rest) = occurrences mark name rest +
      if first = mark ∧ rest.head? = some name then 1 else 0 := by
  rw [occurrences, List.tails_cons, List.countP_cons, occurrences]
  simp only [isPrefixOf_placeholder]

theorem occurrences_le_append (before text : List α) :
    occurrences mark name text ≤ occurrences mark name (before ++ text) := by
  induction before with
  | nil => exact Nat.le_refl _
  | cons first before inductionHypothesis =>
      rw [List.cons_append, occurrences_cons]
      exact Nat.le_add_right_of_le inductionHypothesis

/-- A placeholder with a value is no placeholder of another name. -/
theorem occurrences_placeholder
    (markPlain : values mark = none)
    (namePlain : values name = none)
    {second : α}
    {value : List α}
    (given : values second = some value)
    (rest : List α) :
    occurrences mark name (mark :: second :: rest) =
      occurrences mark name rest := by
  have notName : second ≠ name := by
    rintro rfl
    cases namePlain.symm.trans given
  have notMark : second ≠ mark := by
    rintro rfl
    cases markPlain.symm.trans given
  rw [occurrences_cons, occurrences_cons, if_neg fun both => notMark both.1,
    if_neg fun both => notName (Option.some.inj both.2), Nat.add_zero]

/-- A name is copied. -/
theorem head?_substitute
    (different : name ≠ mark)
    {text : List α}
    (isHead : text.head? = some name) :
    (substitute mark values text).head? = some name := by
  obtain ⟨rest, rfl⟩ := List.head?_eq_some_iff.mp isHead
  rw [substitute_letter different, List.head?_cons]

/-- The placeholders without a value are kept, and others can arise. -/
theorem occurrences_le_substitute
    (different : name ≠ mark)
    (markPlain : values mark = none)
    (namePlain : values name = none)
    (text : List α) :
    occurrences mark name text ≤
      occurrences mark name (substitute mark values text) := by
  induction text using substitute_induction mark values with
  | nil => exact Nat.le_refl _
  | letter first rest plain inductionHypothesis =>
      rw [substitute_plain plain, occurrences_cons, occurrences_cons]
      refine Nat.add_le_add inductionHypothesis ?_
      split
      next both =>
        rw [if_pos ⟨both.1, head?_substitute different both.2⟩]
      next => exact Nat.zero_le _
  | placeholder second value rest given inductionHypothesis =>
      rw [occurrences_placeholder markPlain namePlain given,
        substitute_placeholder given]
      exact Nat.le_trans inductionHypothesis (occurrences_le_append _ _)

/-! ## One name behind the others -/

theorem Plain.update
    {first : α}
    {rest value : List α}
    (plain : Plain mark values first rest)
    (absent : ¬ (first = mark ∧ rest.head? = some name)) :
    Plain mark (Function.update values name (some value)) first rest := by
  intro isMark second isHead
  have other : second ≠ name := by
    rintro rfl
    exact absent ⟨isMark, isHead⟩
  rw [Function.update_of_ne other, plain isMark second isHead]

theorem plain_single
    {first : α}
    {rest value : List α}
    (absent : ¬ (first = mark ∧ rest.head? = some name)) :
    Plain mark (single name value) first rest :=
  Plain.update (fun _ _ _ => rfl) absent

theorem substitute_single_placeholder (value rest : List α) :
    substitute mark (single name value) (mark :: name :: rest) =
      value ++ substitute mark (single name value) rest :=
  substitute_placeholder (Function.update_self _ _ _) rest

section

variable {before behind : List α}

/-- There is no placeholder at the first letter. -/
theorem plain_of_free
    {first : α}
    {value rest : List α}
    (free : ¬ [mark, name] <+: first :: rest) :
    Plain mark (single name value) first rest := by
  refine plain_single fun both => free ?_
  exact List.isPrefixOf_iff_prefix.mp ((isPrefixOf_placeholder _ _).mpr both)

/-- What stands before the first placeholder is copied. -/
theorem substitute_single_copied
    {value : List α}
    (free : ∀ position < before.length,
      ¬ [mark, name] <+: (before ++ behind).drop position) :
    substitute mark (single name value) (before ++ behind) =
      before ++ substitute mark (single name value) behind := by
  induction before with
  | nil => rfl
  | cons first before inductionHypothesis =>
      have here : ¬ [mark, name] <+: first :: (before ++ behind) :=
        free 0 (Nat.zero_lt_succ _)
      rw [List.cons_append, substitute_plain (plain_of_free here),
        inductionHypothesis fun position less =>
          free (position + 1) (Nat.succ_lt_succ less),
        List.cons_append]

theorem insertions_single_copied
    {value : List α} :
    ∀ {start : Nat},
      (∀ position < before.length,
        ¬ [mark, name] <+: (before ++ behind).drop position) →
      insertions mark (single name value) start (before ++ behind) =
        insertions mark (single name value) (start + before.length) behind := by
  induction before with
  | nil => exact fun _ => rfl
  | cons first before inductionHypothesis =>
      intro start free
      have here : ¬ [mark, name] <+: first :: (before ++ behind) :=
        free 0 (Nat.zero_lt_succ _)
      rw [List.cons_append, insertions_plain (plain_of_free here),
        inductionHypothesis fun position less =>
          free (position + 1) (Nat.succ_lt_succ less),
        List.length_cons, Nat.add_right_comm, Nat.add_assoc]

end

/-- A pass for one name joins the parts of the text with its value, -/
theorem substitute_single_separated
    {text : List α}
    {parts : List (List α)}
    (separated : Separated [mark, name] text parts)
    (value : List α) :
    substitute mark (single name value) text = value.intercalate parts := by
  induction separated with
  | @last text absent =>
      have copied := @substitute_single_copied α _ mark name text [] value
        fun position _ here => absent ?_
      · rw [List.append_nil, substitute, List.append_nil] at copied
        rw [copied, List.intercalate_singleton]
      · rw [List.append_nil] at here
        exact here.isInfix.trans (List.drop_suffix _ _).isInfix
  | next first behind inductionHypothesis =>
      rw [substitute_single_copied first, List.cons_append,
        List.singleton_append, substitute_single_placeholder,
        inductionHypothesis, List.intercalate_cons_of_ne_nil behind.ne_nil,
        List.append_assoc]

/-- and puts it in between them. -/
theorem insertions_single_separated
    {text : List α}
    {parts : List (List α)}
    (separated : Separated [mark, name] text parts)
    (value : List α) :
    ∀ start, insertions mark (single name value) start text =
      starts value.length start parts := by
  induction separated with
  | @last text absent =>
      intro start
      have copied := @insertions_single_copied α _ mark name text [] value start
        fun position _ here => absent ?_
      · rwa [List.append_nil] at copied
      · rw [List.append_nil] at here
        exact here.isInfix.trans (List.drop_suffix _ _).isInfix
  | next first behind inductionHypothesis =>
      intro start
      rw [insertions_single_copied first, List.cons_append,
        List.singleton_append, starts_cons behind.ne_nil,
        ← inductionHypothesis]
      exact insertions_placeholder (Function.update_self _ _ _) _ _

/-- What is put in before a text is copied if it makes no placeholder. -/
theorem substitute_single_append
    {value before text : List α}
    (same : occurrences mark name (before ++ text) =
      occurrences mark name text) :
    substitute mark (single name value) (before ++ text) =
      before ++ substitute mark (single name value) text := by
  induction before with
  | nil => rfl
  | cons first before inductionHypothesis =>
      have atLeast := @occurrences_le_append α _ mark name before text
      rw [List.cons_append, occurrences_cons] at same
      split at same
      next => omega
      next absent =>
        rw [List.cons_append, substitute_plain (plain_single absent),
          inductionHypothesis same, List.cons_append]

/-- Replacing the placeholders of one more name, behind a pass for others, is one
pass, if that name has no more placeholders than in the text. -/
theorem substitute_single_substitute
    (different : name ≠ mark)
    (markPlain : values mark = none)
    (namePlain : values name = none)
    {text : List α}
    (value : List α)
    (same : occurrences mark name (substitute mark values text) =
      occurrences mark name text) :
    substitute mark (single name value) (substitute mark values text) =
      substitute mark (Function.update values name (some value)) text := by
  have kept := occurrences_le_substitute different markPlain namePlain
  induction text using substitute_induction mark values with
  | nil => rfl
  | letter first rest plain inductionHypothesis =>
      have atLeast := kept rest
      rw [substitute_plain plain, occurrences_cons, occurrences_cons] at same
      rw [substitute_plain plain]
      by_cases both : first = mark ∧ rest.head? = some name
      · -- A placeholder of the name: its letters have been copied.
        rw [if_pos both, if_pos ⟨both.1, head?_substitute different both.2⟩,
          Nat.add_right_cancel_iff] at same
        have behind := inductionHypothesis same
        obtain ⟨rfl, isHead⟩ := both
        obtain ⟨rest, rfl⟩ := List.head?_eq_some_iff.mp isHead
        simp only [substitute_letter different, List.cons.injEq, true_and]
          at behind
        rw [substitute_letter different, substitute_single_placeholder, behind,
          substitute_placeholder (Function.update_self name _ values)]
      · rw [if_neg both] at same
        split at same
        next => omega
        next absent =>
          rw [substitute_plain (plain_single absent), inductionHypothesis same,
            substitute_plain (plain.update both)]
  | placeholder second value' rest given inductionHypothesis =>
      have atLeast := kept rest
      have behind := @occurrences_le_append α _ mark name value'
        (substitute mark values rest)
      have other : second ≠ name := by
        rintro rfl
        cases namePlain.symm.trans given
      have givenToo : Function.update values name (some value) second =
          some value' := by rw [Function.update_of_ne other, given]
      rw [substitute_placeholder given,
        occurrences_placeholder markPlain namePlain given] at same
      rw [substitute_placeholder given, substitute_single_append (by omega),
        inductionHypothesis (by omega), substitute_placeholder givenToo]

/-! ## Texts side by side -/

/-- A text without marks is copied. -/
theorem substitute_append_of_not_mem
    {before : List α}
    (absent : mark ∉ before)
    (behind : List α) :
    substitute mark values (before ++ behind) =
      before ++ substitute mark values behind := by
  induction before with
  | nil => rfl
  | cons first before inductionHypothesis =>
      rw [List.mem_cons, not_or] at absent
      rw [List.cons_append, substitute_letter (Ne.symm absent.1),
        inductionHypothesis absent.2, List.cons_append]

theorem substitute_of_not_mem
    {text : List α}
    (absent : mark ∉ text) : substitute mark values text = text := by
  have copied := @substitute_append_of_not_mem α _ mark values text absent []
  rwa [List.append_nil, substitute, List.append_nil] at copied

/-- A pass goes over two texts one after the other, if the second one does not
begin with a name. -/
theorem substitute_append
    {before behind : List α}
    (free : ∀ second ∈ behind.head?, values second = none) :
    substitute mark values (before ++ behind) =
      substitute mark values before ++ substitute mark values behind := by
  induction before using substitute_induction mark values with
  | nil => rfl
  | letter first rest plain inductionHypothesis =>
      have stillPlain : Plain mark values first (rest ++ behind) := by
        intro isMark second isHead
        cases rest with
        | nil => exact free second isHead
        | cons next rest => exact plain isMark second isHead
      rw [List.cons_append, substitute_plain stillPlain, inductionHypothesis,
        substitute_plain plain, List.cons_append]
  | placeholder second value rest given inductionHypothesis =>
      rw [List.cons_append, List.cons_append, substitute_placeholder given,
        inductionHypothesis, substitute_placeholder given, List.append_assoc]

/-- Without the mark there is no placeholder. -/
theorem occurrences_append_of_not_mem
    {before : List α}
    (absent : mark ∉ before)
    (behind : List α) :
    occurrences mark name (before ++ behind) = occurrences mark name behind := by
  induction before with
  | nil => rfl
  | cons first before inductionHypothesis =>
      rw [List.mem_cons, not_or] at absent
      rw [List.cons_append, occurrences_cons, inductionHypothesis absent.2,
        if_neg fun both => absent.1 both.1.symm, Nat.add_zero]

/-! ## Texts that a pass leaves as they are -/

theorem not_placeholder_of_plain
    {first : α}
    {value rest : List α}
    (plain : Plain mark (single name value) first rest) :
    ¬ (first = mark ∧ rest.head? = some name) := by
  rintro ⟨isMark, isHead⟩
  have absent := plain isMark name isHead
  rw [single, Function.update_self] at absent
  cases absent

theorem eq_name_of_single
    {second : α}
    {value replacement : List α}
    (given : single name value second = some replacement) : second = name := by
  by_contra other
  rw [single, Function.update_of_ne other] at given
  cases given

/-- Each placeholder makes room for its value. -/
theorem length_substitute_single
    (different : name ≠ mark)
    (value text : List α) :
    (substitute mark (single name value) text).length +
        2 * occurrences mark name text =
      text.length + value.length * occurrences mark name text := by
  induction text using substitute_induction mark (single name value) with
  | nil => rfl
  | letter first rest plain inductionHypothesis =>
      rw [substitute_plain plain, occurrences_cons,
        if_neg (not_placeholder_of_plain plain), Nat.add_zero, List.length_cons,
        List.length_cons]
      omega
  | placeholder second replacement rest given inductionHypothesis =>
      cases eq_name_of_single given
      rw [substitute_single_placeholder, occurrences_cons, if_pos ⟨rfl, rfl⟩,
        occurrences_cons, if_neg fun both => different both.1, List.length_append,
        List.length_cons, List.length_cons, Nat.add_zero, Nat.mul_succ, Nat.mul_succ]
      omega

/-- A pass leaves a text as it is if and only if there is nothing to replace, or
each placeholder is replaced by itself. -/
theorem substitute_single_eq_self_iff
    (different : name ≠ mark)
    (value text : List α) :
    substitute mark (single name value) text = text ↔
      occurrences mark name text = 0 ∨ value = [mark, name] := by
  constructor
  · intro same
    by_cases none : occurrences mark name text = 0
    · exact .inl none
    right
    have lengths := length_substitute_single different value text
    rw [same] at lengths
    have two : value.length = 2 :=
      (Nat.eq_of_mul_eq_mul_right (Nat.pos_of_ne_zero none)
        (Nat.add_left_cancel lengths)).symm
    clear lengths
    induction text using substitute_induction mark (single name value) with
    | nil => exact absurd rfl none
    | letter first rest plain inductionHypothesis =>
        rw [substitute_plain plain] at same
        refine inductionHypothesis (List.cons.inj same).2 fun restNone => none ?_
        rw [occurrences_cons, restNone, if_neg (not_placeholder_of_plain plain)]
    | placeholder second replacement rest given _ =>
        cases eq_name_of_single given
        rw [substitute_single_placeholder] at same
        exact (List.append_inj same two).1
  · intro kept
    induction text using substitute_induction mark (single name value) with
    | nil => rfl
    | letter first rest plain inductionHypothesis =>
        rw [substitute_plain plain, inductionHypothesis]
        refine kept.imp_left fun none => ?_
        rw [occurrences_cons] at none
        exact (Nat.add_eq_zero_iff.mp none).1
    | placeholder second replacement rest given inductionHypothesis =>
        cases eq_name_of_single given
        rcases kept with none | isPlaceholder
        · rw [occurrences_cons, if_pos ⟨rfl, rfl⟩] at none
          exact absurd none (Nat.succ_ne_zero _)
        · rw [substitute_single_placeholder,
            inductionHypothesis (.inr isPlaceholder), isPlaceholder]
          rfl

end Text
end EvCollect
