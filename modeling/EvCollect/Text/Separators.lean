import Mathlib.Data.List.Infix

/-!
# Texts with separators

A text taken apart at a separator, which is itself a text: each part ends where
the separator stands first behind the parts before. Joining the parts with the
separator gives the text, and joining them with something else replaces it.
-/

namespace EvCollect
namespace Text

variable {α : Type}

/-- The separator stands in `before`, followed by the rest, at no position before
its end. -/
def FirstBehind (separator before rest : List α) : Prop :=
  ∀ position < before.length,
    ¬ separator <+: (before ++ (separator ++ rest)).drop position

theorem firstBehind_nil (separator rest : List α) :
    FirstBehind separator [] rest :=
  fun _ less => absurd less (Nat.not_lt_zero _)

/-- The parts of a text. -/
inductive Separated (separator : List α) : List α → List (List α) → Prop
  | last {text : List α}
      (absent : ¬ separator <:+: text) :
      Separated separator text [text]
  | next {before rest : List α} {parts : List (List α)}
      (first : FirstBehind separator before rest)
      (behind : Separated separator rest parts) :
      Separated separator (before ++ (separator ++ rest)) (before :: parts)

/-- The positions at which the separators begin, if the parts are joined with one
of a given length from a position on. -/
def starts (length : Nat) : Nat → List (List α) → List Nat
  | _, [] => []
  | _, [_] => []
  | position, part :: next :: parts =>
      (position + part.length) ::
        starts length (position + part.length + length) (next :: parts)

theorem starts_cons
    {parts : List (List α)}
    (nonempty : parts ≠ [])
    (length position : Nat)
    (part : List α) :
    starts length position (part :: parts) =
      (position + part.length) ::
        starts length (position + part.length + length) parts := by
  obtain ⟨next, parts, rfl⟩ := List.exists_cons_of_ne_nil nonempty
  rfl

theorem le_of_mem_starts
    {length : Nat}
    {parts : List (List α)} :
    ∀ {position start : Nat}, start ∈ starts length position parts →
      position ≤ start := by
  induction parts with
  | nil => exact nofun
  | cons part parts inductionHypothesis =>
      intro position start member
      by_cases isLast : parts = []
      · rw [isLast] at member
        exact absurd member List.not_mem_nil
      · rw [starts_cons isLast] at member
        rcases List.mem_cons.mp member with rfl | later
        · exact Nat.le_add_right _ _
        · have bound := inductionHypothesis later
          omega

/-- A separator begins behind the first part, or behind another separator. -/
theorem eq_or_le_of_mem_starts
    {length position start : Nat}
    {part : List α}
    {parts : List (List α)}
    (member : start ∈ starts length position (part :: parts)) :
    start = position + part.length ∨ position + part.length + length ≤ start := by
  by_cases isLast : parts = []
  · rw [isLast] at member
    exact absurd member List.not_mem_nil
  · rw [starts_cons isLast, List.mem_cons] at member
    exact member.imp_right le_of_mem_starts

/-! ## Joining -/

/-- A separator ends inside of the text that is joined. -/
theorem add_length_le_of_mem_starts
    {separator : List α}
    {parts : List (List α)} :
    ∀ {position start : Nat}, start ∈ starts separator.length position parts →
      start + separator.length ≤
        position + (separator.intercalate parts).length := by
  induction parts with
  | nil => exact nofun
  | cons part parts inductionHypothesis =>
      intro position start member
      by_cases isLast : parts = []
      · rw [isLast] at member
        exact absurd member List.not_mem_nil
      · rw [starts_cons isLast] at member
        rw [List.intercalate_cons_of_ne_nil isLast, List.length_append,
          List.length_append]
        rcases List.mem_cons.mp member with rfl | later
        · omega
        · have bound := inductionHypothesis later
          omega

/-- A shorter separator gives no longer text. -/
theorem length_intercalate_le
    {short long : List α}
    (shorter : short.length ≤ long.length)
    (parts : List (List α)) :
    (short.intercalate parts).length ≤ (long.intercalate parts).length := by
  induction parts with
  | nil => exact Nat.le_refl _
  | cons part parts inductionHypothesis =>
      by_cases isLast : parts = []
      · rw [isLast, List.intercalate_singleton, List.intercalate_singleton]
      · rw [List.intercalate_cons_of_ne_nil isLast,
          List.intercalate_cons_of_ne_nil isLast]
        simp only [List.length_append]
        omega

theorem length_le_intercalate
    (separator : List α)
    {part : List α}
    {parts : List (List α)}
    (member : part ∈ parts) :
    part.length ≤ (separator.intercalate parts).length := by
  induction parts with
  | nil => exact absurd member List.not_mem_nil
  | cons first parts inductionHypothesis =>
      by_cases isLast : parts = []
      · rw [isLast] at member ⊢
        rw [List.mem_singleton.mp member, List.intercalate_singleton]
      · rw [List.intercalate_cons_of_ne_nil isLast, List.length_append,
          List.length_append]
        rcases List.mem_cons.mp member with rfl | later
        · omega
        · have bound := inductionHypothesis later
          omega

/-- The separator stands first behind one part only. -/
theorem FirstBehind.length_le
    {separator before rest before' rest' : List α}
    (first : FirstBehind separator before rest)
    (same : before ++ (separator ++ rest) = before' ++ (separator ++ rest')) :
    before.length ≤ before'.length := by
  by_contra later
  refine first before'.length (Nat.lt_of_not_le later) ?_
  rw [same, List.drop_left]
  exact List.prefix_append _ _

namespace Separated

variable {separator text : List α}
variable {parts : List (List α)}

theorem ne_nil
    (separated : Separated separator text parts) :
    parts ≠ [] := by
  cases separated <;> exact List.cons_ne_nil _ _

/-- Joining the parts gives the text. -/
theorem intercalate_eq
    (separated : Separated separator text parts) :
    separator.intercalate parts = text := by
  induction separated with
  | last absent => exact List.intercalate_singleton
  | next first behind inductionHypothesis =>
      rw [List.intercalate_cons_of_ne_nil behind.ne_nil, inductionHypothesis,
        List.append_assoc]

/-- There is at most one part more than there are letters. -/
theorem length_le
    (nonempty : separator ≠ [])
    (separated : Separated separator text parts) :
    parts.length ≤ text.length + 1 := by
  have positive := List.length_pos_of_ne_nil nonempty
  induction separated with
  | last absent =>
      rw [List.length_singleton]
      exact Nat.le_add_left 1 _
  | next first behind inductionHypothesis =>
      simp only [List.length_append, List.length_cons]
      omega

/-- Other separators make a text longer by their length for each of its letters at
most. -/
theorem length_intercalate_le
    (nonempty : separator ≠ [])
    (separated : Separated separator text parts)
    (other : List α) :
    (other.intercalate parts).length ≤ text.length * (other.length + 1) := by
  have positive := List.length_pos_of_ne_nil nonempty
  induction separated with
  | last absent =>
      rw [List.intercalate_singleton]
      exact Nat.le_mul_of_pos_right _ (Nat.succ_pos _)
  | @next before rest parts first behind inductionHypothesis =>
      have here : before.length ≤ before.length * (other.length + 1) :=
        Nat.le_mul_of_pos_right _ (Nat.succ_pos _)
      have between : other.length + 1 ≤ separator.length * (other.length + 1) :=
        Nat.le_mul_of_pos_left _ positive
      rw [List.intercalate_cons_of_ne_nil behind.ne_nil]
      simp only [List.length_append, Nat.add_mul]
      omega

/-- No part contains the separator. -/
theorem absent
    (nonempty : separator ≠ [])
    (separated : Separated separator text parts) :
    ∀ part ∈ parts, ¬ separator <:+: part := by
  induction separated with
  | last absent => exact List.forall_mem_singleton.mpr absent
  | next first behind inductionHypothesis =>
      refine List.forall_mem_cons.mpr ⟨?_, inductionHypothesis⟩
      rintro ⟨front, back, rfl⟩
      have positive := List.length_pos_of_ne_nil nonempty
      refine first front.length ?_ ?_
      · simp only [List.length_append]
        omega
      · rw [List.append_assoc, List.append_assoc, List.drop_left]
        exact List.prefix_append _ _

/-- Separated by a single letter. -/
theorem eq_splitOn
    [BEq α] [LawfulBEq α]
    {letter : α}
    (separated : Separated [letter] text parts) :
    parts = text.splitOn letter := by
  have absent := separated.absent (List.cons_ne_nil letter [])
  rw [← separated.intercalate_eq]
  refine (List.splitOn_intercalate letter (fun part member => ?_)
    separated.ne_nil).symm
  exact fun here => absent part member ((List.singleton_infix_iff _ _).mpr here)

/-- A text is taken apart in one way. -/
theorem unique
    (separated : Separated separator text parts) :
    ∀ {others : List (List α)}, Separated separator text others →
      parts = others := by
  induction separated with
  | @last text absent =>
      intro others other
      cases other with
      | last => rfl
      | @next before rest =>
          exact absurd ⟨before, rest, List.append_assoc _ _ _⟩ absent
  | @next before rest parts first behind inductionHypothesis =>
      intro others other
      generalize same : before ++ (separator ++ rest) = text at other
      cases other with
      | last absent =>
          exact absurd ⟨before, rest, by rw [List.append_assoc, same]⟩ absent
      | @next before' rest' parts' first' behind' =>
          have length := Nat.le_antisymm (first.length_le same)
            (first'.length_le same.symm)
          obtain ⟨rfl, rests⟩ := List.append_inj same length
          cases List.append_cancel_left rests
          rw [inductionHypothesis behind']

end Separated

end Text
end EvCollect
