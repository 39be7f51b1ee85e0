import Mathlib.Data.List.Basic

/-!
# Matching with backtracking

A pattern is matched in front of a continuation, which gets what the pattern has
consumed and the rest of the text. A greedy repetition goes as far as it can and
comes back symbol by symbol until the continuation accepts.
-/

namespace EvCollect
namespace Text

variable {α β : Type}

/-- What follows a pattern: it gets what the pattern has consumed and the rest
of the text. -/
abbrev Continuation (α β : Type) := List α → List α → Option β

/-- A greedy repetition, from which `consumed` has been consumed. -/
def greedyStar
    (allowed : α → Bool)
    (next : Continuation α β)
    (consumed : List α) : List α → Option β
  | [] => next consumed []
  | symbol :: rest =>
      if allowed symbol then
        (greedyStar allowed next (consumed ++ [symbol]) rest).or
          (next consumed (symbol :: rest))
      else next consumed (symbol :: rest)

/-- A greedy repetition that consumes at least one symbol. -/
def greedyPlus
    (allowed : α → Bool)
    (next : Continuation α β)
    (text : List α) : Option β :=
  greedyStar allowed (fun consumed rest =>
    if consumed.isEmpty then none else next consumed rest) [] text

/-- A fixed text. -/
def literal
    [DecidableEq α]
    (word : List α)
    (next : List α → Option β)
    (text : List α) : Option β :=
  if word.isPrefixOf text then next (text.drop word.length) else none

/-- The continuation accepts a division of a text in front of which all symbols
are allowed. -/
structure Divides
    (allowed : α → Bool)
    (next : Continuation α β)
    (consumed text before behind : List α)
    (value : β) : Prop where
  text_eq : text = before ++ behind
  allowed : ∀ symbol ∈ before, allowed symbol = true
  accepted : next (consumed ++ before) behind = some value

variable {allowed : α → Bool}
variable {next : Continuation α β}
variable {value : β}

theorem divides_nil_iff
    {consumed before behind : List α} :
    Divides allowed next consumed [] before behind value ↔
      before = [] ∧ behind = [] ∧ next consumed [] = some value := by
  constructor
  · rintro ⟨equal, _, accepted⟩
    obtain ⟨rfl, rfl⟩ := List.append_eq_nil_iff.mp equal.symm
    exact ⟨rfl, rfl, by rwa [List.append_nil] at accepted⟩
  · rintro ⟨rfl, rfl, accepted⟩
    exact ⟨rfl, by simp, by rwa [List.append_nil]⟩

/-- A text is divided in front of its first symbol or behind it. -/
theorem divides_cons_iff
    {symbol : α}
    {consumed rest before behind : List α} :
    Divides allowed next consumed (symbol :: rest) before behind value ↔
      (before = [] ∧ behind = symbol :: rest ∧
        next consumed (symbol :: rest) = some value) ∨
      ∃ before', before = symbol :: before' ∧ allowed symbol = true ∧
        Divides allowed next (consumed ++ [symbol]) rest before' behind
          value := by
  constructor
  · rintro ⟨equal, all, accepted⟩
    cases before with
    | nil =>
        rw [List.nil_append] at equal
        rw [List.append_nil, ← equal] at accepted
        exact .inl ⟨rfl, equal.symm, accepted⟩
    | cons first before' =>
        rw [List.cons_append, List.cons.injEq] at equal
        obtain ⟨rfl, rest_eq⟩ := equal
        rw [List.forall_mem_cons] at all
        rw [List.append_cons] at accepted
        exact .inr ⟨before', rfl, all.1, rest_eq, all.2, accepted⟩
  · rintro (⟨rfl, rfl, accepted⟩ | ⟨before', rfl, isAllowed, divides⟩)
    · exact ⟨rfl, by simp, by rwa [List.append_nil]⟩
    · refine ⟨?_, ?_, ?_⟩
      · rw [divides.text_eq, List.cons_append]
      · exact List.forall_mem_cons.mpr ⟨isAllowed, divides.allowed⟩
      · rw [List.append_cons]
        exact divides.accepted

/-- Nothing is found if and only if the continuation accepts no division. -/
theorem greedyStar_eq_none_iff {consumed text : List α} :
    greedyStar allowed next consumed text = none ↔
      ∀ before behind value,
        ¬Divides allowed next consumed text before behind value := by
  induction text generalizing consumed with
  | nil =>
      simp only [greedyStar, divides_nil_iff, not_and]
      constructor
      · rintro refused _ _ value rfl rfl accepted
        exact Option.some_ne_none value (accepted.symm.trans refused)
      · exact fun none => Option.eq_none_iff_forall_ne_some.mpr
          fun value => none [] [] value rfl rfl
  | cons symbol rest inductionHypothesis =>
      simp only [greedyStar, divides_cons_iff, not_or, not_exists, not_and]
      have stops : next consumed (symbol :: rest) = none ↔
          ∀ value, next consumed (symbol :: rest) ≠ some value :=
        Option.eq_none_iff_forall_ne_some
      split
      next isAllowed =>
        rw [Option.or_eq_none_iff, inductionHypothesis, stops]
        constructor
        · rintro ⟨further, here⟩ before behind value
          exact ⟨fun _ _ => here value, fun before' _ _ =>
            further before' behind value⟩
        · intro none
          exact ⟨fun before' behind value =>
            (none _ behind value).2 before' rfl isAllowed,
            fun value => (none _ _ value).1 rfl rfl⟩
      next forbidden =>
        rw [stops]
        constructor
        · intro here before behind value
          exact ⟨fun _ _ => here value,
            fun _ _ isAllowed => absurd isAllowed forbidden⟩
        · exact fun none value => (none _ _ value).1 rfl rfl

/-- What is found is the last division that the continuation accepts. -/
theorem greedyStar_eq_some_iff {consumed text : List α} :
    greedyStar allowed next consumed text = some value ↔
      ∃ before behind,
        Divides allowed next consumed text before behind value ∧
        ∀ before' behind' value',
          Divides allowed next consumed text before' behind' value' →
          before'.length ≤ before.length := by
  induction text generalizing consumed value with
  | nil =>
      simp only [greedyStar, divides_nil_iff]
      constructor
      · rintro accepted
        refine ⟨[], [], ⟨rfl, rfl, accepted⟩, ?_⟩
        rintro before' behind' value' ⟨rfl, -, -⟩
        exact Nat.le_refl _
      · rintro ⟨before, behind, ⟨-, -, accepted⟩, -⟩
        exact accepted
  | cons symbol rest inductionHypothesis =>
      rw [greedyStar]
      split
      next isAllowed =>
        cases further : greedyStar allowed next (consumed ++ [symbol]) rest with
        | none =>
            have noMore := greedyStar_eq_none_iff.mp further
            rw [Option.none_or]
            constructor
            · intro accepted
              refine ⟨[], _, divides_cons_iff.mpr (.inl ⟨rfl, rfl, accepted⟩),
                ?_⟩
              intro before' behind' value' divides
              rcases divides_cons_iff.mp divides with
                ⟨rfl, -, -⟩ | ⟨later, -, -, behind⟩
              · exact Nat.le_refl _
              · exact absurd behind (noMore later behind' value')
            · rintro ⟨before, behind, divides, -⟩
              rcases divides_cons_iff.mp divides with
                ⟨-, -, accepted⟩ | ⟨later, -, -, inside⟩
              · exact accepted
              · exact absurd inside (noMore later behind value)
        | some found =>
            obtain ⟨later, last, inside, maximal⟩ :=
              inductionHypothesis.mp further
            rw [Option.some_or]
            constructor
            · intro same
              cases same
              refine ⟨symbol :: later, last, divides_cons_iff.mpr
                (.inr ⟨later, rfl, isAllowed, inside⟩), ?_⟩
              intro before' behind' value' divides
              rcases divides_cons_iff.mp divides with
                ⟨rfl, -, -⟩ | ⟨other, rfl, -, behind⟩
              · exact Nat.zero_le _
              · exact Nat.succ_le_succ (maximal other behind' value' behind)
            · rintro ⟨before, behind, divides, greatest⟩
              rcases divides_cons_iff.mp divides with
                ⟨rfl, -, -⟩ | ⟨other, rfl, -, behind'⟩
              · exact absurd (greatest (symbol :: later) last found
                  (divides_cons_iff.mpr
                    (.inr ⟨later, rfl, isAllowed, inside⟩)))
                  (Nat.not_succ_le_zero _)
              · rw [← further]
                refine inductionHypothesis.mpr ⟨other, behind, behind', ?_⟩
                intro before' last' value' divides'
                exact Nat.le_of_succ_le_succ (greatest (symbol :: before') last'
                  value' (divides_cons_iff.mpr
                    (.inr ⟨before', rfl, isAllowed, divides'⟩)))
      next forbidden =>
        constructor
        · intro accepted
          refine ⟨[], _, divides_cons_iff.mpr (.inl ⟨rfl, rfl, accepted⟩), ?_⟩
          intro before' behind' value' divides
          rcases divides_cons_iff.mp divides with
            ⟨rfl, -, -⟩ | ⟨_, -, isAllowed, -⟩
          · exact Nat.le_refl _
          · exact absurd isAllowed forbidden
        · rintro ⟨before, behind, divides, -⟩
          rcases divides_cons_iff.mp divides with
            ⟨-, -, accepted⟩ | ⟨_, -, isAllowed, -⟩
          · exact accepted
          · exact absurd isAllowed forbidden

/-- Where the continuation does not accept in front of an allowed symbol, there
is nothing to come back from. -/
theorem greedyPlus_eq_some_iff
    {text : List α}
    (stops : ∀ consumed symbol rest value, allowed symbol = true →
      next consumed (symbol :: rest) ≠ some value) :
    greedyPlus allowed next text = some value ↔
      ∃ before behind, text = before ++ behind ∧ before ≠ [] ∧
        (∀ symbol ∈ before, allowed symbol = true) ∧
        next before behind = some value := by
  have accepted {before behind : List α} {value : β}
      (divides : Divides allowed
        (fun consumed rest => if consumed.isEmpty then none
          else next consumed rest) [] text before behind value) :
      before ≠ [] ∧ next before behind = some value := by
    have result := divides.accepted
    rw [List.nil_append] at result
    split at result
    next => cases result
    next nonempty =>
      exact ⟨fun empty => nonempty (List.isEmpty_iff.mpr empty), result⟩
  rw [greedyPlus, greedyStar_eq_some_iff]
  constructor
  · rintro ⟨before, behind, divides, -⟩
    obtain ⟨nonempty, result⟩ := accepted divides
    exact ⟨before, behind, divides.text_eq, nonempty, divides.allowed, result⟩
  · rintro ⟨before, behind, equal, nonempty, all, result⟩
    refine ⟨before, behind, ⟨equal, all, ?_⟩, ?_⟩
    · rw [List.nil_append, if_neg (List.isEmpty_iff.not.mpr nonempty), result]
    · intro before' behind' value' divides
      have equal' := equal.symm.trans divides.text_eq
      rcases List.append_eq_append_iff.mp equal' with
        ⟨more, rfl, rest⟩ | ⟨more, rfl, -⟩
      · cases more with
        | nil =>
            exact Nat.le_of_eq (congrArg List.length (List.append_nil before))
        | cons symbol more =>
            have isAllowed := divides.allowed symbol (by simp)
            rw [rest] at result
            exact absurd result (stops before symbol (more ++ behind') value
              isAllowed)
      · rw [List.length_append]
        exact Nat.le_add_right _ _

end Text
end EvCollect
