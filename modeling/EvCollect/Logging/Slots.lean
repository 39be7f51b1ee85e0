import Mathlib.Logic.Function.Basic
import Mathlib.Data.List.Basic
import Mathlib.Data.List.Perm.Basic

/-!
# Slots that are filled once

An array of slots, each of which is empty until it is filled and then keeps what
it holds. What a reader finds that goes over the slots one after the other, while
others fill slots, lies between what the slots held when it began and what they
hold when it ends.
-/

namespace EvCollect
namespace Slots

variable {α : Type}
variable {slots later : Nat → Option α}

/-- The slots that are filled keep what they hold. -/
def Extends (slots later : Nat → Option α) : Prop :=
  ∀ index value, slots index = some value → later index = some value

/-- What the first slots hold, from the first one on. -/
def contents (slots : Nat → Option α) (count : Nat) : List α :=
  (List.range count).filterMap slots

theorem Extends.refl (slots : Nat → Option α) : Extends slots slots :=
  fun _ _ filled => filled

theorem Extends.trans
    {last : Nat → Option α}
    (first : Extends slots later)
    (second : Extends later last) : Extends slots last :=
  fun index value filled => second index value (first index value filled)

/-- An empty slot can be filled. -/
theorem extends_update
    {index : Nat}
    (empty : slots index = none)
    (value : α) : Extends slots (Function.update slots index (some value)) := by
  intro other held filled
  have different : other ≠ index := by
    rintro rfl
    rw [empty] at filled
    cases filled
  rw [Function.update_of_ne different, filled]

/-- What a reader gets that goes on to the next slot. -/
theorem contents_succ (slots : Nat → Option α) (count : Nat) :
    contents slots (count + 1) = contents slots count ++ (slots count).toList := by
  rw [contents, contents, List.range_succ, List.filterMap_append]
  cases held : slots count with
  | none => rw [List.filterMap_cons_none held]; rfl
  | some value => rw [List.filterMap_cons_some held]; rfl

theorem contents_congr
    {count : Nat}
    (same : ∀ index < count, slots index = later index) :
    contents slots count = contents later count :=
  List.filterMap_congr fun index member => same index (List.mem_range.mp member)

/-- Filled slots stay filled. -/
theorem Extends.contents_sublist
    (grown : Extends slots later)
    (count : Nat) : (contents slots count).Sublist (contents later count) := by
  induction count with
  | zero => exact List.Sublist.refl _
  | succ count inductionHypothesis =>
      rw [contents_succ, contents_succ]
      refine inductionHypothesis.append ?_
      cases held : slots count with
      | none => exact List.nil_sublist _
      | some value => rw [grown count value held]

theorem contents_sublist_of_le
    {count more : Nat}
    (slots : Nat → Option α)
    (le : count ≤ more) : (contents slots count).Sublist (contents slots more) := by
  induction le with
  | refl => exact List.Sublist.refl _
  | step _ inductionHypothesis =>
      rw [contents_succ]
      exact inductionHypothesis.trans (List.sublist_append_left _ _)

/-- Behind the last filled slot there is nothing. -/
theorem contents_eq_of_le
    {count more : Nat}
    (last : ∀ index value, slots index = some value → index < count)
    (le : count ≤ more) : contents slots more = contents slots count := by
  induction le with
  | refl => rfl
  | @step more le inductionHypothesis =>
      have empty : slots more = none := by
        cases held : slots more with
        | none => rfl
        | some value => exact absurd (last more value held) (Nat.not_lt.mpr le)
      rw [contents_succ, empty, inductionHypothesis, Option.toList,
        List.append_nil]

/-- A slot that is filled adds what it is filled with. -/
theorem contents_update
    {index count : Nat}
    (empty : slots index = none)
    (inside : index < count)
    (value : α) :
    (contents (Function.update slots index (some value)) count).Perm
      (value :: contents slots count) := by
  induction count with
  | zero => exact absurd inside (Nat.not_lt_zero _)
  | succ count inductionHypothesis =>
      rw [contents_succ, contents_succ]
      rcases Nat.lt_succ_iff_lt_or_eq.mp inside with before | rfl
      · rw [Function.update_of_ne (Nat.ne_of_gt before)]
        exact (inductionHypothesis before).append_right _
      · have same : contents (Function.update slots index (some value)) index =
            contents slots index :=
          contents_congr fun other less =>
            Function.update_of_ne (Nat.ne_of_lt less) _ _
        rw [same, Function.update_self, empty]
        exact (List.perm_append_singleton _ _).trans
          (by rw [Option.toList, List.append_nil])

end Slots
end EvCollect
