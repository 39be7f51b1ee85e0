import Mathlib.Data.Option.Basic

/-!
# Transition systems with a partial step function

A system is a step function that maps a state and an action to the next state,
or to `none` where the action is not enabled. Interleavings of several parties
are sequences of actions, so a state is reachable in some interleaving exactly
if it is reachable by some sequence of enabled actions.
-/

namespace EvCollect
namespace Transition

variable {σ α : Type}

/-- The states that can be reached by enabled actions that are also allowed in
the state in which they are taken. -/
inductive Reachable
    (step : σ → α → Option σ)
    (allowed : σ → α → Prop)
    (start : σ) : σ → Prop
  | start : Reachable step allowed start start
  | next {state state' : σ} {action : α}
      (before : Reachable step allowed start state)
      (permitted : allowed state action)
      (taken : step state action = some state') :
      Reachable step allowed start state'

/-- All enabled actions are allowed. -/
def anyAction : σ → α → Prop :=
  fun _ _ => True

section Rules

variable {step : σ → α → Option σ}
variable {allowed : σ → α → Prop}
variable {start state : σ}

/-- What holds in the beginning and is kept by every allowed step holds in every
state reached. -/
theorem Reachable.invariant
    (reached : Reachable step allowed start state)
    (holds : σ → Prop)
    (initially : holds start)
    (kept : ∀ state action state', holds state → allowed state action →
      step state action = some state' → holds state') :
    holds state := by
  induction reached with
  | start => exact initially
  | next _ permitted taken inductionHypothesis =>
      exact kept _ _ _ inductionHypothesis permitted taken

end Rules

/-- Take a sequence of actions, if each of them is enabled and allowed. -/
def runWith
    (step : σ → α → Option σ)
    (allowed : σ → α → Bool) : List α → σ → Option σ
  | [], state => some state
  | action :: actions, state =>
      if allowed state action then
        (step state action).bind (runWith step allowed actions)
      else none

/-- A run that goes through ends in a reachable state. -/
theorem reachable_of_runWith
    {step : σ → α → Option σ}
    {allowed : σ → α → Prop}
    {check : σ → α → Bool}
    (sound : ∀ state action, check state action = true → allowed state action)
    {start final : σ}
    (actions : List α)
    (ran : runWith step check actions start = some final) :
    Reachable step allowed start final := by
  suffices extend : ∀ actions state,
      Reachable step allowed start state →
      runWith step check actions state = some final →
      Reachable step allowed start final from
    extend actions start .start ran
  intro actions
  induction actions with
  | nil =>
      intro state reached ran
      cases ran
      exact reached
  | cons action actions inductionHypothesis =>
      intro state reached ran
      unfold runWith at ran
      split at ran
      next passed =>
        obtain ⟨state', taken, rest⟩ := Option.bind_eq_some_iff.mp ran
        exact inductionHypothesis state'
          (reached.next (sound state action passed) taken) rest
      next => cases ran

end Transition
end EvCollect
