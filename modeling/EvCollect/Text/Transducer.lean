import Mathlib.Data.List.Basic

/-!
# Transducers

A transducer reads a text symbol by symbol and puts out a finite list for each of
them, and an endless sequence behind the last one. What it makes of two texts in
a row is composed from what it makes of each, so a part that it reads in silence,
coming back to where it was, can be left out.
-/

namespace EvCollect
namespace Text

variable {σ α τ : Type}

/-! ## Endless sequences -/

/-- A finite list, and then a sequence. -/
def prepend (front : List τ) (behind : Nat → τ) (index : Nat) : τ :=
  front[index]?.getD (behind (index - front.length))

@[simp] theorem prepend_nil (behind : Nat → τ) : prepend [] behind = behind := rfl

@[simp] theorem prepend_cons_zero
    (first : τ)
    (front : List τ)
    (behind : Nat → τ) :
    prepend (first :: front) behind 0 = first := rfl

@[simp] theorem prepend_cons_succ
    (first : τ)
    (front : List τ)
    (behind : Nat → τ)
    (index : Nat) :
    prepend (first :: front) behind (index + 1) = prepend front behind index := by
  simp [prepend]

theorem prepend_append
    (front middle : List τ)
    (behind : Nat → τ) :
    prepend (front ++ middle) behind = prepend front (prepend middle behind) := by
  induction front with
  | nil => rfl
  | cons first front inductionHypothesis =>
      funext index
      cases index with
      | zero => rfl
      | succ index =>
          rw [List.cons_append, prepend_cons_succ, prepend_cons_succ,
            inductionHypothesis]

/-- Sequences behind the same list are told apart. -/
theorem prepend_injective (front : List τ) :
    Function.Injective (prepend front) := by
  intro first second equal
  funext index
  have behind := congrFun equal (front.length + index)
  simpa [prepend] using behind

/-! ## Transducers -/

/-- A step puts out a list, and the end of the text a sequence. -/
structure Transducer (σ α τ : Type) where
  step : σ → α → List τ × σ
  finish : σ → Nat → τ

namespace Transducer

variable (machine : Transducer σ α τ)

/-- What has been put out behind a text, and the state there. -/
def run : σ → List α → List τ × σ
  | state, [] => ([], state)
  | state, symbol :: text =>
      let stepped := machine.step state symbol
      let rest := run stepped.2 text
      (stepped.1 ++ rest.1, rest.2)

/-- All that is put out for a text. -/
def output (state : σ) (text : List α) : Nat → τ :=
  prepend (machine.run state text).1 (machine.finish (machine.run state text).2)

variable {machine}
variable {state middle last : σ}
variable {front behind : List α}

@[simp] theorem run_nil (state : σ) : machine.run state [] = ([], state) := rfl

@[simp] theorem output_nil (state : σ) :
    machine.output state [] = machine.finish state := rfl

theorem run_append (state : σ) (front behind : List α) :
    machine.run state (front ++ behind) =
      ((machine.run state front).1 ++
          (machine.run (machine.run state front).2 behind).1,
        (machine.run (machine.run state front).2 behind).2) := by
  induction front generalizing state with
  | nil => rfl
  | cons symbol front inductionHypothesis =>
      rw [List.cons_append, run, inductionHypothesis, run, List.append_assoc]

theorem output_append (state : σ) (front behind : List α) :
    machine.output state (front ++ behind) =
      prepend (machine.run state front).1
        (machine.output (machine.run state front).2 behind) := by
  rw [output, run_append, output, prepend_append]

theorem output_cons (state : σ) (symbol : α) (text : List α) :
    machine.output state (symbol :: text) =
      prepend (machine.step state symbol).1
        (machine.output (machine.step state symbol).2 text) := by
  rw [output, run, output, prepend_append]

/-- What is read in silence does not show. -/
theorem output_silent
    (silent : machine.run state front = ([], middle))
    (behind : List α) :
    machine.output state (front ++ behind) = machine.output middle behind := by
  rw [output_append, silent, prepend_nil]

/-- Silence is composed. -/
theorem run_silent
    (first : machine.run state front = ([], middle))
    (second : machine.run middle behind = ([], last)) :
    machine.run state (front ++ behind) = ([], last) := by
  rw [run_append, first, second]
  rfl

end Transducer

end Text
end EvCollect
