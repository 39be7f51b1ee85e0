import EvCollect.Process.Basic

/-!
# A process on one component of a pair

While a process runs on one component of a pair, the environment goes on to act
on the other one: before every system call, as the script says. What is known of
the other component has to be stable under these actions, and what the process
does to its own component is verified on that component alone.
-/

namespace EvCollect
namespace Process

/-- The entries that a process has taken from its script. -/
def consumed (script rest : List ε) : List ε :=
  script.take (script.length - rest.length)

/-- The effect of some entries on a component. -/
def reactAll
    (react : ε → ρ → ρ)
    (entries : List ε)
    (other : ρ) : ρ :=
  entries.foldl (fun other entry => react entry other) other

namespace Proc

/-- Run a process on the first component of a pair. -/
def onFirst
    (react : ε → ρ → ρ)
    (label : L → M)
    (process : Proc ε L σ α) : Proc ε M (σ × ρ) α :=
  fun script whole =>
    match process script whole.1 with
    | .done value rest part =>
        .done value rest
          (part, reactAll react (consumed script rest) whole.2)
    | .cut point part =>
        .cut (label point) (part, reactAll react script whole.2)

/-- Run a process on the second component of a pair. -/
def onSecond
    (react : ε → ρ → ρ)
    (label : L → M)
    (process : Proc ε L σ α) : Proc ε M (ρ × σ) α :=
  fun script whole =>
    match process script whole.2 with
    | .done value rest part =>
        .done value rest
          (reactAll react (consumed script rest) whole.1, part)
    | .cut point part =>
        .cut (label point) (reactAll react script whole.1, part)

end Proc

section Rules

variable {ε L M σ ρ α : Type}
variable {react : ε → ρ → ρ}
variable {label : L → M}
variable {process : Proc ε L σ α}

/-- What is stable under one action is stable under all of them. -/
theorem reactAll_stable
    {holds : ρ → Prop}
    (stable : ∀ entry other, holds other → holds (react entry other))
    (entries : List ε)
    {other : ρ}
    (before : holds other) :
    holds (reactAll react entries other) := by
  induction entries generalizing other with
  | nil => exact before
  | cons entry entries inductionHypothesis =>
      exact inductionHypothesis (stable entry other before)

/-- A component that no action changes stays the same. -/
theorem reactAll_fixed
    {other : ρ}
    (fixed : ∀ entry, react entry other = other)
    (entries : List ε) :
    reactAll react entries other = other := by
  induction entries with
  | nil => rfl
  | cons entry entries inductionHypothesis =>
      change reactAll react entries (react entry other) = other
      rw [fixed entry]
      exact inductionHypothesis

/-- Nothing need be known of a process to run it. -/
theorem wp_trivial (process : Proc ε L σ α) (state : σ) :
    wp (fun _ _ => True) process (fun _ _ => True) state := by
  intro script
  cases process script state with
  | done value rest state' => trivial
  | cut point state' => trivial

/-- A process on the first component is verified there, and what is stable
still holds of the second one. -/
theorem wp_onFirst
    {inv : L → σ → Prop}
    {post : α → σ → Prop}
    {inv' : M → σ × ρ → Prop}
    {post' : α → σ × ρ → Prop}
    (holds : ρ → Prop)
    {whole : σ × ρ}
    (valid : wp inv process post whole.1)
    (stable : ∀ entry other, holds other → holds (react entry other))
    (before : holds whole.2)
    (atPoint : ∀ point part other, inv point part → holds other →
      inv' (label point) (part, other))
    (atEnd : ∀ value part other, post value part → holds other →
      post' value (part, other)) :
    wp inv' (Proc.onFirst react label process) post' whole := by
  intro script
  have partSat := valid script
  unfold Proc.onFirst
  cases outcome : process script whole.1 with
  | done value rest part =>
      rw [outcome] at partSat
      exact atEnd value part _ partSat (reactAll_stable stable _ before)
  | cut point part =>
      rw [outcome] at partSat
      exact atPoint point part _ partSat (reactAll_stable stable _ before)

/-- A process on the second component is verified there, and what is stable
still holds of the first one. -/
theorem wp_onSecond
    {inv : L → σ → Prop}
    {post : α → σ → Prop}
    {inv' : M → ρ × σ → Prop}
    {post' : α → ρ × σ → Prop}
    (holds : ρ → Prop)
    {whole : ρ × σ}
    (valid : wp inv process post whole.2)
    (stable : ∀ entry other, holds other → holds (react entry other))
    (before : holds whole.1)
    (atPoint : ∀ point part other, inv point part → holds other →
      inv' (label point) (other, part))
    (atEnd : ∀ value part other, post value part → holds other →
      post' value (other, part)) :
    wp inv' (Proc.onSecond react label process) post' whole := by
  intro script
  have partSat := valid script
  unfold Proc.onSecond
  cases outcome : process script whole.2 with
  | done value rest part =>
      rw [outcome] at partSat
      exact atEnd value part _ partSat (reactAll_stable stable _ before)
  | cut point part =>
      rw [outcome] at partSat
      exact atPoint point part _ partSat (reactAll_stable stable _ before)

end Rules

end Process
end EvCollect
