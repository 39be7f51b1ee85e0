import EvCollect.Process.Basic

/-!
# Assertions that a process preserves

A process maintains an assertion if the assertion, once it holds, holds at the
end, while another may be known at the program points on the way. It preserves
an assertion that it maintains and that holds at every program point, too. Frame
conditions are of this kind: the assertion is then that the state agrees with a
fixed state on some components. The set of program points that the process can
pass is tracked along with the assertion.
-/

namespace EvCollect
namespace Process

/-- Once `holds` is true, it is true when the process ends, and `inv` is true at
every program point on the way. -/
def Maintains
    (inv : L → σ → Prop)
    (holds : σ → Prop)
    (process : Proc ε L σ α) : Prop :=
  ∀ state, holds state → wp inv process (fun _ state => holds state) state

/-- Once `holds` is true it stays true while the process runs, and the process
can be cut at the program points `within` only. -/
def Preserves
    (within : L → Prop)
    (holds : σ → Prop)
    (process : Proc ε L σ α) : Prop :=
  ∀ state, holds state →
    wp (fun point state => within point ∧ holds state) process
      (fun _ state => holds state) state

section Rules

variable {ε L M σ τ α β : Type}
variable {inv : L → σ → Prop}
variable {within : L → Prop}
variable {holds : σ → Prop}

theorem Maintains.pure (value : α) :
    Maintains inv holds (Pure.pure value : Proc ε L σ α) := by
  intro state before
  exact wp_pure before

theorem Maintains.bind
    {first : Proc ε L σ β}
    {next : β → Proc ε L σ α}
    (left : Maintains inv holds first)
    (right : ∀ value, Maintains inv holds (next value)) :
    Maintains inv holds (first >>= next) := by
  intro state before
  exact wp_bind (wp_mono (left state before) (fun _ _ kept => kept)
    fun value state' kept => right value state' kept)

theorem Maintains.get :
    Maintains inv holds (Proc.get : Proc ε L σ σ) := by
  intro state before
  exact wp_get before

theorem Maintains.modify
    {change : σ → σ}
    (kept : ∀ state, holds state → holds (change state)) :
    Maintains inv holds (Proc.modify change : Proc ε L σ Unit) := by
  intro state before
  exact wp_modify (kept state before)

theorem Maintains.call
    {point : L}
    {effect : ε → σ → α × σ}
    (atPoint : ∀ state, holds state → inv point state)
    (kept : ∀ entry state, holds state → holds (effect entry state).2) :
    Maintains inv holds (Proc.call point effect) := by
  intro state before
  exact wp_call (atPoint state before) fun entry => kept entry state before

theorem Maintains.iterate
    {head : L}
    {react : ε → σ → σ}
    {body : β → Proc ε L σ (β ⊕ α)}
    {start : β}
    (atHead : ∀ state, holds state → inv head state)
    (reacted : ∀ entry state, holds state → holds (react entry state))
    (pass : ∀ current, Maintains inv holds (body current)) :
    Maintains inv holds (Proc.iterate head react body start) := by
  intro state before
  apply wp_iterate (fun _ state => holds state) before
    (fun _ _ kept => atHead _ kept)
  intro current state entry kept
  apply wp_mono (pass current _ (reacted entry state kept))
    (fun _ _ kept => kept)
  intro result state' kept
  cases result with
  | inl next => exact kept
  | inr value => exact kept

theorem Preserves.pure (value : α) :
    Preserves within holds (Pure.pure value : Proc ε L σ α) :=
  Maintains.pure value

theorem Preserves.bind
    {first : Proc ε L σ β}
    {next : β → Proc ε L σ α}
    (left : Preserves within holds first)
    (right : ∀ value, Preserves within holds (next value)) :
    Preserves within holds (first >>= next) :=
  Maintains.bind left right

theorem Preserves.get :
    Preserves within holds (Proc.get : Proc ε L σ σ) :=
  Maintains.get

theorem Preserves.modify
    {change : σ → σ}
    (kept : ∀ state, holds state → holds (change state)) :
    Preserves within holds (Proc.modify change : Proc ε L σ Unit) :=
  Maintains.modify kept

theorem Preserves.call
    {point : L}
    {effect : ε → σ → α × σ}
    (allowed : within point)
    (kept : ∀ entry state, holds state → holds (effect entry state).2) :
    Preserves within holds (Proc.call point effect) :=
  Maintains.call (fun _ before => ⟨allowed, before⟩) kept

theorem Preserves.iterate
    {head : L}
    {react : ε → σ → σ}
    {body : β → Proc ε L σ (β ⊕ α)}
    {start : β}
    (allowed : within head)
    (reacted : ∀ entry state, holds state → holds (react entry state))
    (pass : ∀ current, Preserves within holds (body current)) :
    Preserves within holds (Proc.iterate head react body start) :=
  Maintains.iterate (fun _ before => ⟨allowed, before⟩) reacted pass

/-- Whatever a process does to its component, it preserves an assertion that
does not depend on that component. -/
theorem Preserves.zoom_of_frame
    {within : M → Prop}
    {holds : τ → Prop}
    {view : τ → σ}
    {put : σ → τ → τ}
    {label : L → M}
    {process : Proc ε L σ α}
    (allowed : ∀ point, within (label point))
    (frame : ∀ part whole, holds whole → holds (put part whole)) :
    Preserves within holds (Proc.zoom view put label process) := by
  intro whole before
  apply wp_zoom
  intro script
  cases process script (view whole) with
  | done value rest part => exact frame part whole before
  | cut point part => exact ⟨allowed point, frame part whole before⟩

/-- An assertion that holds before a process holds at its end. -/
def Keeps (holds : σ → Prop) (process : Proc ε L σ α) : Prop :=
  ∀ state, holds state →
    wp (fun _ _ => True) process (fun _ after => holds after) state

end Rules

end Process
end EvCollect
