import EvCollect.Process.Causal
import EvCollect.Process.Preserve

/-!
# Properties that compose

A property of processes that holds of the basic steps of a program, and that
sequences, branches and loops inherit, holds of the whole program. So a program
is gone through once, and what is shown of it holds of all properties of this
kind whose basic steps are the ones it takes.
-/

namespace EvCollect
namespace Process

/-- The property holds of what does nothing, and sequences inherit it. -/
structure Composes (good : ∀ {α : Type}, Proc ε L σ α → Prop) : Prop where
  pure : ∀ {α : Type} (value : α), good (Pure.pure value)
  get : good Proc.get
  bind : ∀ {α β : Type} {first : Proc ε L σ β} {next : β → Proc ε L σ α},
    good first → (∀ value, good (next value)) → good (first >>= next)

/-- The property composes, and holds of every step at the program points
`within` that relates the states as `still`. -/
structure Compositional
    (within : L → Prop)
    (still : σ → σ → Prop)
    (good : ∀ {α : Type}, Proc ε L σ α → Prop) : Prop extends
    Composes good where
  modify : ∀ {change : σ → σ},
    (∀ state, still state (change state)) → good (Proc.modify change)
  call : ∀ {α : Type} {point : L} {effect : ε → σ → α × σ},
    within point → (∀ entry state, still state (effect entry state).2) →
    good (Proc.call point effect)
  halt : ∀ {α : Type} {point : L},
    within point → good (Proc.halt point : Proc ε L σ α)
  iterate : ∀ {α β : Type} (head : L) {react : ε → σ → σ}
    {body : β → Proc ε L σ (β ⊕ α)} {start : β},
    within head → (∀ entry state, still state (react entry state)) →
    (∀ current, good (body current)) →
    good (Proc.iterate head react body start)

section Rules

variable {ε L σ ι β : Type}
variable {within within' : L → Prop}
variable {still still' : σ → σ → Prop}

theorem Composes.ite
    {good : ∀ {α : Type}, Proc ε L σ α → Prop}
    {α : Type}
    {condition : Prop}
    [Decidable condition]
    {left right : Proc ε L σ α}
    (_ : Composes good)
    (ifTrue : good left)
    (ifFalse : good right) :
    good (if condition then left else right) := by
  split
  · exact ifTrue
  · exact ifFalse

theorem Composes.forM
    {good : ∀ {α : Type}, Proc ε L σ α → Prop}
    {items : List β}
    {body : β → Proc ε L σ Unit}
    (rules : Composes good)
    (each : ∀ item ∈ items, good (body item)) :
    good (items.forM body) := by
  induction items with
  | nil => exact rules.pure ()
  | cons item items inductionHypothesis =>
      change good (body item >>= fun _ => items.forM body)
      exact rules.bind (each item (by simp)) fun _ =>
        inductionHypothesis fun other present =>
          each other (List.mem_cons_of_mem _ present)

/-- Fewer steps are easier to cover. -/
theorem Compositional.mono
    {good : ∀ {α : Type}, Proc ε L σ α → Prop}
    (rules : Compositional within still good)
    (points : ∀ point, within' point → within point)
    (states : ∀ before after, still' before after → still before after) :
    Compositional within' still' good where
  pure := rules.pure
  get := rules.get
  modify := fun kept => rules.modify fun state => states _ _ (kept state)
  call := fun allowed kept => rules.call (points _ allowed) fun entry state =>
    states _ _ (kept entry state)
  halt := fun allowed => rules.halt (points _ allowed)
  bind := rules.bind
  iterate := fun head _ _ _ allowed kept => rules.iterate head
    (points _ allowed) fun entry state => states _ _ (kept entry state)

theorem Preserves.composes {holds : σ → Prop} :
    Composes (Preserves within holds : ∀ {α : Type}, Proc ε L σ α → Prop) where
  pure := Preserves.pure
  get := Preserves.get
  bind := Preserves.bind

theorem Maintains.composes
    {inv : L → σ → Prop}
    {holds : σ → Prop} :
    Composes (Maintains inv holds : ∀ {α : Type}, Proc ε L σ α → Prop) where
  pure := Maintains.pure
  get := Maintains.get
  bind := Maintains.bind

theorem Onward.composes {later : Later ε L σ} :
    Composes (Onward later : ∀ {α : Type}, Proc ε L σ α → Prop) where
  pure := Onward.pure
  get := Onward.get
  bind := Onward.bind

/-- What each of some assertions does not notice, none of them notices. -/
theorem Preserves.compositional
    {holds : ι → σ → Prop}
    (same : ∀ index before after, still before after → holds index before →
      holds index after) :
    Compositional within still fun {α : Type} (process : Proc ε L σ α) =>
      ∀ index, Preserves within (holds index) process where
  pure := fun value _ => Preserves.pure value
  get := fun _ => Preserves.get
  modify := fun kept _ => Preserves.modify fun state =>
    same _ _ _ (kept state)
  call := fun allowed kept _ => Preserves.call allowed fun entry state =>
    same _ _ _ (kept entry state)
  halt := fun allowed _ _ before => wp_halt ⟨allowed, before⟩
  bind := fun left right _ => Preserves.bind (left _) fun value => right value _
  iterate := fun _ _ _ _ allowed kept pass _ => Preserves.iterate allowed
    (fun entry state => same _ _ _ (kept entry state)) fun current =>
      pass current _

/-- Any step does without looking ahead. -/
theorem Causal.compositional :
    Compositional within still (Causal : ∀ {α : Type}, Proc ε L σ α → Prop) where
  pure := Causal.pure
  get := Causal.get
  modify := fun _ => Causal.modify _
  call := fun _ _ => Causal.call _ _
  halt := by
    intro α point _ script state value rest after done
    cases done
  bind := Causal.bind
  iterate := fun _ _ _ _ _ _ pass => Causal.iterate pass _

end Rules

end Process
end EvCollect
