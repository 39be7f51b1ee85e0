import Mathlib.Data.Stream.Init
import EvCollect.Process.Causal

/-!
# Scripts without an end

On an endless script a process that does not look ahead either ends after some
number of entries or goes on for ever. What the environment promises is an
assertion about every point at which the process can be cut and the entries that
are still to come there.
-/

namespace EvCollect
namespace Process

/-- The process ends when it has taken this number of entries. -/
def Returns
    (process : Proc ε L σ α)
    (entries : Stream' ε)
    (state : σ)
    (count : Nat)
    (value : α)
    (after : σ) : Prop :=
  process (entries.take count) state = .done value [] after

def Terminates
    (process : Proc ε L σ α)
    (entries : Stream' ε)
    (state : σ) : Prop :=
  ∃ count value after, Returns process entries state count value after

/-- An assertion holds wherever the process can be cut, with the entries that
are to come there. -/
def Along
    (holds : L → σ → Stream' ε → Prop)
    (process : Proc ε L σ α)
    (entries : Stream' ε)
    (state : σ) : Prop :=
  ∀ count point after, process (entries.take count) state = .cut point after →
    holds point after (entries.drop count)

section Rules

variable {ε L σ α β : Type}
variable {entries : Stream' ε}
variable {state after between : σ}
variable {holds : L → σ → Stream' ε → Prop}

theorem take_add (first second : Nat) (entries : Stream' ε) :
    entries.take (first + second) =
      entries.take first ++ (entries.drop first).take second := by
  induction first generalizing entries with
  | zero => simp
  | succ first inductionHypothesis =>
      rw [Nat.succ_add]
      exact congrArg (entries.head :: ·) (inductionHypothesis entries.tail)

/-- What is left of a longer script is not touched. -/
theorem Returns.run
    {process : Proc ε L σ α}
    {count : Nat}
    {value : α}
    (causal : Causal process)
    (returns : Returns process entries state count value after)
    (more : Nat) :
    process (entries.take (count + more)) state =
      .done value ((entries.drop count).take more) after := by
  obtain ⟨used, split, again⟩ := causal _ _ _ _ _ returns
  rw [take_add, split, List.append_nil]
  exact again _

/-- A process that ends uses the first entries. -/
theorem Causal.returns
    {process : Proc ε L σ α}
    {length : Nat}
    {value : α}
    {rest : List ε}
    (causal : Causal process)
    (done : process (entries.take length) state = .done value rest after) :
    ∃ count, count ≤ length ∧ Returns process entries state count value after := by
  obtain ⟨used, split, again⟩ := causal _ _ _ _ _ done
  have size := congrArg List.length split
  rw [Stream'.length_take, List.length_append] at size
  refine ⟨used.length, by omega, ?_⟩
  have isPrefix : entries.take used.length = used := by
    have both := take_add used.length rest.length entries
    rw [← size, split] at both
    exact (List.append_inj_left both (by rw [Stream'.length_take])).symm
  rw [Returns, isPrefix, ← List.append_nil used]
  exact again []

/-- A process that ends can be cut only before. -/
theorem Along.of_returns
    {process : Proc ε L σ α}
    {count : Nat}
    {value : α}
    (causal : Causal process)
    (returns : Returns process entries state count value after)
    (each : ∀ early < count, ∀ point between,
      process (entries.take early) state = .cut point between →
      holds point between (entries.drop early)) :
    Along holds process entries state := by
  intro length point between stopped
  refine each length (Nat.lt_of_not_le fun covers => ?_) point between stopped
  obtain ⟨more, rfl⟩ := Nat.exists_eq_add_of_le covers
  rw [returns.run causal more] at stopped
  cases stopped

section Sequence

variable {first : Proc ε L σ β}
variable {next : β → Proc ε L σ α}

theorem Along.ofFirst
    (along : Along holds (first >>= next) entries state) :
    Along holds first entries state :=
  fun _ _ _ stopped => along _ _ _ (bind_of_cut stopped next)

theorem bind_run
    {count : Nat}
    {value : β}
    (causal : Causal first)
    (returns : Returns first entries state count value between)
    (more : Nat) :
    (first >>= next) (entries.take (count + more)) state =
      next value ((entries.drop count).take more) between :=
  bind_of_done (returns.run causal more) next

theorem Along.ofNext
    {count : Nat}
    {value : β}
    (along : Along holds (first >>= next) entries state)
    (causal : Causal first)
    (returns : Returns first entries state count value between) :
    Along holds (next value) (entries.drop count) between := by
  intro more point after stopped
  rw [Stream'.drop_drop]
  exact along _ _ _ ((bind_run causal returns more).trans stopped)

/-- A sequence ends if both of its parts do. -/
theorem Terminates.bind
    (along : Along holds (first >>= next) entries state)
    (causal : Causal first)
    (ends : Along holds first entries state → Terminates first entries state)
    (endsNext : ∀ count value between,
      Returns first entries state count value between →
      Along holds (next value) (entries.drop count) between →
      Terminates (next value) (entries.drop count) between) :
    Terminates (first >>= next) entries state := by
  obtain ⟨count, value, between, returns⟩ := ends along.ofFirst
  obtain ⟨count', value', after, returns'⟩ := endsNext count value between
    returns (along.ofNext causal returns)
  exact ⟨count + count', value', after, (bind_run causal returns _).trans returns'⟩

end Sequence

theorem Terminates.pure (value : α) :
    Terminates (Pure.pure value : Proc ε L σ α) entries state :=
  ⟨0, value, state, rfl⟩

theorem Terminates.get :
    Terminates (Proc.get : Proc ε L σ σ) entries state :=
  ⟨0, state, state, rfl⟩

theorem Terminates.modify (change : σ → σ) :
    Terminates (Proc.modify change : Proc ε L σ Unit) entries state :=
  ⟨0, (), change state, rfl⟩

/-- A call takes one entry. -/
theorem Returns.call (point : L) (effect : ε → σ → α × σ) :
    Returns (Proc.call point effect) entries state 1
      (effect entries.head state).1 (effect entries.head state).2 :=
  rfl

theorem Terminates.call (point : L) (effect : ε → σ → α × σ) :
    Terminates (Proc.call point effect) entries state :=
  ⟨1, _, _, Returns.call point effect⟩

/-- What follows a call begins behind its entry. -/
theorem Terminates.call_bind
    {point : L}
    {effect : ε → σ → β × σ}
    {next : β → Proc ε L σ α}
    (along : Along holds (Proc.call point effect >>= next) entries state)
    (endsNext :
      Along holds (next (effect entries.head state).1) entries.tail
        (effect entries.head state).2 →
      Terminates (next (effect entries.head state).1) entries.tail
        (effect entries.head state).2) :
    Terminates (Proc.call point effect >>= next) entries state := by
  have returns := @Returns.call ε L σ β entries state point effect
  obtain ⟨count, value, after, ended⟩ :=
    endsNext (along.ofNext (Causal.call point effect) returns)
  exact ⟨1 + count, value, after,
    (bind_run (Causal.call point effect) returns count).trans ended⟩

end Rules

end Process
end EvCollect
