import EvCollect.Process.Endless

/-!
# Processes that end

Total correctness on an endless script: from any position of the script on, if
the entries that the process takes are fair, it ends in its postcondition, or it
stands still at a program point. A loop does so if something decreases with every
pass.
-/

namespace EvCollect
namespace Process

/-- The process ends with these entries, whatever the script holds behind
them. -/
def Finishes
    (process : Proc ε L σ α)
    (used : List ε)
    (state : σ)
    (value : α)
    (after : σ) : Prop :=
  ∀ more, process (used ++ more) state = .done value more after

/-- Behind these entries the process stands still at a program point, whatever
the script holds. -/
def Sticks
    (stuck : L → σ → Prop)
    (process : Proc ε L σ α)
    (used : List ε)
    (state : σ) : Prop :=
  ∀ more, (process (used ++ more) state).Sat stuck fun _ _ => False

/-- The entries that the process takes at its program points are fair. -/
abbrev Fairly
    (fair : L → ε → Prop)
    (process : Proc ε L σ α)
    (entries : Stream' ε)
    (state : σ) : Prop :=
  Along (fun point _ rest => fair point rest.head) process entries state

/-- From any position of the script on, if its entries are fair the process ends
in the postcondition or stands still. -/
def Completes
    (entries : Stream' ε)
    (fair : L → ε → Prop)
    (stuck : L → σ → Prop)
    (process : Proc ε L σ α)
    (post : α → σ → Prop)
    (state : σ) : Prop :=
  ∀ start, Fairly fair process (entries.drop start) state → ∃ count,
    (∃ value after,
      Finishes process ((entries.drop start).take count) state value after ∧
        post value after) ∨
    Sticks stuck process ((entries.drop start).take count) state

section Rules

variable {ε L M σ τ ρ α β : Type}
variable {entries : Stream' ε}
variable {fair : L → ε → Prop}
variable {stuck : L → σ → Prop}
variable {post : α → σ → Prop}
variable {state : σ}

/-! ## Steps -/

theorem Finishes.pure (value : α) (state : σ) :
    Finishes (Pure.pure value : Proc ε L σ α) [] state value state :=
  fun _ => rfl

theorem Finishes.bind
    {first : Proc ε L σ β}
    {next : β → Proc ε L σ α}
    {used used' : List ε}
    {middle : β}
    {value : α}
    {between after : σ}
    (finishes : Finishes first used state middle between)
    (others : Finishes (next middle) used' between value after) :
    Finishes (first >>= next) (used ++ used') state value after := by
  intro more
  rw [List.append_assoc, bind_of_done (finishes _)]
  exact others more

theorem Finishes.sticks
    {first : Proc ε L σ β}
    {next : β → Proc ε L σ α}
    {used used' : List ε}
    {middle : β}
    {between : σ}
    (finishes : Finishes first used state middle between)
    (others : Sticks stuck (next middle) used' between) :
    Sticks stuck (first >>= next) (used ++ used') state := by
  intro more
  rw [List.append_assoc, bind_of_done (finishes _)]
  exact others more

theorem Sticks.cut
    {process : Proc ε L σ α}
    {used : List ε}
    (sticks : Sticks stuck process used state)
    (more : List ε) :
    ∃ point after,
      process (used ++ more) state = .cut point after ∧ stuck point after := by
  have sat := sticks more
  cases outcome : process (used ++ more) state with
  | done value rest after =>
      rw [outcome] at sat
      exact sat.elim
  | cut point after =>
      rw [outcome] at sat
      exact ⟨point, after, rfl, sat⟩

/-- Nothing follows a part that stands still. -/
theorem Sticks.bind
    {first : Proc ε L σ β}
    {used : List ε}
    (sticks : Sticks stuck first used state)
    (next : β → Proc ε L σ α) :
    Sticks stuck (first >>= next) used state := by
  intro more
  obtain ⟨point, after, outcome, atPoint⟩ := sticks.cut more
  rw [bind_of_cut outcome]
  exact atPoint

/-- On one script a process ends in one way. -/
theorem Finishes.unique
    {process : Proc ε L σ α}
    {count count' : Nat}
    {value value' : α}
    {after after' : σ}
    (finishes : Finishes process (entries.take count) state value after)
    (finishes' : Finishes process (entries.take count') state value' after') :
    after = after' := by
  have done := finishes ((entries.drop count).take count')
  have done' := finishes' ((entries.drop count').take count)
  rw [← take_add] at done done'
  rw [Nat.add_comm count', done] at done'
  exact (Outcome.done.inj done').2.2

/-- On one script a process does not end and stand still as well. -/
theorem Finishes.not_sticks
    {process : Proc ε L σ α}
    {count count' : Nat}
    {value : α}
    {after : σ}
    (finishes : Finishes process (entries.take count) state value after) :
    ¬ Sticks stuck process (entries.take count') state := by
  intro sticks
  have done := finishes ((entries.drop count).take count')
  obtain ⟨point, between, cut, -⟩ := sticks.cut ((entries.drop count').take count)
  rw [← take_add] at done cut
  rw [Nat.add_comm count', done] at cut
  cases cut

/-- What follows a part that ends begins behind its entries. -/
theorem Finishes.fairly
    {first : Proc ε L σ β}
    {next : β → Proc ε L σ α}
    {start count : Nat}
    {middle : β}
    {between : σ}
    (finishes : Finishes first ((entries.drop start).take count) state middle
      between)
    (fairly : Fairly fair (first >>= next) (entries.drop start) state) :
    Fairly fair (next middle) (entries.drop (start + count)) between := by
  rw [← Stream'.drop_drop]
  intro more point after stopped
  rw [Stream'.drop_drop]
  apply fairly (count + more) point after
  rw [take_add, bind_of_done (finishes _)]
  exact stopped

/-! ## Rules -/

theorem completes_pure
    {value : α}
    (holds : post value state) :
    Completes entries fair stuck (Pure.pure value) post state :=
  fun _ _ => ⟨0, .inl ⟨value, state, Finishes.pure value state, holds⟩⟩

theorem completes_get
    {post : σ → σ → Prop}
    (holds : post state state) :
    Completes entries fair stuck Proc.get post state :=
  fun _ _ => ⟨0, .inl ⟨state, state, fun _ => rfl, holds⟩⟩

theorem completes_modify
    {post : Unit → σ → Prop}
    {change : σ → σ}
    (holds : post () (change state)) :
    Completes entries fair stuck (Proc.modify change) post state :=
  fun _ _ => ⟨0, .inl ⟨(), change state, fun _ => rfl, holds⟩⟩

/-- A call ends with any fair entry. -/
theorem completes_call
    {point : L}
    {effect : ε → σ → α × σ}
    (after : ∀ index, fair point (entries.get index) →
      post (effect (entries.get index) state).1
        (effect (entries.get index) state).2) :
    Completes entries fair stuck (Proc.call point effect) post state := by
  intro start fairly
  have known := after start
  rw [← Stream'.head_drop] at known
  exact ⟨1, .inl ⟨_, _, fun more => rfl, known (fairly 0 point state rfl)⟩⟩

theorem completes_halt
    {point : L}
    (atPoint : stuck point state) :
    Completes entries fair stuck (Proc.halt point : Proc ε L σ α) post state :=
  fun _ _ => ⟨0, .inr fun _ => atPoint⟩

theorem completes_mono
    {stuck' : L → σ → Prop}
    {post' : α → σ → Prop}
    {process : Proc ε L σ α}
    (completes : Completes entries fair stuck process post state)
    (stuckImp : ∀ point after, stuck point after → stuck' point after)
    (postImp : ∀ value after, post value after → post' value after) :
    Completes entries fair stuck' process post' state := by
  intro start fairly
  obtain ⟨count, ⟨value, after, finishes, holds⟩ | sticks⟩ :=
    completes start fairly
  · exact ⟨count, .inl ⟨value, after, finishes, postImp value after holds⟩⟩
  · exact ⟨count, .inr fun more =>
      (sticks more).mono stuckImp fun _ _ impossible => impossible⟩

theorem completes_bind
    {first : Proc ε L σ β}
    {next : β → Proc ε L σ α}
    (completes : Completes entries fair stuck first
      (fun middle between => Completes entries fair stuck (next middle) post between)
      state) :
    Completes entries fair stuck (first >>= next) post state := by
  intro start fairly
  obtain ⟨count, ⟨middle, between, finishes, others⟩ | sticks⟩ :=
    completes start fairly.ofFirst
  · obtain ⟨count', rest⟩ := others (start + count) (finishes.fairly fairly)
    rw [← Stream'.drop_drop] at rest
    refine ⟨count + count', ?_⟩
    rw [take_add]
    rcases rest with ⟨value, after, done, holds⟩ | sticks
    · exact .inl ⟨value, after, finishes.bind done, holds⟩
    · exact .inr (finishes.sticks sticks)
  · exact ⟨count, .inr (sticks.bind next)⟩

/-- Sequencing with a known assertion between the two parts. -/
theorem completes_seq
    {middle : β → σ → Prop}
    {first : Proc ε L σ β}
    {next : β → Proc ε L σ α}
    (completes : Completes entries fair stuck first middle state)
    (others : ∀ value between, middle value between →
      Completes entries fair stuck (next value) post between) :
    Completes entries fair stuck (first >>= next) post state :=
  completes_bind (completes_mono completes (fun _ _ held => held) others)

/-- A loop ends if each pass goes on with a smaller bound, or returns. -/
theorem completes_iterate
    {head : L}
    {react : ε → σ → σ}
    {body : β → Proc ε L σ (β ⊕ α)}
    (causal : ∀ current, Causal (body current))
    (loopInv : Nat → β → σ → Prop)
    {bound : Nat}
    {start : β}
    (holds : loopInv bound start state)
    (pass : ∀ bound current state index, loopInv bound current state →
      fair head (entries.get index) → Completes entries fair stuck (body current)
        (AfterPass
          (fun next after => ∃ less < bound, loopInv less next after) post)
        (react (entries.get index) state)) :
    Completes entries fair stuck (Proc.iterate head react body start) post state := by
  induction bound using Nat.strongRecOn generalizing start state with
  | ind bound inductionHypothesis =>
      rw [iterate_eq causal]
      apply completes_seq (completes_bind (completes_call fun index isFair =>
        pass bound start state index holds isFair))
      intro result after held
      cases result with
      | inr value => exact completes_pure held
      | inl next =>
          obtain ⟨less, smaller, kept⟩ := held
          exact inductionHypothesis less smaller kept

/-! ## Parts of the state -/

theorem completes_zoom
    {fair : M → ε → Prop}
    {stuck : M → τ → Prop}
    {post : α → τ → Prop}
    {view : τ → σ}
    {put : σ → τ → τ}
    {label : L → M}
    {process : Proc ε L σ α}
    {whole : τ}
    (completes : Completes entries (fun point => fair (label point))
      (fun point part => stuck (label point) (put part whole)) process
      (fun value part => post value (put part whole)) (view whole)) :
    Completes entries fair stuck (Proc.zoom view put label process) post whole := by
  intro start fairly
  have fairlyPart : Fairly (fun point => fair (label point)) process
      (entries.drop start) (view whole) := by
    intro count point part stopped
    apply fairly count (label point) (put part whole)
    unfold Proc.zoom
    rw [stopped]
  obtain ⟨count, ⟨value, part, finishes, holds⟩ | sticks⟩ :=
    completes start fairlyPart
  · refine ⟨count, .inl ⟨value, put part whole, fun more => ?_, holds⟩⟩
    unfold Proc.zoom
    rw [finishes more]
  · refine ⟨count, .inr fun more => ?_⟩
    obtain ⟨point, part, outcome, atPoint⟩ := sticks.cut more
    unfold Proc.zoom
    rw [outcome]
    exact atPoint

/-- What is stable under the entries of the script still holds of the other
component. -/
theorem reactAll_take
    {react : ε → ρ → ρ}
    {holds : ρ → Prop}
    (stable : ∀ index other, holds other → holds (react (entries.get index) other))
    (start count : Nat)
    {other : ρ}
    (before : holds other) :
    holds (reactAll react ((entries.drop start).take count) other) := by
  induction count generalizing start other with
  | zero => exact before
  | succ count inductionHypothesis =>
      rw [Stream'.take_succ, Stream'.head_drop, Stream'.tail_drop']
      exact inductionHypothesis (start + 1) (stable start other before)

/-- The rule for the first component of a pair. -/
theorem completes_onFirst
    {fair : M → ε → Prop}
    {stuck' : M → σ × ρ → Prop}
    {post' : α → σ × ρ → Prop}
    {react : ε → ρ → ρ}
    {label : L → M}
    {process : Proc ε L σ α}
    (holds : ρ → Prop)
    {whole : σ × ρ}
    (completes : Completes entries (fun point => fair (label point)) stuck
      process post whole.1)
    (stable : ∀ index other, holds other → holds (react (entries.get index) other))
    (before : holds whole.2)
    (atPoint : ∀ point part other, stuck point part →
      stuck' (label point) (part, other))
    (atEnd : ∀ value part other, post value part → holds other →
      post' value (part, other)) :
    Completes entries fair stuck' (Proc.onFirst react label process) post' whole := by
  intro start fairly
  have fairlyPart : Fairly (fun point => fair (label point)) process
      (entries.drop start) whole.1 := by
    intro count point part stopped
    apply fairly count (label point)
      (part, reactAll react ((entries.drop start).take count) whole.2)
    unfold Proc.onFirst
    rw [stopped]
  obtain ⟨count, ⟨value, part, finishes, held⟩ | sticks⟩ :=
    completes start fairlyPart
  · refine ⟨count, .inl ⟨value, (part, reactAll react
      ((entries.drop start).take count) whole.2), fun more => ?_,
      atEnd value part _ held (reactAll_take stable start count before)⟩⟩
    unfold Proc.onFirst
    rw [finishes more]
    dsimp only
    rw [consumed_append]
  · refine ⟨count, .inr fun more => ?_⟩
    obtain ⟨point, part, outcome, known⟩ := sticks.cut more
    unfold Proc.onFirst
    rw [outcome]
    exact atPoint point part _ known

/-- The rule for the second component of a pair. -/
theorem completes_onSecond
    {fair : M → ε → Prop}
    {stuck' : M → ρ × σ → Prop}
    {post' : α → ρ × σ → Prop}
    {react : ε → ρ → ρ}
    {label : L → M}
    {process : Proc ε L σ α}
    (holds : ρ → Prop)
    {whole : ρ × σ}
    (completes : Completes entries (fun point => fair (label point)) stuck
      process post whole.2)
    (stable : ∀ index other, holds other → holds (react (entries.get index) other))
    (before : holds whole.1)
    (atPoint : ∀ point part other, stuck point part →
      stuck' (label point) (other, part))
    (atEnd : ∀ value part other, post value part → holds other →
      post' value (other, part)) :
    Completes entries fair stuck' (Proc.onSecond react label process) post' whole := by
  intro start fairly
  have fairlyPart : Fairly (fun point => fair (label point)) process
      (entries.drop start) whole.2 := by
    intro count point part stopped
    apply fairly count (label point)
      (reactAll react ((entries.drop start).take count) whole.1, part)
    unfold Proc.onSecond
    rw [stopped]
  obtain ⟨count, ⟨value, part, finishes, held⟩ | sticks⟩ :=
    completes start fairlyPart
  · refine ⟨count, .inl ⟨value, (reactAll react
      ((entries.drop start).take count) whole.1, part), fun more => ?_,
      atEnd value part _ held (reactAll_take stable start count before)⟩⟩
    unfold Proc.onSecond
    rw [finishes more]
    dsimp only
    rw [consumed_append]
  · refine ⟨count, .inr fun more => ?_⟩
    obtain ⟨point, part, outcome, known⟩ := sticks.cut more
    unfold Proc.onSecond
    rw [outcome]
    exact atPoint point part _ known

/-- A process that ends under a condition, and stands still without it, ends in
what is wanted if and only if the condition holds and the final state is as
wanted. -/
theorem Completes.finishes_iff
    {process : Proc ε L σ α}
    {condition reason : Prop}
    {result : α}
    {wanted : σ → Prop}
    (completes : Completes entries fair (fun _ _ => ¬ condition) process
      (fun value after => condition ∧ value = result ∧ (wanted after ↔ reason))
      state)
    (fairly : Fairly fair process entries state) :
    (∃ count after,
        Finishes process (entries.take count) state result after ∧
          wanted after) ↔ condition ∧ reason := by
  obtain ⟨count, ⟨value, after, finishes, met, rfl, isWanted⟩ | sticks⟩ :=
    completes 0 fairly
  · constructor
    · rintro ⟨count', after', finishes', held⟩
      obtain rfl := finishes.unique finishes'
      exact ⟨met, isWanted.mp held⟩
    · exact fun both => ⟨count, after, finishes, isWanted.mpr both.2⟩
  · obtain ⟨point, after, -, unmet⟩ := sticks.cut []
    constructor
    · rintro ⟨count', after, finishes, -⟩
      exact (finishes.not_sticks sticks).elim
    · exact fun both => absurd both.1 unmet

end Rules

end Process
end EvCollect
