import EvCollect.Process.Beside

/-!
# Processes that do not look ahead

A process that has ended has used a part of its script, and does the same with
every script that begins with this part. So a run with a longer script goes on
where the run with the shorter one was cut, and two states of one run can be
compared: the one at a cut and a later one.
-/

namespace EvCollect
namespace Process

/-- What a process does until it ends does not depend on what it leaves of its
script. -/
def Causal (process : Proc ε L σ α) : Prop :=
  ∀ script state value rest after,
    process script state = .done value rest after →
    ∃ used, script = used ++ rest ∧
      ∀ more, process (used ++ more) state = .done value more after

/-- A way to compare two states of one run. -/
structure Later (ε L σ : Type) where
  /-- The second state is not before the first one. -/
  before : σ → σ → Prop
  /-- The second state comes behind the call at a program point in the first
  one, which takes this entry. -/
  resume : L → ε → σ → σ → Prop
  refl : ∀ state, before state state
  trans : ∀ {first second third}, before first second → before second third →
    before first third
  resume_trans : ∀ {point entry first second third},
    resume point entry first second → before second third →
    resume point entry first third

/-- All states of a run compare. -/
structure Onward
    (later : Later ε L σ)
    (process : Proc ε L σ α) : Prop where
  causal : Causal process
  onward : ∀ script state, later.before state (process script state).state
  resumed : ∀ script entry more state point between,
    process script state = .cut point between →
    later.resume point entry between
      (process (script ++ entry :: more) state).state

section Rules

variable {ε L M σ τ α β : Type}

/-! ## Causal processes -/

theorem Causal.pure (value : α) :
    Causal (Pure.pure value : Proc ε L σ α) := by
  intro script state _ rest after done
  cases done
  exact ⟨[], rfl, fun _ => rfl⟩

theorem Causal.get : Causal (Proc.get : Proc ε L σ σ) := by
  intro script state _ rest after done
  cases done
  exact ⟨[], rfl, fun _ => rfl⟩

theorem Causal.modify (change : σ → σ) :
    Causal (Proc.modify change : Proc ε L σ Unit) := by
  intro script state _ rest after done
  cases done
  exact ⟨[], rfl, fun _ => rfl⟩

theorem Causal.call (point : L) (effect : ε → σ → α × σ) :
    Causal (Proc.call point effect) := by
  intro script state value rest after done
  cases script with
  | nil => cases done
  | cons entry script =>
      cases done
      exact ⟨[entry], rfl, fun _ => rfl⟩

theorem Causal.bind
    {first : Proc ε L σ β}
    {next : β → Proc ε L σ α}
    (causalFirst : Causal first)
    (causalNext : ∀ value, Causal (next value)) :
    Causal (first >>= next) := by
  intro script state value rest after done
  obtain ⟨middle, rest', between, ended, others⟩ := done_of_bind done
  obtain ⟨used, rfl, again⟩ := causalFirst _ _ _ _ _ ended
  obtain ⟨used', rfl, again'⟩ := causalNext middle _ _ _ _ _ others
  refine ⟨used ++ used', (List.append_assoc ..).symm, fun more => ?_⟩
  rw [List.append_assoc, bind_of_done (again _)]
  exact again' more

theorem Causal.zoom
    {process : Proc ε L σ α}
    (causal : Causal process)
    (view : τ → σ)
    (put : σ → τ → τ)
    (label : L → M) :
    Causal (Proc.zoom view put label process) := by
  intro script whole value rest after done
  unfold Proc.zoom at done ⊢
  cases outcome : process script (view whole) with
  | cut point part =>
      rw [outcome] at done
      cases done
  | done value' rest' part =>
      rw [outcome] at done
      cases done
      obtain ⟨used, split, again⟩ := causal _ _ _ _ _ outcome
      exact ⟨used, split, fun more => by rw [again more]⟩

theorem consumed_append (used rest : List ε) :
    consumed (used ++ rest) rest = used := by
  rw [consumed, List.length_append, Nat.add_sub_cancel]
  exact List.take_left

/-- The other component is moved by the entries that are used. -/
theorem Causal.onFirst
    {process : Proc ε L σ α}
    (causal : Causal process)
    (react : ε → τ → τ)
    (label : L → M) :
    Causal (Proc.onFirst react label process) := by
  intro script whole value rest after done
  unfold Proc.onFirst at done ⊢
  cases outcome : process script whole.1 with
  | cut point part =>
      rw [outcome] at done
      cases done
  | done value' rest' part =>
      rw [outcome] at done
      cases done
      obtain ⟨used, rfl, again⟩ := causal _ _ _ _ _ outcome
      refine ⟨used, rfl, fun more => ?_⟩
      rw [again more]
      dsimp only
      rw [consumed_append, consumed_append]

theorem Causal.onSecond
    {process : Proc ε L σ α}
    (causal : Causal process)
    (react : ε → τ → τ)
    (label : L → M) :
    Causal (Proc.onSecond react label process) := by
  intro script whole value rest after done
  unfold Proc.onSecond at done ⊢
  cases outcome : process script whole.2 with
  | cut point part =>
      rw [outcome] at done
      cases done
  | done value' rest' part =>
      rw [outcome] at done
      cases done
      obtain ⟨used, rfl, again⟩ := causal _ _ _ _ _ outcome
      refine ⟨used, rfl, fun more => ?_⟩
      rw [again more]
      dsimp only
      rw [consumed_append, consumed_append]

/-! ## Loops -/

/-- One pass of a loop, with the call at its head. -/
def Proc.pass
    (head : L)
    (react : ε → σ → σ)
    (body : β → Proc ε L σ (β ⊕ α))
    (current : β) : Proc ε L σ (β ⊕ α) := do
  call head fun entry state => ((), react entry state)
  body current

/-- What follows a pass of a loop. -/
def Proc.proceed
    (again : β → Proc ε L σ α) : β ⊕ α → Proc ε L σ α
  | .inl next => again next
  | .inr result => Pure.pure result

variable {head : L}
variable {react : ε → σ → σ}
variable {body : β → Proc ε L σ (β ⊕ α)}

theorem Causal.pass
    (causal : ∀ current, Causal (body current))
    (current : β) :
    Causal (Proc.pass head react body current) :=
  Causal.bind (Causal.call _ _) fun _ => causal current

/-- A pass takes an entry. -/
theorem length_lt_of_pass
    {script rest : List ε}
    {state after : σ}
    {current : β}
    {result : β ⊕ α}
    (causal : ∀ current, Causal (body current))
    (done : Proc.pass head react body current script state =
      .done result rest after) :
    rest.length < script.length := by
  obtain ⟨_, rest', between, called, done⟩ := done_of_bind done
  cases script with
  | nil => cases called
  | cons entry script =>
      cases called
      obtain ⟨used, rfl, -⟩ := causal _ _ _ _ _ _ done
      simp only [List.length_cons, List.length_append]
      omega

theorem iterateUpTo_succ
    (fuel : Nat)
    (current : β) :
    Proc.iterateUpTo head react body (fuel + 1) current =
      Proc.pass head react body current >>=
        Proc.proceed (Proc.iterateUpTo head react body fuel) := by
  rw [Proc.pass, Proc.bind_assoc]
  refine congrArg _ (funext fun _ => congrArg _ (funext fun result => ?_))
  cases result <;> rfl

/-- A bound on the passes that exceeds the length of the script is as good as
any other one. -/
theorem iterateUpTo_fuel
    (causal : ∀ current, Causal (body current))
    (fuel fuel' : Nat)
    (current : β)
    (script : List ε)
    (state : σ)
    (enough : script.length < fuel)
    (enough' : script.length < fuel') :
    Proc.iterateUpTo head react body fuel current script state =
      Proc.iterateUpTo head react body fuel' current script state := by
  induction fuel generalizing fuel' current script state with
  | zero => exact absurd enough (Nat.not_lt_zero _)
  | succ fuel inductionHypothesis =>
      obtain ⟨fuel', rfl⟩ := Nat.exists_eq_succ_of_ne_zero
        (Nat.ne_of_gt (Nat.zero_lt_of_lt enough'))
      rw [Nat.succ_eq_add_one, iterateUpTo_succ, iterateUpTo_succ]
      cases outcome : Proc.pass head react body current script state with
      | done result rest after =>
          have shorter := length_lt_of_pass causal outcome
          rw [bind_of_done outcome, bind_of_done outcome]
          cases result with
          | inr value => rfl
          | inl next =>
              exact inductionHypothesis fuel' next rest after (by omega) (by omega)
      | cut point after => rw [bind_of_cut outcome, bind_of_cut outcome]

/-- A loop is one pass, and then the loop again. -/
theorem iterate_eq
    (causal : ∀ current, Causal (body current))
    (current : β) :
    Proc.iterate head react body current =
      Proc.pass head react body current >>=
        Proc.proceed (Proc.iterate head react body) := by
  funext script state
  rw [Proc.iterate, iterateUpTo_succ]
  cases outcome : Proc.pass head react body current script state with
  | done result rest after =>
      have shorter := length_lt_of_pass causal outcome
      rw [bind_of_done outcome, bind_of_done outcome]
      cases result with
      | inr value => rfl
      | inl next =>
          exact iterateUpTo_fuel causal _ _ next rest after shorter
            (Nat.lt_succ_self _)
  | cut point after => rw [bind_of_cut outcome, bind_of_cut outcome]

theorem Causal.iterate
    (causal : ∀ current, Causal (body current))
    (current : β) :
    Causal (Proc.iterate head react body current) := by
  intro script
  -- A pass leaves less of the script to the passes behind it.
  induction length : script.length using Nat.strongRecOn
    generalizing script current with
  | ind length inductionHypothesis =>
      intro state value rest after done
      rw [iterate_eq causal] at done ⊢
      obtain ⟨result, rest', between, first, others⟩ := done_of_bind done
      have shorter := length_lt_of_pass causal first
      obtain ⟨used, rfl, again⟩ := Causal.pass causal current _ _ _ _ _ first
      cases result with
      | inr value' =>
          cases others
          refine ⟨used, rfl, fun more => ?_⟩
          rw [bind_of_done (again more)]
          rfl
      | inl next =>
          obtain ⟨used', rfl, again'⟩ := inductionHypothesis _
            (by omega) next rest' rfl _ _ _ _ others
          refine ⟨used ++ used', (List.append_assoc ..).symm, fun more => ?_⟩
          rw [List.append_assoc, bind_of_done (again _)]
          exact again' more

/-! ## Comparing two states of a run -/

variable {later : Later ε L σ}

namespace Onward

theorem pure (value : α) :
    Onward later (Pure.pure value : Proc ε L σ α) where
  causal := Causal.pure value
  onward := fun _ state => later.refl state
  resumed := by
    intro script entry more state point between stopped
    cases stopped

theorem get : Onward later (Proc.get : Proc ε L σ σ) where
  causal := Causal.get
  onward := fun _ state => later.refl state
  resumed := by
    intro script entry more state point between stopped
    cases stopped

theorem modify
    {change : σ → σ}
    (advances : ∀ state, later.before state (change state)) :
    Onward later (Proc.modify change : Proc ε L σ Unit) where
  causal := Causal.modify change
  onward := fun _ state => advances state
  resumed := by
    intro script entry more state point between stopped
    cases stopped

theorem call
    {point : L}
    {effect : ε → σ → α × σ}
    (advances : ∀ entry state, later.before state (effect entry state).2)
    (resumes : ∀ entry state,
      later.resume point entry state (effect entry state).2) :
    Onward later (Proc.call point effect) where
  causal := Causal.call point effect
  onward := by
    intro script state
    cases script with
    | nil => exact later.refl state
    | cons entry script => exact advances entry state
  resumed := by
    intro script entry more state point' between stopped
    cases script with
    | nil =>
        cases stopped
        exact resumes entry state
    | cons entry' script => cases stopped

theorem bind
    {first : Proc ε L σ β}
    {next : β → Proc ε L σ α}
    (onwardFirst : Onward later first)
    (onwardNext : ∀ value, Onward later (next value)) :
    Onward later (first >>= next) where
  causal := onwardFirst.causal.bind fun value => (onwardNext value).causal
  onward := by
    intro script state
    have known := onwardFirst.onward script state
    cases outcome : first script state with
    | done value rest between =>
        rw [outcome] at known
        rw [bind_of_done outcome]
        exact later.trans known ((onwardNext value).onward rest between)
    | cut point between =>
        rw [outcome] at known
        rw [bind_of_cut outcome]
        exact known
  resumed := by
    intro script entry more state point between stopped
    cases outcome : first script state with
    | done value rest between' =>
        rw [bind_of_done outcome] at stopped
        obtain ⟨used, rfl, again⟩ := onwardFirst.causal _ _ _ _ _ outcome
        rw [List.append_assoc, bind_of_done (again _)]
        exact (onwardNext value).resumed _ _ _ _ _ _ stopped
    | cut point' between' =>
        rw [bind_of_cut outcome] at stopped
        cases stopped
        have known := onwardFirst.resumed _ entry more _ _ _ outcome
        cases longer : first (script ++ entry :: more) state with
        | done value rest after =>
            rw [longer] at known
            rw [bind_of_done longer]
            exact later.resume_trans known ((onwardNext value).onward rest after)
        | cut point' after =>
            rw [longer] at known
            rw [bind_of_cut longer]
            exact known

theorem zoom
    {later : Later ε M τ}
    {process : Proc ε L σ α}
    {view : τ → σ}
    {put : σ → τ → τ}
    {label : L → M}
    (causal : Causal process)
    (advances : ∀ part whole, later.before whole (put part whole))
    (resumes : ∀ point entry part part' whole,
      later.resume (label point) entry (put part whole) (put part' whole)) :
    Onward later (Proc.zoom view put label process) where
  causal := causal.zoom view put label
  onward := by
    intro script whole
    unfold Proc.zoom
    cases process script (view whole) with
    | done value rest part => exact advances part whole
    | cut point part => exact advances part whole
  resumed := by
    intro script entry more whole point between stopped
    unfold Proc.zoom at stopped ⊢
    cases outcome : process script (view whole) with
    | done value rest part =>
        rw [outcome] at stopped
        cases stopped
    | cut point' part =>
        rw [outcome] at stopped
        cases stopped
        cases process (script ++ entry :: more) (view whole) with
        | done value rest part' => exact resumes point' entry part part' whole
        | cut point part' => exact resumes point' entry part part' whole

theorem pass
    (advances : ∀ entry state, later.before state (react entry state))
    (resumes : ∀ entry state, later.resume head entry state (react entry state))
    (each : ∀ current, Onward later (body current))
    (current : β) :
    Onward later (Proc.pass head react body current) :=
  (call advances resumes).bind fun _ => each current

theorem iterate
    (advances : ∀ entry state, later.before state (react entry state))
    (resumes : ∀ entry state, later.resume head entry state (react entry state))
    (each : ∀ current, Onward later (body current))
    (current : β) :
    Onward later (Proc.iterate head react body current) := by
  have causal (current : β) : Causal (body current) := (each current).causal
  have onePass := pass advances resumes each
  have onward : ∀ script current state, later.before state
      (Proc.iterate head react body current script state).state := by
    intro script
    induction length : script.length using Nat.strongRecOn
      generalizing script with
    | ind length inductionHypothesis =>
        intro current state
        have known := (onePass current).onward script state
        rw [iterate_eq causal]
        cases outcome : Proc.pass head react body current script state with
        | cut point between =>
            rw [outcome] at known
            rw [bind_of_cut outcome]
            exact known
        | done result rest between =>
            rw [outcome] at known
            rw [bind_of_done outcome]
            have shorter := length_lt_of_pass causal outcome
            cases result with
            | inr value => exact known
            | inl next =>
                exact later.trans known (inductionHypothesis _ (by omega) rest
                  rfl next between)
  refine ⟨Causal.iterate causal current, fun script => onward script current, ?_⟩
  intro script
  induction length : script.length using Nat.strongRecOn
    generalizing script current with
  | ind length inductionHypothesis =>
      intro entry more state point between stopped
      rw [iterate_eq causal] at stopped ⊢
      cases outcome : Proc.pass head react body current script state with
      | done result rest after =>
          have shorter := length_lt_of_pass causal outcome
          rw [bind_of_done outcome] at stopped
          obtain ⟨used, rfl, again⟩ :=
            Causal.pass causal current _ _ _ _ _ outcome
          rw [List.append_assoc, bind_of_done (again _)]
          cases result with
          | inr value => cases stopped
          | inl next =>
              exact inductionHypothesis _ (by omega) next rest rfl _ _ _ _ _
                stopped
      | cut point' after =>
          rw [bind_of_cut outcome] at stopped
          cases stopped
          have known := (onePass current).resumed _ entry more _ _ _ outcome
          cases longer : Proc.pass head react body current
              (script ++ entry :: more) state with
          | cut point' after' =>
              rw [longer] at known
              rw [bind_of_cut longer]
              exact known
          | done result rest after' =>
              rw [longer] at known
              rw [bind_of_done longer]
              cases result with
              | inr value => exact known
              | inl next =>
                  exact later.resume_trans known (onward rest next after')

end Onward

end Rules

end Process
end EvCollect
