import Mathlib.Data.List.Basic

/-!
# Processes cut at their system calls

A process is a state transformer that is driven by a script. Every system call
takes the next entry of the script, which says what the environment does before
the call and what the call answers. When the script is exhausted the process is
cut at the call it was about to make, and the outcome names that program point.

The outcomes of a process over all finite scripts are therefore all the states
in which the process can be observed at one of its program points, or at its
end: quantifying over scripts is quantifying over interleavings and over crash
points at once.
-/

namespace EvCollect
namespace Process

/-- How far a process got with a script. -/
inductive Outcome (ε L σ α : Type)
  | done (value : α) (rest : List ε) (state : σ)
  | cut (point : L) (state : σ)

namespace Outcome

/-- A finished outcome satisfies the postcondition, and an outcome cut at a
program point satisfies the assertion of that point. -/
def Sat
    (inv : L → σ → Prop)
    (post : α → σ → Prop) : Outcome ε L σ α → Prop
  | .done value _ state => post value state
  | .cut point state => inv point state

/-- Weakening both assertions of an outcome. -/
theorem Sat.mono
    {inv inv' : L → σ → Prop}
    {post post' : α → σ → Prop}
    {outcome : Outcome ε L σ α}
    (sat : outcome.Sat inv post)
    (invImp : ∀ point state, inv point state → inv' point state)
    (postImp : ∀ value state, post value state → post' value state) :
    outcome.Sat inv' post' := by
  cases outcome with
  | done value rest state => exact postImp value state sat
  | cut point state => exact invImp point state sat

/-- The state in which the process was left. -/
def state : Outcome ε L σ α → σ
  | .done _ _ state => state
  | .cut _ state => state

/-- The program point at which the process was cut, if it was. -/
def point : Outcome ε L σ α → Option L
  | .done _ _ _ => none
  | .cut point _ => some point

/-- The value a finished process returned. -/
def value : Outcome ε L σ α → Option α
  | .done value _ _ => some value
  | .cut _ _ => none

theorem eq_done_of_value
    {outcome : Outcome ε L σ α}
    {result : α}
    (returned : outcome.value = some result) :
    ∃ rest state, outcome = .done result rest state := by
  cases outcome with
  | done value rest state =>
      cases returned
      exact ⟨rest, state, rfl⟩
  | cut point state => cases returned

end Outcome

/-- A process over the state `σ` with program points in `L`, driven by a script
of entries in `ε`. -/
def Proc (ε L σ α : Type) : Type :=
  List ε → σ → Outcome ε L σ α

namespace Proc

instance : Monad (Proc ε L σ) where
  pure value := fun script state => .done value script state
  bind first next := fun script state =>
    match first script state with
    | .done value rest state' => next value rest state'
    | .cut point state' => .cut point state'

/-- Read the state. -/
def get : Proc ε L σ σ :=
  fun script state => .done state script state

/-- Change the state by a step that no other party can observe halfway. -/
def modify (change : σ → σ) : Proc ε L σ Unit :=
  fun script state => .done () script (change state)

/-- A system call: it takes the next script entry, or is where the process is
cut. -/
def call (point : L) (effect : ε → σ → α × σ) : Proc ε L σ α
  | [], state => .cut point state
  | entry :: rest, state =>
      .done (effect entry state).1 rest (effect entry state).2

/-- Stop for good at a program point, whatever the script still holds. -/
def halt (point : L) : Proc ε L σ α :=
  fun _ state => .cut point state

/-- Passes of a loop with a bound on their number. Every pass begins with a
system call, so a bound above the script's length is never reached. -/
def iterateUpTo
    (head : L)
    (react : ε → σ → σ)
    (body : β → Proc ε L σ (β ⊕ α)) : Nat → β → Proc ε L σ α
  | 0, _ => halt head
  | fuel + 1, current => do
      call head fun entry state => ((), react entry state)
      match ← body current with
      | .inl next => iterateUpTo head react body fuel next
      | .inr result => pure result

/-- A loop: `body` maps a loop variable to its next value or to the loop's
result. The environment can act at the head of every pass. -/
def iterate
    (head : L)
    (react : ε → σ → σ)
    (body : β → Proc ε L σ (β ⊕ α))
    (start : β) : Proc ε L σ α :=
  fun script state =>
    iterateUpTo head react body (script.length + 1) start script state

/-- Run a process on a component of a larger state, with its program points
embedded in a larger set. -/
def zoom
    (view : τ → σ)
    (put : σ → τ → τ)
    (label : L → M)
    (process : Proc ε L σ α) : Proc ε M τ α :=
  fun script whole =>
    match process script (view whole) with
    | .done value rest part => .done value rest (put part whole)
    | .cut point part => .cut (label point) (put part whole)

end Proc

/-- Sequencing behind a part that has ended. -/
theorem bind_of_done
    {first : Proc ε L σ β}
    {script rest : List ε}
    {state state' : σ}
    {value : β}
    (ended : first script state = .done value rest state')
    (next : β → Proc ε L σ α) :
    (first >>= next) script state = next value rest state' := by
  change (match first script state with
    | .done value rest state' => next value rest state'
    | .cut point state' => .cut point state') = _
  rw [ended]

/-- Nothing behind a part that is cut is run. -/
theorem bind_of_cut
    {first : Proc ε L σ β}
    {script : List ε}
    {state after : σ}
    {point : L}
    (stopped : first script state = .cut point after)
    (next : β → Proc ε L σ α) :
    (first >>= next) script state = .cut point after := by
  change (match first script state with
    | .done value rest state' => next value rest state'
    | .cut point state' => .cut point state') = _
  rw [stopped]

/-- Both parts of a sequence that has ended have ended. -/
theorem done_of_bind
    {first : Proc ε L σ β}
    {next : β → Proc ε L σ α}
    {script rest : List ε}
    {state after : σ}
    {value : α}
    (ended : (first >>= next) script state = .done value rest after) :
    ∃ middle rest' between,
      first script state = .done middle rest' between ∧
        next middle rest' between = .done value rest after := by
  change (match first script state with
    | .done value rest state' => next value rest state'
    | .cut point state' => .cut point state') = _ at ended
  cases outcome : first script state with
  | done middle rest' between =>
      rw [outcome] at ended
      exact ⟨middle, rest', between, rfl, ended⟩
  | cut point between =>
      rw [outcome] at ended
      cases ended

theorem Proc.get_bind
    (next : σ → Proc ε L σ α)
    (script : List ε)
    (state : σ) :
    (Proc.get >>= next) script state = next state script state := rfl

theorem Proc.bind_assoc
    (first : Proc ε L σ γ)
    (middle : γ → Proc ε L σ β)
    (last : β → Proc ε L σ α) :
    (first >>= middle) >>= last = first >>= fun value => middle value >>= last := by
  funext script state
  change (match (match first script state with
      | .done value rest state' => middle value rest state'
      | .cut point state' => .cut point state') with
    | .done value rest state' => last value rest state'
    | .cut point state' => .cut point state') =
    match first script state with
    | .done value rest state' => (middle value >>= last) rest state'
    | .cut point state' => .cut point state'
  cases first script state <;> rfl

/-! ## Assertions about processes -/

/-- From `state` the process satisfies `post` when it ends, and `inv` at every
program point where it can be cut on the way. -/
def wp
    (inv : L → σ → Prop)
    (process : Proc ε L σ α)
    (post : α → σ → Prop)
    (state : σ) : Prop :=
  ∀ script, (process script state).Sat inv post

/-- What holds behind one pass of a loop: the loop invariant if the loop goes
on, else the postcondition of the loop. -/
abbrev AfterPass
    (loopInv : β → σ → Prop)
    (post : α → σ → Prop) : β ⊕ α → σ → Prop
  | .inl next, state => loopInv next state
  | .inr value, state => post value state

section Rules

variable {ε L M σ τ α β : Type}
variable {inv inv' : L → σ → Prop}
variable {post post' : α → σ → Prop}

theorem wp_pure
    {value : α}
    {state : σ}
    (holds : post value state) :
    wp inv (pure value : Proc ε L σ α) post state := by
  intro script
  exact holds

/-- Sequencing: the assertion between the two parts is the precondition of the
second. -/
theorem wp_bind
    {first : Proc ε L σ β}
    {next : β → Proc ε L σ α}
    {state : σ}
    (valid : wp inv first
      (fun value state' => wp inv (next value) post state') state) :
    wp inv (first >>= next) post state := by
  intro script
  have firstSat := valid script
  change Outcome.Sat inv post
    (match first script state with
      | .done value rest state' => next value rest state'
      | .cut point state' => .cut point state')
  cases outcome : first script state with
  | done value rest state' =>
      rw [outcome] at firstSat
      exact firstSat rest
  | cut point state' =>
      rw [outcome] at firstSat
      exact firstSat

/-- Sequencing with a known assertion between the two parts. -/
theorem wp_seq
    {middle : β → σ → Prop}
    {first : Proc ε L σ β}
    {next : β → Proc ε L σ α}
    {state : σ}
    (valid : wp inv first middle state)
    (rest : ∀ value state', middle value state' →
      wp inv (next value) post state') :
    wp inv (first >>= next) post state :=
  wp_bind fun script =>
    (valid script).mono (fun _ _ holds => holds) rest

theorem wp_get
    {post : σ → σ → Prop}
    {state : σ}
    (holds : post state state) :
    wp inv (Proc.get : Proc ε L σ σ) post state := by
  intro script
  exact holds

theorem wp_modify
    {post : Unit → σ → Prop}
    {change : σ → σ}
    {state : σ}
    (holds : post () (change state)) :
    wp inv (Proc.modify change : Proc ε L σ Unit) post state := by
  intro script
  exact holds

/-- A system call: the assertion of its program point holds before it, and the
postcondition holds after it for every entry. -/
theorem wp_call
    {point : L}
    {effect : ε → σ → α × σ}
    {state : σ}
    (before : inv point state)
    (after : ∀ entry, post (effect entry state).1 (effect entry state).2) :
    wp inv (Proc.call point effect) post state := by
  intro script
  cases script with
  | nil => exact before
  | cons entry rest => exact after entry

theorem wp_halt
    {point : L}
    {state : σ}
    (holds : inv point state) :
    wp inv (Proc.halt point : Proc ε L σ α) post state := by
  intro script
  exact holds

/-- Weaken both assertions. -/
theorem wp_mono
    {process : Proc ε L σ α}
    {state : σ}
    (valid : wp inv process post state)
    (invImp : ∀ point state, inv point state → inv' point state)
    (postImp : ∀ value state, post value state → post' value state) :
    wp inv' process post' state :=
  fun script => (valid script).mono invImp postImp

/-- Two proofs about one process combine. -/
theorem wp_and
    {process : Proc ε L σ α}
    {state : σ}
    (left : wp inv process post state)
    (right : wp inv' process post' state) :
    wp (fun point state => inv point state ∧ inv' point state) process
      (fun value state => post value state ∧ post' value state) state := by
  intro script
  have leftSat := left script
  have rightSat := right script
  cases outcome : process script state with
  | done value rest state' =>
      rw [outcome] at leftSat rightSat
      exact ⟨leftSat, rightSat⟩
  | cut point state' =>
      rw [outcome] at leftSat rightSat
      exact ⟨leftSat, rightSat⟩

/-- A bounded loop keeps its invariant. -/
theorem wp_iterateUpTo
    {head : L}
    {react : ε → σ → σ}
    {body : β → Proc ε L σ (β ⊕ α)}
    (loopInv : β → σ → Prop)
    (atHead : ∀ current state, loopInv current state → inv head state)
    (pass : ∀ current state entry, loopInv current state →
      wp inv (body current)
        (AfterPass loopInv post) (react entry state))
    (fuel : Nat) :
    ∀ (current : β) (state : σ), loopInv current state →
      wp inv (Proc.iterateUpTo head react body fuel current) post state := by
  induction fuel with
  | zero =>
      intro current state holds
      exact wp_halt (atHead current state holds)
  | succ fuel inductionHypothesis =>
      intro current state holds
      refine wp_bind (wp_call (atHead current state holds) fun entry => ?_)
      refine wp_bind (wp_mono (pass current state entry holds)
        (fun _ _ kept => kept) ?_)
      intro result state' kept
      cases result with
      | inl next => exact inductionHypothesis next state' kept
      | inr value => exact wp_pure kept

/-- The loop rule: an invariant of the loop variable and the state that one
pass keeps, or leaves for the postcondition. -/
theorem wp_iterate
    {head : L}
    {react : ε → σ → σ}
    {body : β → Proc ε L σ (β ⊕ α)}
    {start : β}
    {state : σ}
    (loopInv : β → σ → Prop)
    (holds : loopInv start state)
    (atHead : ∀ current state, loopInv current state → inv head state)
    (pass : ∀ current state entry, loopInv current state →
      wp inv (body current)
        (AfterPass loopInv post) (react entry state)) :
    wp inv (Proc.iterate head react body start) post state :=
  fun script =>
    wp_iterateUpTo loopInv atHead pass (script.length + 1) start state holds
      script

/-- A loop over a list keeps what each of its passes keeps. -/
theorem wp_forM
    {holds : σ → Prop}
    {items : List β}
    {body : β → Proc ε L σ Unit}
    {state : σ}
    (each : ∀ item ∈ items, ∀ state, holds state →
      wp inv (body item) (fun _ after => holds after) state)
    (before : holds state) :
    wp inv (items.forM body) (fun _ after => holds after) state := by
  induction items generalizing state with
  | nil => exact wp_pure before
  | cons item items inductionHypothesis =>
      refine wp_seq (each item (by simp) state before) fun _ after kept => ?_
      exact inductionHypothesis
        (fun other present => each other (List.mem_cons_of_mem _ present)) kept

/-- A loop over a list with an assertion about the items that are left. -/
theorem wp_forM_left
    (holds : List β → σ → Prop)
    {items : List β}
    {body : β → Proc ε L σ Unit}
    {state : σ}
    (each : ∀ item left state, holds (item :: left) state →
      wp inv (body item) (fun _ after => holds left after) state)
    (before : holds items state) :
    wp inv (items.forM body) (fun _ after => holds [] after) state := by
  induction items generalizing state with
  | nil => exact wp_pure before
  | cons item left inductionHypothesis =>
      exact wp_seq (each item left state before)
        fun _ after kept => inductionHypothesis kept

/-- A process on a component is verified on that component. -/
theorem wp_zoom
    {inv : M → τ → Prop}
    {post : α → τ → Prop}
    {view : τ → σ}
    {put : σ → τ → τ}
    {label : L → M}
    {process : Proc ε L σ α}
    {whole : τ}
    (valid : wp (fun point part => inv (label point) (put part whole)) process
      (fun value part => post value (put part whole)) (view whole)) :
    wp inv (Proc.zoom view put label process) post whole := by
  intro script
  have partSat := valid script
  unfold Proc.zoom
  cases outcome : process script (view whole) with
  | done value rest part =>
      rw [outcome] at partSat
      exact partSat
  | cut point part =>
      rw [outcome] at partSat
      exact partSat

end Rules

/-! ## Reachable states -/

/-- The process can be observed in `state` at the program point `point`. -/
def Reaches
    (process : Proc ε L σ α)
    (start : σ)
    (point : L)
    (state : σ) : Prop :=
  ∃ script, process script start = .cut point state

/-- The process can end with `value` in `state`. -/
def Ends
    (process : Proc ε L σ α)
    (start : σ)
    (value : α)
    (state : σ) : Prop :=
  ∃ script rest, process script start = .done value rest state

/-- What is verified at the program points holds in every state reached. -/
theorem wp.reaches
    {inv : L → σ → Prop}
    {post : α → σ → Prop}
    {process : Proc ε L σ α}
    {start state : σ}
    {point : L}
    (valid : wp inv process post start)
    (reached : Reaches process start point state) :
    inv point state := by
  obtain ⟨script, outcome⟩ := reached
  have sat := valid script
  rw [outcome] at sat
  exact sat

/-- What is verified at the end holds in every final state. -/
theorem wp.ends
    {inv : L → σ → Prop}
    {post : α → σ → Prop}
    {process : Proc ε L σ α}
    {start state : σ}
    {value : α}
    (valid : wp inv process post start)
    (ended : Ends process start value state) :
    post value state := by
  obtain ⟨script, rest, outcome⟩ := ended
  have sat := valid script
  rw [outcome] at sat
  exact sat

/-- A process cut at a known point with a known script reaches that state. -/
theorem reaches_of_point
    (process : Proc ε L σ α)
    (start : σ)
    (script : List ε)
    {point : L}
    (cutAt : (process script start).point = some point) :
    Reaches process start point (process script start).state := by
  refine ⟨script, ?_⟩
  cases outcome : process script start with
  | done value rest state => simp [outcome, Outcome.point] at cutAt
  | cut point' state =>
      rw [outcome] at cutAt
      simp only [Outcome.point, Option.some.injEq] at cutAt
      rw [cutAt]
      rfl

/-- A process that returns a known value with a known script ends so. -/
theorem ends_of_value
    (process : Proc ε L σ α)
    (start : σ)
    (script : List ε)
    {value : α}
    (returned : (process script start).value = some value) :
    Ends process start value (process script start).state := by
  cases outcome : process script start with
  | done value' rest state =>
      rw [outcome] at returned
      simp only [Outcome.value, Option.some.injEq] at returned
      exact ⟨script, rest, by rw [outcome, returned]; rfl⟩
  | cut point state => simp [outcome, Outcome.value] at returned

end Process
end EvCollect
