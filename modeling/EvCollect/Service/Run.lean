import EvCollect.Service.Invariant
import EvCollect.Service.Walk

/-!
# The main loop keeps the invariant of the schedule

Plugins and the environment never touch the schedule, so all that changes it are
the calls of `addEvent` before the main loop and the steps of its passes.
-/

namespace EvCollect
namespace Service

open Process ServiceImpl Schedule

variable {L τ : Type} [World τ]

/-! ## Parts that leave the schedule alone -/

/-- Program points outside of the main loop and inside of `processEvent`. -/
def Point.Aside : Point L → Prop
  | .addClock => True
  | .wallClock => True
  | .round => True
  | .plugin _ => True
  | _ => False

section Frame

variable {holds : Schedule → Prop}

omit [World τ] in
theorem onWorld_preserves_schedule
    (process : Proc Entry L τ α) :
    Preserves Point.Aside (fun service => holds service.toSchedule)
      (onWorld process) :=
  Preserves.zoom_of_frame (fun _ => trivial) fun _ _ kept => kept

variable (plugins : Plugins L τ)

omit [World τ] in
/-- Attaching plugins and detaching them does not touch the schedule. -/
theorem attachCalls_preserves_schedule :
    AttachCalls plugins
      (Preserves Point.Aside fun service => holds service.toSchedule) where
  toComposes := Preserves.composes
  getSourcePlugin := fun _ => onWorld_preserves_schedule _
  getOutputPlugin := fun _ => onWorld_preserves_schedule _
  attachSource := fun _ _ => onWorld_preserves_schedule _
  attachOutput := fun _ _ => onWorld_preserves_schedule _
  bindTarget := fun _ => Preserves.modify fun _ kept => kept
  detachSource := fun _ _ => onWorld_preserves_schedule _
  detachOutput := fun _ _ => onWorld_preserves_schedule _

theorem processCalls_preserves_schedule :
    ProcessCalls plugins
      (Preserves Point.Aside fun service => holds service.toSchedule) where
  toComposes := Preserves.composes
  wallClock := Preserves.call trivial fun _ _ kept => kept
  getNextEvent := fun _ _ => onWorld_preserves_schedule _
  hasPendingEvent := fun _ _ => onWorld_preserves_schedule _
  emitEvent := fun _ _ _ => Preserves.bind (onWorld_preserves_schedule _)
    fun _ => Preserves.bind (Preserves.modify fun _ kept => kept)
      fun _ => Preserves.pure _
  round := Preserves.iterate trivial fun _ _ kept => kept

/-- `processEvent` does not touch the schedule. -/
theorem processEvent_preserves_schedule (job : Nat) :
    Preserves Point.Aside (fun service => holds service.toSchedule)
      (processEvent plugins job) :=
  (processCalls_preserves_schedule plugins).processEvent job

end Frame

/-! ## The main loop -/

/-- What is known of the schedule at each program point. -/
def AtPoint : Point L → Schedule → Prop
  | .head, schedule => Inv .idle schedule
  | .headClock, schedule => Inv .idle schedule
  | .select now timeout, schedule =>
      Inv .idle schedule ∧ schedule.queue ≠ [] ∧
        timeout = Timeval.ofMicros
          (schedule.nextTick (schedule.queue.headD 0) - now)
  | .dueClock, schedule => Inv .idle schedule
  | .process job, schedule =>
      Inv .idle schedule ∧ schedule.queue.head? = some job
  | _, schedule => ∃ phase, Inv phase schedule

/-- The invariant is known where the schedule is left alone. -/
theorem AtPoint.of_aside
    {point : Point L}
    {phase : Phase}
    {schedule : Schedule}
    (aside : point.Aside)
    (inv : Inv phase schedule) :
    AtPoint point schedule := by
  cases point <;> first | exact ⟨phase, inv⟩ | exact absurd aside id

omit [World τ] in
/-- A process that leaves the schedule alone can be run in every phase. -/
theorem wp_of_preserves
    (holds : Schedule → Prop)
    {process : ServiceProc L τ α}
    {phase : Phase}
    {service : ServiceImpl τ}
    (preserves : Preserves Point.Aside
      (fun service => holds service.toSchedule) process)
    (implies : ∀ schedule, holds schedule → Inv phase schedule)
    (before : holds service.toSchedule) :
    wp (fun point service => AtPoint point service.toSchedule) process
      (fun _ service => holds service.toSchedule) service :=
  wp_mono (preserves service before)
    (fun _ _ kept => AtPoint.of_aside kept.1 (implies _ kept.2))
    fun _ _ kept => kept

variable (plugins : Plugins L τ)

/-- The invariant before the main loop has started. -/
def Fresh (schedule : Schedule) : Prop :=
  Inv .idle schedule ∧ schedule.history.log = []

theorem addEvent_fresh
    {service : ServiceImpl τ}
    (fresh : Fresh service.toSchedule)
    (config : EventConfig) :
    wp (fun point service => AtPoint point service.toSchedule)
      (addEvent plugins config)
      (fun _ service => Fresh service.toSchedule) service := by
  apply wp_seq (wp_of_preserves Fresh
    ((attachCalls_preserves_schedule plugins).attachSources config.sources [])
    (fun _ kept => kept.1) fresh)
  intro attached service' kept
  cases attached with
  | error failure => exact wp_pure kept
  | ok sources =>
      refine wp_bind (wp_call ⟨.idle, kept.1⟩ fun entry => ?_)
      refine wp_bind (wp_modify (wp_pure ?_))
      exact ⟨kept.1.adopt kept.2 config sources _, kept.2⟩

/-- Every way of setting the service up leads to the invariant. -/
theorem setUp_fresh
    {service : ServiceImpl τ}
    (fresh : Fresh service.toSchedule)
    (calls : List Setup) :
    wp (fun point service => AtPoint point service.toSchedule)
      (setUp plugins calls)
      (fun _ service => Fresh service.toSchedule) service := by
  refine wp_forM (fun call _ state kept => ?_) fresh
  cases call with
  | addEvent config =>
      exact wp_seq (addEvent_fresh plugins kept config)
        fun _ _ held => wp_pure held
  | addTarget config =>
      exact wp_seq (wp_of_preserves Fresh
        ((attachCalls_preserves_schedule plugins).addTarget config)
        (fun _ held => held.1) kept) fun _ _ held => wp_pure held

/-- The invariant at the head of a pass. -/
def AtHead (schedule : Schedule) : Prop :=
  Inv .idle schedule ∧ schedule.queue ≠ []

theorem head?_of_ne_nil
    {schedule : Schedule}
    (busy : schedule.queue ≠ []) :
    schedule.queue.head? = some (schedule.queue.headD 0) := by
  cases queue : schedule.queue with
  | nil => exact absurd queue busy
  | cons job rest => rfl

theorem finishPass_queue_ne_nil
    (schedule : Schedule)
    (job : Nat)
    (now : UInt64) :
    (schedule.finishPass job now).queue ≠ [] := by
  intro empty
  have member : job ∈ (schedule.finishPass job now).queue :=
    (Queue.mem_insertLast _ _ _ _).mpr (Or.inl rfl)
  rw [empty] at member
  simp at member

/-- A reading of the clock leaves the schedule alone. -/
theorem wp_monotonicNow
    {inv : Point L → ServiceImpl τ → Prop}
    {post : UInt64 → ServiceImpl τ → Prop}
    {point : Point L}
    {service : ServiceImpl τ}
    (before : inv point service)
    (after : ∀ now service', service'.toSchedule = service.toSchedule →
      post now service') :
    wp inv (monotonicNow point) post service :=
  wp_call before fun _ => after _ _ rfl

/-- So does `select`, whatever it reports. -/
theorem wp_select
    {inv : Point L → ServiceImpl τ → Prop}
    {post : Ready → ServiceImpl τ → Prop}
    {now : UInt64}
    {timeout : Timeval}
    {service : ServiceImpl τ}
    (before : inv (.select now timeout) service)
    (after : ∀ ready service', service'.toSchedule = service.toSchedule →
      post ready service') :
    wp inv (select now timeout) post service := by
  refine wp_call before fun entry => after _ _ ?_
  by_cases failed : entry.result < 0
  · simp only [failed, if_true]
    rfl
  · simp only [failed, if_false]
    rfl

/-- Processing the binding at the head of the queue, which is due, keeps the
invariant of the main loop. -/
theorem processJob_atHead
    {service : ServiceImpl τ}
    {job : Nat}
    {now : UInt64}
    (inv : Inv .idle service.toSchedule)
    (head : service.queue.head? = some job)
    (isDue : service.key job ≤ now.toNat) :
    wp (fun point service => AtPoint point service.toSchedule)
      (processJob plugins job now)
      (fun _ service => AtHead service.toSchedule) service := by
  refine wp_bind (wp_call ⟨inv, head⟩ fun entry => ?_)
  apply wp_seq (wp_of_preserves (Inv (.busy job))
    (processEvent_preserves_schedule plugins job) (fun _ kept => kept)
    (inv.logStart head now isDue))
  intro _ processed busy
  refine wp_bind (wp_modify ?_)
  refine wp_bind (wp_monotonicNow ⟨_, busy.eraseBegin⟩
    fun finished read sameRead => ?_)
  have isOut : Inv (.out job) read.toSchedule := sameRead ▸ busy.eraseBegin
  refine wp_bind (wp_modify (wp_bind (wp_modify (wp_bind (wp_modify
    (wp_modify ?_))))))
  exact ⟨isOut.finishPass finished, finishPass_queue_ne_nil _ job finished⟩

/-- A pass keeps the invariant of the main loop. -/
theorem runPass_atHead
    {service : ServiceImpl τ}
    (atHead : AtHead service.toSchedule) :
    wp (fun point service => AtPoint point service.toSchedule)
      (runPass plugins)
      (fun _ service => AtHead service.toSchedule) service := by
  refine wp_bind (wp_monotonicNow atHead.1 fun now read sameRead => ?_)
  rw [← sameRead] at atHead
  refine wp_bind (wp_get ?_)
  refine wp_bind (wp_select ⟨atHead.1, atHead.2, rfl⟩
    fun ready woken sameWoken => ?_)
  split
  · exact wp_pure (sameWoken ▸ atHead)
  split
  · exact wp_pure (sameWoken ▸ atHead)
  refine wp_bind (wp_monotonicNow (sameWoken ▸ atHead.1)
    fun now checked sameChecked => ?_)
  have same : checked.toSchedule = read.toSchedule :=
    sameChecked.trans sameWoken
  have head : checked.queue.head? = some (read.queue.headD 0) := by
    rw [same]
    exact head?_of_ne_nil atHead.2
  rw [← same] at atHead
  refine wp_bind (wp_get ?_)
  split
  · exact wp_pure atHead
  next notEarly =>
    have isDue := UInt64.le_iff_toNat_le.mp (UInt64.not_lt.mp notEarly)
    exact wp_seq (processJob_atHead plugins atHead.1 head isDue)
      fun _ _ kept => wp_pure kept

/-- The main loop keeps the invariant until it returns. -/
theorem run_atPoint
    {service : ServiceImpl τ}
    (inv : Inv .idle service.toSchedule) :
    wp (fun point service => AtPoint point service.toSchedule)
      (run plugins)
      (fun _ service => Inv .idle service.toSchedule) service := by
  refine wp_bind (wp_get ?_)
  split
  · exact wp_pure inv
  next nonempty =>
    have atHead : AtHead service.toSchedule :=
      ⟨inv, fun empty => nonempty (by rw [empty]; rfl)⟩
    apply wp_iterate (fun _ service => AtHead service.toSchedule) atHead
      (fun _ _ kept => kept.1)
    intro _ state entry kept
    have atHead : AtHead (react entry state).toSchedule := kept
    apply wp_mono (runPass_atHead plugins atHead) (fun _ _ held => held)
    intro result state' held
    cases result with
    | inl _ => exact held
    | inr _ => exact held.1

/-- What is known at each program point holds in the whole life of a service,
whatever it is set up with. -/
theorem serve_atPoint
    (calls : List Setup)
    {service : ServiceImpl τ}
    (fresh : Fresh service.toSchedule) :
    wp (fun point service => AtPoint point service.toSchedule)
      (serve plugins calls)
      (fun _ service => Inv .idle service.toSchedule) service := by
  refine wp_seq (setUp_fresh plugins fresh calls) fun _ ready kept => ?_
  refine wp_seq (run_atPoint plugins kept.1) fun rc left inv => ?_
  exact wp_seq (wp_of_preserves (Inv .idle)
    (attachCalls_preserves_schedule plugins).destroy (fun _ kept => kept) inv)
    fun _ _ kept => wp_pure kept

/-- The invariant in every state in which a service can be observed. -/
theorem reaches_atPoint
    {calls : List Setup}
    {world : τ}
    {point : Point L}
    {service : ServiceImpl τ}
    (reached : Reaches (serve plugins calls) { world := world } point
      service) :
    AtPoint point service.toSchedule :=
  (serve_atPoint plugins calls ⟨Inv.empty, rfl⟩).reaches reached

end Service
end EvCollect
