import EvCollect.Service.Run

/-!
# Assertions that the main loop carries

The main loop itself touches the schedule, the clock and the wakeup pipe, and
leaves names and sources of the bindings alone. An assertion that does not
depend on the rest of these, and that `processEvent` keeps, holds as long as the
service runs.
-/

namespace EvCollect
namespace Service

open Process ServiceImpl Schedule

/-- The names and the sources of the bindings. -/
def Schedule.static (schedule : Schedule) :
    List (Bytes × List EventSourceBinding) :=
  schedule.eventBindings.map fun binding =>
    (binding.eventName, binding.sources)

namespace Schedule

@[simp] theorem static_eraseBegin (schedule : Schedule) :
    schedule.eraseBegin.static = schedule.static := rfl

@[simp] theorem static_logStart
    (job : Nat)
    (now : UInt64)
    (schedule : Schedule) :
    (logStart job now schedule).static = schedule.static := rfl

@[simp] theorem static_logFinish
    (job : Nat)
    (now : UInt64)
    (schedule : Schedule) :
    (logFinish job now schedule).static = schedule.static := rfl

@[simp] theorem static_insertJob (job : Nat) (schedule : Schedule) :
    (insertJob job schedule).static = schedule.static := rfl

@[simp] theorem static_storeNextTick
    (job : Nat)
    (tick : UInt64)
    (schedule : Schedule) :
    (storeNextTick job tick schedule).static = schedule.static := by
  unfold static storeNextTick
  dsimp only
  apply List.ext_getElem?
  intro index
  simp only [List.getElem?_map, List.getElem?_modify]
  cases schedule.eventBindings[index]? with
  | none => rfl
  | some binding =>
      simp only [Option.map_some, Option.map_eq_map]
      split <;> rfl

@[simp] theorem static_advanceTick (job : Nat) (schedule : Schedule) :
    (advanceTick job schedule).static = schedule.static :=
  static_storeNextTick job _ _

@[simp] theorem static_skipSamples
    (job : Nat)
    (now : UInt64)
    (schedule : Schedule) :
    (skipSamples job now schedule).static = schedule.static := by
  unfold skipSamples
  split
  · exact static_storeNextTick job now schedule
  · rfl

/-- A new binding is added to the others. -/
theorem static_adopt
    (config : EventConfig)
    (sources : List EventSourceBinding)
    (now : UInt64)
    (schedule : Schedule) :
    (adopt config sources now schedule).static =
      schedule.static ++ [(config.eventName, sources)] := by
  simp [adopt, static, insertJob, addBinding]

/-- A binding behind a valid pointer is one of the bindings; the others have no
sources. -/
theorem binding_static (schedule : Schedule) (job : Nat) :
    ((schedule.binding job).eventName, (schedule.binding job).sources) ∈
        schedule.static ∨
      (schedule.binding job).sources = [] := by
  unfold binding
  rw [List.getD_eq_getElem?_getD]
  cases found : schedule.eventBindings[job]? with
  | none => exact Or.inr rfl
  | some binding =>
      left
      exact List.mem_map_of_mem (List.mem_of_getElem? found)

end Schedule

variable {L τ : Type} [World τ]

/-- An assertion that holds whenever the main loop is not inside of a plugin,
with the assertions at the program points. -/
structure Carried
    (plugins : Plugins L τ)
    (inv : Point L → ServiceImpl τ → Prop)
    (holds : ServiceImpl τ → Prop) : Prop where
  atPoint : ∀ point service, (∀ inner, point ≠ .plugin inner) →
    holds service → inv point service
  react : ∀ entry service, holds service → holds (react entry service)
  clock : ∀ now service, holds service → holds { service with clock := now }
  schedule : ∀ schedule service, schedule.static = service.static →
    holds service → holds { service with toSchedule := schedule }
  processEvent : ∀ job service, holds service →
    wp inv (processEvent plugins job) (fun _ after => holds after) service

namespace Carried

variable {plugins : Plugins L τ}
variable {inv : Point L → ServiceImpl τ → Prop}
variable {holds : ServiceImpl τ → Prop}
variable {service : ServiceImpl τ}

theorem onSchedule
    (carried : Carried plugins inv holds)
    {step : Schedule → Schedule}
    (same : ∀ schedule, (step schedule).static = schedule.static)
    (before : holds service) :
    holds (service.onSchedule step) :=
  carried.schedule _ service (same _) before

theorem monotonicNow
    (carried : Carried plugins inv holds)
    {point : Point L}
    (own : ∀ inner, point ≠ .plugin inner) :
    Maintains inv holds (monotonicNow point) :=
  Maintains.call (carried.atPoint point · own) fun entry service before =>
    carried.clock _ _ (carried.react entry service before)

theorem select
    (carried : Carried plugins inv holds)
    (now : UInt64)
    (timeout : Timeval) :
    Maintains inv holds (select now timeout) := by
  refine Maintains.call (carried.atPoint _ · (by simp)) fun entry service kept => ?_
  have after := carried.react entry service kept
  dsimp only
  split <;> exact after

theorem maintains_onSchedule
    (carried : Carried plugins inv holds)
    {step : Schedule → Schedule}
    (same : ∀ schedule, (step schedule).static = schedule.static) :
    Maintains inv holds
      (Proc.modify (ServiceImpl.onSchedule step) : ServiceProc L τ Unit) :=
  Maintains.modify fun _ before => carried.onSchedule same before

/-- The calls of the main loop keep the assertion. -/
theorem loopCalls
    (carried : Carried plugins inv holds) :
    LoopCalls plugins (Maintains inv holds) where
  toComposes := Maintains.composes
  processEvent := carried.processEvent
  headClock := carried.monotonicNow (by simp)
  select := carried.select
  dueClock := carried.monotonicNow (by simp)
  doneClock := carried.monotonicNow (by simp)
  process := fun job now => Maintains.call (carried.atPoint _ · (by simp))
    fun entry service before => carried.onSchedule (static_logStart job now)
      (carried.react entry service before)
  eraseBegin := carried.maintains_onSchedule static_eraseBegin
  logFinish := fun job now =>
    carried.maintains_onSchedule (static_logFinish job now)
  advanceTick := fun job => carried.maintains_onSchedule (static_advanceTick job)
  skipSamples := fun job now =>
    carried.maintains_onSchedule (static_skipSamples job now)
  insertJob := fun job => carried.maintains_onSchedule (static_insertJob job)
  pass := Maintains.iterate (carried.atPoint _ · (by simp)) carried.react

/-- The main loop carries the assertion until it returns. -/
theorem run
    (carried : Carried plugins inv holds)
    (before : holds service) :
    wp inv (run plugins) (fun _ after => holds after) service :=
  carried.loopCalls.run service before

end Carried

/-! ## The teardown -/

omit [World τ] in
/-- The teardown keeps what every detached plugin keeps. -/
theorem destroy_carries
    {plugins : Plugins L τ}
    {inv : Point L → ServiceImpl τ → Prop}
    {holds : ServiceImpl τ → Prop}
    {service : ServiceImpl τ}
    (ofSource : ∀ (source : EventSourceBinding) state, holds state →
      wp inv (onWorld ((plugins.source source.plugin).pluginDetach
        source.userdata)) (fun _ after => holds after) state)
    (ofTarget : ∀ (target : TargetBinding) state, holds state →
      wp inv (onWorld ((plugins.output target.plugin).pluginDetach
        target.userdata)) (fun _ after => holds after) state)
    (before : holds service) :
    wp inv (destroy plugins) (fun _ after => holds after) service := by
  refine wp_bind (wp_get ?_)
  refine wp_seq (wp_forM (fun binding _ state kept =>
    wp_forM (fun source _ => ofSource source) kept) before) fun _ after held => ?_
  exact wp_forM (fun target _ => ofTarget target) held

end Service
end EvCollect
