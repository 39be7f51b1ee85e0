import EvCollect.Service.Walk

/-!
# Assertions about the world of the plugins

The service never touches the world of its plugins. An assertion about the world
that every function of the plugins preserves holds at every program point of the
service.
-/

namespace EvCollect
namespace Service

open Process ServiceImpl Schedule

variable {L τ : Type}

/-- The assertion holds wherever the process can be observed. -/
abbrev Holds (holds : τ → Prop) (process : Proc Entry L τ α) : Prop :=
  Preserves (fun _ => True) holds process

/-- Every function of the plugins preserves an assertion about their world. -/
structure Preserved
    [World τ]
    (plugins : Plugins L τ)
    (holds : τ → Prop) : Prop where
  react : ∀ entry world, holds world → holds (World.react entry world)
  getSourcePlugin : ∀ name, Holds holds (plugins.getSourcePlugin name)
  getOutputPlugin : ∀ name, Holds holds (plugins.getOutputPlugin name)
  attachSource : ∀ ref config,
    Holds holds ((plugins.source ref).pluginAttach config)
  detachSource : ∀ ref userdata,
    Holds holds ((plugins.source ref).pluginDetach userdata)
  getNextEvent : ∀ ref userdata buffer,
    Holds holds ((plugins.source ref).pluginGetNextEvent userdata buffer)
  hasPendingEvent : ∀ ref userdata,
    Holds holds ((plugins.source ref).pluginHasPendingEvent userdata)
  attachOutput : ∀ ref config,
    Holds holds ((plugins.output ref).pluginAttach config)
  detachOutput : ∀ ref userdata,
    Holds holds ((plugins.output ref).pluginDetach userdata)
  emitEvent : ∀ ref userdata event,
    Holds holds ((plugins.output ref).pluginEmitEvent userdata event)

namespace Preserved

variable [World τ]
variable {plugins : Plugins L τ}
variable {holds : τ → Prop}

/-- The assertion about a service. -/
abbrev Of (holds : τ → Prop) (service : ServiceImpl τ) : Prop :=
  holds service.world

omit [World τ] in
theorem onWorld
    {process : Proc Entry L τ α}
    (kept : Holds holds process) :
    Holds (Of holds) (onWorld process) := by
  intro service before
  exact wp_zoom (wp_mono (kept service.world before)
    (fun _ _ still => still) fun _ _ still => still)

/-- A call of the service itself. -/
theorem call
    (preserved : Preserved plugins holds)
    {point : Point L}
    {effect : Entry → ServiceImpl τ → α × ServiceImpl τ}
    (sameWorld : ∀ entry service,
      (effect entry service).2.world = World.react entry service.world) :
    Holds (Of holds) (Proc.call point effect) :=
  Preserves.call trivial fun entry service before =>
    (congrArg holds (sameWorld entry service)).mpr
      (preserved.react entry _ before)

omit [World τ] in
/-- A step on the schedule. -/
theorem onSchedule (step : Schedule → Schedule) :
    Holds (L := Point L) (Of holds) (Proc.modify (ServiceImpl.onSchedule step)) :=
  Preserves.modify fun _ before => before

/-! ## Setup -/

theorem attachCalls
    (preserved : Preserved plugins holds) :
    AttachCalls plugins (Holds (L := Point L) (Of holds)) where
  toComposes := Preserves.composes
  getSourcePlugin := fun _ => onWorld (preserved.getSourcePlugin _)
  getOutputPlugin := fun _ => onWorld (preserved.getOutputPlugin _)
  attachSource := fun _ _ => onWorld (preserved.attachSource _ _)
  attachOutput := fun _ _ => onWorld (preserved.attachOutput _ _)
  bindTarget := fun _ => Preserves.modify fun _ before => before
  detachSource := fun _ _ => onWorld (preserved.detachSource _ _)
  detachOutput := fun _ _ => onWorld (preserved.detachOutput _ _)

theorem addEvent
    (preserved : Preserved plugins holds)
    (config : EventConfig) :
    Holds (Of holds) (addEvent plugins config) := by
  refine Preserves.bind (preserved.attachCalls.attachSources _ _) fun result => ?_
  cases result with
  | error failure => exact Preserves.pure _
  | ok sources =>
      refine Preserves.bind (preserved.call fun _ _ => rfl) fun now => ?_
      exact Preserves.bind (onSchedule _) fun _ => Preserves.pure _

/-! ## The main loop -/

theorem processCalls
    (preserved : Preserved plugins holds) :
    ProcessCalls plugins (Holds (L := Point L) (Of holds)) where
  toComposes := Preserves.composes
  wallClock := preserved.call fun _ _ => rfl
  getNextEvent := fun _ _ => onWorld (preserved.getNextEvent _ _ _)
  hasPendingEvent := fun _ _ => onWorld (preserved.hasPendingEvent _ _)
  emitEvent := fun _ _ _ => Preserves.bind
    (onWorld (preserved.emitEvent _ _ _)) fun _ =>
      Preserves.bind (Preserves.modify fun _ before => before)
        fun _ => Preserves.pure _
  round := Preserves.iterate trivial fun _ _ before =>
    preserved.react _ _ before

theorem select
    (preserved : Preserved plugins holds)
    (now : UInt64)
    (timeout : Timeval) :
    Holds (Of holds) (select now timeout : ServiceProc L τ Ready) := by
  refine preserved.call fun entry service => ?_
  split <;> rfl

theorem loopCalls
    (preserved : Preserved plugins holds) :
    LoopCalls plugins (Holds (L := Point L) (Of holds)) where
  toComposes := Preserves.composes
  processEvent := preserved.processCalls.processEvent
  headClock := preserved.call fun _ _ => rfl
  select := preserved.select
  dueClock := preserved.call fun _ _ => rfl
  doneClock := preserved.call fun _ _ => rfl
  process := fun _ _ => preserved.call fun _ _ => rfl
  eraseBegin := onSchedule _
  logFinish := fun _ _ => onSchedule _
  advanceTick := fun _ => onSchedule _
  skipSamples := fun _ _ => onSchedule _
  insertJob := fun _ => onSchedule _
  pass := Preserves.iterate trivial fun _ _ before =>
    preserved.react _ _ before

end Preserved

end Service
end EvCollect
