import EvCollect.Process.Compositional
import EvCollect.Service.Defs

/-!
# Going through the service

What holds of the calls that the service makes holds of the functions that make
them, if it is a property that composes. The functions are gone through once
here. What is shown of them elsewhere is shown of their calls.
-/

namespace EvCollect
namespace Service

open Process ServiceImpl Schedule

variable {L τ : Type}

/-! ## Setup and teardown -/

/-- The property composes, and holds of the calls that attach plugins and detach
them. -/
structure AttachCalls
    (plugins : Plugins L τ)
    (good : ∀ {α : Type}, ServiceProc L τ α → Prop) : Prop extends
    Composes good where
  getSourcePlugin : ∀ name, good (onWorld (plugins.getSourcePlugin name))
  getOutputPlugin : ∀ name, good (onWorld (plugins.getOutputPlugin name))
  attachSource : ∀ ref config,
    good (onWorld ((plugins.source ref).pluginAttach config))
  attachOutput : ∀ ref config,
    good (onWorld ((plugins.output ref).pluginAttach config))
  /-- A target is added to the others. -/
  bindTarget : ∀ target, good (Proc.modify fun service =>
    { service with targets := service.targets ++ [target] })
  detachSource : ∀ ref userdata,
    good (onWorld ((plugins.source ref).pluginDetach userdata))
  detachOutput : ∀ ref userdata,
    good (onWorld ((plugins.output ref).pluginDetach userdata))

namespace AttachCalls

variable {plugins : Plugins L τ}
variable {good : ∀ {α : Type}, ServiceProc L τ α → Prop}

theorem attachSources
    (calls : AttachCalls plugins good)
    (sources : List EventSourceConfig)
    (attached : List EventSourceBinding) :
    good (attachSources plugins sources attached) := by
  induction sources generalizing attached with
  | nil => exact calls.pure _
  | cons source rest inductionHypothesis =>
      refine calls.bind (calls.getSourcePlugin _) fun found => ?_
      cases found with
      | error failure => exact calls.pure _
      | ok plugin =>
          refine calls.bind (calls.attachSource _ _) fun handle => ?_
          cases handle with
          | error failure => exact calls.pure _
          | ok userdata => exact inductionHypothesis _

theorem addTarget
    (calls : AttachCalls plugins good)
    (config : TargetConfig) :
    good (addTarget plugins config) := by
  refine calls.bind (calls.getOutputPlugin _) fun found => ?_
  cases found with
  | error failure => exact calls.pure _
  | ok plugin =>
      refine calls.bind (calls.attachOutput _ _) fun handle => ?_
      cases handle with
      | error failure => exact calls.pure _
      | ok userdata =>
          exact calls.bind (calls.bindTarget _) fun _ => calls.pure _

theorem destroy (calls : AttachCalls plugins good) : good (destroy plugins) := by
  refine calls.bind calls.get fun service => ?_
  refine calls.bind (calls.forM fun binding _ => calls.forM fun source _ => ?_)
    fun _ => calls.forM fun target _ => ?_
  · exact calls.detachSource _ _
  · exact calls.detachOutput _ _

end AttachCalls

/-! ## Processing -/

/-- The property composes, and holds of the calls in which a binding is
processed. -/
structure ProcessCalls
    [World τ]
    (plugins : Plugins L τ)
    (good : ∀ {α : Type}, ServiceProc L τ α → Prop) : Prop extends
    Composes good where
  wallClock : good (wallClock .wallClock)
  /-- The event buffer is empty. -/
  getNextEvent : ∀ ref userdata,
    good (onWorld ((plugins.source ref).pluginGetNextEvent userdata []))
  hasPendingEvent : ∀ ref userdata,
    good (onWorld ((plugins.source ref).pluginHasPendingEvent userdata))
  /-- A target is given an event, and the history records that. -/
  emitEvent : ∀ (target : TargetBinding) position event, good do
    let rc ← onWorld
      ((plugins.output target.plugin).pluginEmitEvent target.userdata event)
    Proc.modify (logOffer position event)
    return rc
  round : ∀ {body : Unit → ServiceProc L τ (Unit ⊕ ReturnCode)},
    (∀ current, good (body current)) →
    good (Proc.iterate .round react body ())

namespace ProcessCalls

variable [World τ]
variable {plugins : Plugins L τ}
variable {good : ∀ {α : Type}, ServiceProc L τ α → Prop}

theorem pollSources
    (calls : ProcessCalls plugins good)
    (sources : List EventSourceBinding)
    (merged : Bytes)
    (cont : Bool) :
    good (pollSources plugins sources merged cont) := by
  induction sources generalizing merged cont with
  | nil => exact calls.pure _
  | cons source rest inductionHypothesis =>
      refine calls.bind (calls.getNextEvent _ _) fun reply => ?_
      cases reply with
      | error failure => exact calls.pure _
      | ok buffer =>
          exact calls.bind (calls.hasPendingEvent _ _)
            fun _ => inductionHypothesis _ _

theorem deliverFrom
    (calls : ProcessCalls plugins good)
    (event : EventData)
    (position : Nat)
    (targets : List TargetBinding)
    (aggregate : ReturnCode) :
    good (deliverFrom plugins event position targets aggregate) := by
  induction targets generalizing position aggregate with
  | nil => exact calls.pure _
  | cons target rest inductionHypothesis =>
      have given := calls.bind (calls.emitEvent target position event)
        fun rc => inductionHypothesis (position + 1)
          (if ReturnCode.isSuccess rc then aggregate else rc)
      -- The call and its record are one step.
      rw [Proc.bind_assoc] at given
      exact given

theorem emitMerged
    (calls : ProcessCalls plugins good)
    (job : Nat)
    (now : UInt64)
    (merged : Bytes) :
    good (emitMerged plugins job now merged) := by
  refine calls.ite (calls.pure _) (calls.bind calls.get fun _ => ?_)
  exact calls.bind calls.get fun _ => calls.deliverFrom _ _ _ _

theorem processRound
    (calls : ProcessCalls plugins good)
    (job : Nat)
    (now : UInt64) :
    good (processRound plugins job now) := by
  refine calls.bind calls.get fun service => ?_
  refine calls.bind (calls.pollSources _ _ _) fun polled => ?_
  cases polled with
  | error failure => exact calls.pure _
  | ok result =>
      refine calls.bind (calls.emitMerged job now _) fun emitted => ?_
      cases emitted with
      | error failure => exact calls.pure _
      | ok _ => exact calls.ite (calls.pure _) (calls.pure _)

theorem processEvent
    (calls : ProcessCalls plugins good)
    (job : Nat) :
    good (processEvent plugins job) := by
  refine calls.bind calls.get fun service => ?_
  refine calls.ite (calls.pure _) (calls.bind calls.wallClock fun now => ?_)
  exact calls.round fun _ => calls.processRound job now

end ProcessCalls

/-! ## The main loop -/

/-- The property composes, and holds of the calls and steps of the main loop. -/
structure LoopCalls
    [World τ]
    (plugins : Plugins L τ)
    (good : ∀ {α : Type}, ServiceProc L τ α → Prop) : Prop extends
    Composes good where
  processEvent : ∀ job, good (processEvent plugins job)
  headClock : good (monotonicNow .headClock)
  select : ∀ now timeout, good (select now timeout)
  dueClock : good (monotonicNow .dueClock)
  doneClock : good (monotonicNow .doneClock)
  process : ∀ job now, good (Proc.call (.process job) fun entry service =>
    ((), onSchedule (logStart job now) (react entry service)))
  eraseBegin : good (Proc.modify (onSchedule eraseBegin))
  logFinish : ∀ job now, good (Proc.modify (onSchedule (logFinish job now)))
  advanceTick : ∀ job, good (Proc.modify (onSchedule (advanceTick job)))
  skipSamples : ∀ job now, good (Proc.modify (onSchedule (skipSamples job now)))
  insertJob : ∀ job, good (Proc.modify (onSchedule (insertJob job)))
  pass : ∀ {body : Unit → ServiceProc L τ (Unit ⊕ ReturnCode)},
    (∀ current, good (body current)) →
    good (Proc.iterate .head react body ())

namespace LoopCalls

variable [World τ]
variable {plugins : Plugins L τ}
variable {good : ∀ {α : Type}, ServiceProc L τ α → Prop}

theorem processJob
    (calls : LoopCalls plugins good)
    (job : Nat)
    (now : UInt64) :
    good (processJob plugins job now) := by
  refine calls.bind (calls.process job now) fun _ => ?_
  refine calls.bind (calls.processEvent job) fun _ => ?_
  refine calls.bind calls.eraseBegin fun _ => ?_
  refine calls.bind calls.doneClock fun finished => ?_
  refine calls.bind (calls.logFinish job finished) fun _ => ?_
  refine calls.bind (calls.advanceTick job) fun _ => ?_
  exact calls.bind (calls.skipSamples job finished) fun _ => calls.insertJob job

theorem runPass (calls : LoopCalls plugins good) : good (runPass plugins) := by
  refine calls.bind calls.headClock fun now => ?_
  refine calls.bind calls.get fun service => ?_
  refine calls.bind (calls.select _ _) fun ready => ?_
  refine calls.ite (calls.pure _) (calls.ite (calls.pure _) ?_)
  refine calls.bind calls.dueClock fun due => ?_
  refine calls.bind calls.get fun current => ?_
  refine calls.ite (calls.pure _) ?_
  exact calls.bind (calls.processJob _ _) fun _ => calls.pure _

theorem run (calls : LoopCalls plugins good) : good (run plugins) := by
  refine calls.bind calls.get fun service => ?_
  exact calls.ite (calls.pure _) (calls.pass fun _ => calls.runPass)

end LoopCalls

end Service
end EvCollect
