import EvCollect.Process.Beside
import EvCollect.Service.Carry

/-!
# Watching plugins

A plugin map that does what a given one does, and keeps a list of what its
plugins have been asked for and what they have answered. The service does not
see the difference, so what the list says of this plugin map is what the service
does with the given one.
-/

namespace EvCollect
namespace Service

open Process

/-- What a successful `pluginAttach` leaves behind: a plugin and the userdata
that it has handed out. -/
inductive Attachment
  | source (binding : EventSourceBinding)
  | output (binding : TargetBinding)
  deriving DecidableEq, Repr

inductive Observation
  /-- `pluginAttach` has returned successfully. -/
  | attached (attachment : Attachment)
  /-- `pluginDetach` is called. -/
  | detached (attachment : Attachment)
  /-- `pluginGetNextEvent` has returned successfully. -/
  | returned (source : EventSourceBinding) (event : Bytes)
  /-- `pluginEmitEvent` has returned, whether successfully or not. -/
  | emitted (target : TargetBinding) (event : EventData)
  deriving DecidableEq, Repr

/-- The world of some plugins, with what has been observed of them. -/
structure Observed (τ : Type) where
  world : τ
  observations : List Observation := []
  deriving DecidableEq, Repr

instance {τ : Type} [World τ] : World (Observed τ) where
  react := fun entry observed =>
    { observed with world := World.react entry observed.world }

variable {L τ : Type}

/-- Run a function of the given plugins. -/
def observing (process : Proc Entry L τ α) : Proc Entry L (Observed τ) α :=
  Proc.zoom Observed.world
    (fun world observed => { observed with world := world }) id process

def Observed.note
    (observation : Observation)
    (observed : Observed τ) : Observed τ :=
  { observed with observations := observed.observations ++ [observation] }

/-- Run `pluginAttach`, and note a success. -/
def observeAttach
    (attachment : Userdata → Attachment)
    (process : Proc Entry L τ (Except Error Userdata)) :
    Proc Entry L (Observed τ) (Except Error Userdata) := do
  match ← observing process with
  | .error error => return .error error
  | .ok userdata =>
      Proc.modify (Observed.note (.attached (attachment userdata)))
      return .ok userdata

/-- Note a call of `pluginDetach`, and run it. -/
def observeDetach
    (attachment : Attachment)
    (process : Proc Entry L τ Unit) : Proc Entry L (Observed τ) Unit := do
  Proc.modify (Observed.note (.detached attachment))
  observing process

/-- Run `pluginGetNextEvent`, and note an event. -/
def observeNextEvent
    (source : EventSourceBinding)
    (process : Proc Entry L τ (Except Error Bytes)) :
    Proc Entry L (Observed τ) (Except Error Bytes) := do
  match ← observing process with
  | .error error => return .error error
  | .ok event =>
      Proc.modify (Observed.note (.returned source event))
      return .ok event

/-- Run `pluginEmitEvent`, and note the call. -/
def observeEmit
    (target : TargetBinding)
    (event : EventData)
    (process : Proc Entry L τ ReturnCode) :
    Proc Entry L (Observed τ) ReturnCode := do
  let rc ← observing process
  Proc.modify (Observed.note (.emitted target event))
  return rc

/-- The plugin map that keeps the list. -/
def observe (plugins : Plugins L τ) : Plugins L (Observed τ) where
  getSourcePlugin := fun name => observing (plugins.getSourcePlugin name)
  getOutputPlugin := fun name => observing (plugins.getOutputPlugin name)
  source := fun ref =>
    { pluginAttach := fun config =>
        observeAttach (fun userdata => .source ⟨ref, userdata⟩)
          ((plugins.source ref).pluginAttach config)
      pluginDetach := fun userdata =>
        observeDetach (.source ⟨ref, userdata⟩)
          ((plugins.source ref).pluginDetach userdata)
      pluginGetNextEvent := fun userdata buffer =>
        observeNextEvent ⟨ref, userdata⟩
          ((plugins.source ref).pluginGetNextEvent userdata buffer)
      pluginHasPendingEvent := fun userdata =>
        observing ((plugins.source ref).pluginHasPendingEvent userdata) }
  output := fun ref =>
    { pluginAttach := fun config =>
        observeAttach (fun userdata => .output ⟨ref, userdata⟩)
          ((plugins.output ref).pluginAttach config)
      pluginDetach := fun userdata =>
        observeDetach (.output ⟨ref, userdata⟩)
          ((plugins.output ref).pluginDetach userdata)
      pluginEmitEvent := fun userdata event =>
        observeEmit ⟨ref, userdata⟩ event
          ((plugins.output ref).pluginEmitEvent userdata event) }

/-- The events that sources have returned successfully and that are not empty,
in order. -/
def returns (observations : List Observation) :
    List (EventSourceBinding × Bytes) :=
  observations.filterMap fun
    | .returned source event => if event.isEmpty then none else some (source, event)
    | _ => none

/-- What has been attached, in order. -/
def attachments (observations : List Observation) : List Attachment :=
  observations.filterMap fun
    | .attached attachment => some attachment
    | _ => none

/-- What has been detached, in order. -/
def detachments (observations : List Observation) : List Attachment :=
  observations.filterMap fun
    | .detached attachment => some attachment
    | _ => none

/-- The events that targets have been called with, in order. -/
def emissions (observations : List Observation) :
    List (TargetBinding × EventData) :=
  observations.filterMap fun
    | .emitted target event => some (target, event)
    | _ => none

/-- What is noted when some targets are called with an event. -/
def emittedTo
    (targets : List TargetBinding)
    (event : EventData) : List Observation :=
  targets.map fun target => .emitted target event

section Lists

variable (first second : List Observation)

@[simp] theorem returns_append :
    returns (first ++ second) = returns first ++ returns second := by
  simp [returns]

@[simp] theorem attachments_append :
    attachments (first ++ second) =
      attachments first ++ attachments second := by
  simp [attachments]

@[simp] theorem detachments_append :
    detachments (first ++ second) =
      detachments first ++ detachments second := by
  simp [detachments]

@[simp] theorem emissions_append :
    emissions (first ++ second) = emissions first ++ emissions second := by
  simp [emissions]

end Lists

section EmittedTo

variable (targets : List TargetBinding) (event : EventData)

@[simp] theorem returns_emittedTo : returns (emittedTo targets event) = [] := by
  simp [returns, emittedTo]

@[simp] theorem emissions_emittedTo :
    emissions (emittedTo targets event) =
      targets.map fun target => (target, event) := by
  simp [emissions, emittedTo, List.filterMap_map]

end EmittedTo

theorem returns_singleton (source : EventSourceBinding) (event : Bytes) :
    returns [.returned source event] =
      if event.isEmpty then [] else [(source, event)] := by
  cases event <;> rfl

/-! ## What can be said of any plugin -/

section Rules

variable {inv : L → Observed τ → Prop}
variable {observed : Observed τ}

/-- A function of the given plugins leaves the list alone. -/
theorem wp_observing
    {process : Proc Entry L τ α}
    {post : α → Observed τ → Prop}
    (atPoint : ∀ point world, inv point { observed with world := world })
    (after : ∀ value world, post value { observed with world := world }) :
    wp inv (observing process) post observed :=
  wp_zoom (wp_mono (wp_trivial process observed.world)
    (fun point world _ => atPoint point world)
    fun value world _ => after value world)

theorem wp_observeAttach
    {attachment : Userdata → Attachment}
    {process : Proc Entry L τ (Except Error Userdata)}
    {post : Except Error Userdata → Observed τ → Prop}
    (atPoint : ∀ point world, inv point { observed with world := world })
    (failed : ∀ error world, post (.error error) { observed with world := world })
    (succeeded : ∀ userdata world, post (.ok userdata)
      (Observed.note (.attached (attachment userdata))
        { observed with world := world })) :
    wp inv (observeAttach attachment process) post observed := by
  refine wp_bind (wp_observing atPoint fun result world => ?_)
  cases result with
  | error error => exact wp_pure (failed error world)
  | ok userdata => exact wp_bind (wp_modify (wp_pure (succeeded userdata world)))

theorem wp_observeDetach
    {attachment : Attachment}
    {process : Proc Entry L τ Unit}
    {post : Unit → Observed τ → Prop}
    (atPoint : ∀ point world, inv point
      (Observed.note (.detached attachment) { observed with world := world }))
    (after : ∀ world, post ()
      (Observed.note (.detached attachment) { observed with world := world })) :
    wp inv (observeDetach attachment process) post observed :=
  wp_bind (wp_modify (wp_observing atPoint fun _ => after))

theorem wp_observeNextEvent
    {source : EventSourceBinding}
    {process : Proc Entry L τ (Except Error Bytes)}
    {post : Except Error Bytes → Observed τ → Prop}
    (atPoint : ∀ point world, inv point { observed with world := world })
    (failed : ∀ error world, post (.error error) { observed with world := world })
    (succeeded : ∀ event world, post (.ok event)
      (Observed.note (.returned source event) { observed with world := world })) :
    wp inv (observeNextEvent source process) post observed := by
  refine wp_bind (wp_observing atPoint fun result world => ?_)
  cases result with
  | error error => exact wp_pure (failed error world)
  | ok event => exact wp_bind (wp_modify (wp_pure (succeeded event world)))

theorem wp_observeEmit
    {target : TargetBinding}
    {event : EventData}
    {process : Proc Entry L τ ReturnCode}
    {post : ReturnCode → Observed τ → Prop}
    (atPoint : ∀ point world, inv point { observed with world := world })
    (after : ∀ rc world, post rc
      (Observed.note (.emitted target event) { observed with world := world })) :
    wp inv (observeEmit target event process) post observed :=
  wp_bind (wp_observing atPoint fun rc world =>
    wp_bind (wp_modify (wp_pure (after rc world))))

end Rules

/-! ## Setup -/

namespace Observed

/-- What is observed of sources that are attached one after the other. -/
def gain
    (gained : List EventSourceBinding)
    (world : τ)
    (observed : Observed τ) : Observed τ where
  world := world
  observations := observed.observations ++
    gained.map fun source => .attached (.source source)

@[simp] theorem gain_nil (world : τ) (observed : Observed τ) :
    observed.gain [] world = { observed with world := world } := by
  simp [gain]

theorem gain_gain
    (first second : List EventSourceBinding)
    (between world : τ)
    (observed : Observed τ) :
    (observed.gain first between).gain second world =
      observed.gain (first ++ second) world := by
  simp [gain]

@[simp] theorem attachments_gain
    (gained : List EventSourceBinding)
    (world : τ)
    (observed : Observed τ) :
    attachments (observed.gain gained world).observations =
      attachments observed.observations ++ gained.map Attachment.source := by
  have all : attachments (gained.map fun source =>
      .attached (.source source)) = gained.map Attachment.source := by
    induction gained with
    | nil => rfl
    | cons source rest inductionHypothesis =>
        exact congrArg (Attachment.source source :: ·) inductionHypothesis
  rw [gain, attachments_append, all]

@[simp] theorem detachments_gain
    (gained : List EventSourceBinding)
    (world : τ)
    (observed : Observed τ) :
    detachments (observed.gain gained world).observations =
      detachments observed.observations := by
  have none : detachments (gained.map fun source =>
      .attached (.source source)) = [] := by
    induction gained with
    | nil => rfl
    | cons source rest inductionHypothesis => exact inductionHypothesis
  rw [gain, detachments_append, none, List.append_nil]

@[simp] theorem returns_gain
    (gained : List EventSourceBinding)
    (world : τ)
    (observed : Observed τ) :
    returns (observed.gain gained world).observations =
      returns observed.observations := by
  have none : returns (gained.map fun source =>
      .attached (.source source)) = [] := by
    induction gained with
    | nil => rfl
    | cons source rest inductionHypothesis => exact inductionHypothesis
  rw [gain, returns_append, none, List.append_nil]

@[simp] theorem emissions_gain
    (gained : List EventSourceBinding)
    (world : τ)
    (observed : Observed τ) :
    emissions (observed.gain gained world).observations =
      emissions observed.observations := by
  have none : emissions (gained.map fun source =>
      .attached (.source source)) = [] := by
    induction gained with
    | nil => rfl
    | cons source rest inductionHypothesis => exact inductionHypothesis
  rw [gain, emissions_append, none, List.append_nil]

end Observed

/-- A step of the loop in `addEvent`: look up and attach one source. -/
def attachSource
    (plugins : Plugins L τ)
    (source : EventSourceConfig) :
    ServiceProc L τ (Except Error EventSourceBinding) := do
  match ← onWorld (plugins.getSourcePlugin source.pluginName) with
  | .error error => return .error error
  | .ok plugin =>
      match ← onWorld
          ((plugins.source plugin).pluginAttach source.properties) with
      | .error error => return .error error
      | .ok userdata => return .ok ⟨plugin, userdata⟩

/-- The loop in `addEvent` takes one step after the other. -/
theorem attachSources_cons
    (plugins : Plugins L τ)
    (source : EventSourceConfig)
    (rest : List EventSourceConfig)
    (attached : List EventSourceBinding) :
    attachSources plugins (source :: rest) attached =
      attachSource plugins source >>= fun
        | .error error => pure (.error error)
        | .ok binding => attachSources plugins rest (attached ++ [binding]) := by
  rw [attachSource, Proc.bind_assoc]
  refine congrArg _ (funext fun found => ?_)
  cases found with
  | error failure => rfl
  | ok plugin =>
      dsimp only
      rw [Proc.bind_assoc]
      refine congrArg _ (funext fun handle => ?_)
      cases handle <;> rfl

/-- A source that is attached is added to the list. -/
theorem attachSource_observed
    {plugins : Plugins L τ}
    {inv : Point L → ServiceImpl (Observed τ) → Prop}
    (source : EventSourceConfig)
    {service : ServiceImpl (Observed τ)}
    (atPoint : ∀ point world, inv (.plugin point)
      { service with world := service.world.gain [] world }) :
    wp inv (attachSource (observe plugins) source)
      (fun result after => match result with
        | .error _ => ∃ world, after =
            { service with world := service.world.gain [] world }
        | .ok binding => ∃ world, after =
            { service with world := service.world.gain [binding] world })
      service := by
  simp only [Observed.gain_nil] at *
  refine wp_bind (wp_zoom (wp_observing atPoint fun found world => ?_))
  cases found with
  | error failure => exact wp_pure ⟨world, rfl⟩
  | ok ref =>
      refine wp_bind (wp_zoom (wp_observeAttach atPoint ?_ ?_))
      · exact fun error world => wp_pure ⟨world, rfl⟩
      · exact fun userdata world => wp_pure ⟨world, rfl⟩

/-- Attaching the sources of an event adds what is attached to the list, and
changes nothing else. -/
theorem attachSources_observed
    {plugins : Plugins L τ}
    {inv : Point L → ServiceImpl (Observed τ) → Prop}
    (sources : List EventSourceConfig)
    (attached : List EventSourceBinding)
    {service : ServiceImpl (Observed τ)}
    (atPoint : ∀ point gained world, inv (.plugin point)
      { service with world := service.world.gain gained world }) :
    wp inv (attachSources (observe plugins) sources attached)
      (fun result after => ∃ gained world,
        after = { service with world := service.world.gain gained world } ∧
          match result with
          | .ok bindings => bindings = attached ++ gained ∧
              gained.length = sources.length
          | .error _ => True) service := by
  induction sources generalizing attached service with
  | nil => exact wp_pure ⟨[], service.world.world, by simp, by simp⟩
  | cons source rest inductionHypothesis =>
      rw [attachSources_cons]
      apply wp_seq (attachSource_observed source fun point => atPoint point [])
      intro result after known
      cases result with
      | error failure =>
          obtain ⟨world, rfl⟩ := known
          exact wp_pure ⟨[], world, rfl, trivial⟩
      | ok binding =>
          obtain ⟨between, rfl⟩ := known
          refine wp_mono (inductionHypothesis _ ?_) (fun _ _ kept => kept) ?_
          · intro point gained world
            exact Observed.gain_gain .. ▸ atPoint point (binding :: gained) world
          · rintro result _ ⟨gained, world, rfl, outcome⟩
            refine ⟨binding :: gained, world, by rw [Observed.gain_gain]; rfl, ?_⟩
            cases result with
            | error failure => trivial
            | ok bindings => simpa using outcome

/-- `addTarget` attaches a target and keeps it, or changes nothing. -/
theorem addTarget_observed
    {plugins : Plugins L τ}
    {inv : Point L → ServiceImpl (Observed τ) → Prop}
    (config : TargetConfig)
    {service : ServiceImpl (Observed τ)}
    (atPoint : ∀ point world, inv (.plugin point)
      { service with world := { service.world with world := world } }) :
    wp inv (addTarget (observe plugins) config)
      (fun rc after => match rc with
        | .error _ => ∃ world, after =
            { service with world := { service.world with world := world } }
        | .ok _ => ∃ target world, after =
            { service with
              targets := service.targets ++ [target]
              world := Observed.note (.attached (.output target))
                { service.world with world := world } }) service := by
  refine wp_bind (wp_zoom (wp_observing atPoint fun found world => ?_))
  cases found with
  | error failure => exact wp_pure ⟨world, rfl⟩
  | ok ref =>
      refine wp_bind (wp_zoom (wp_observeAttach atPoint ?_ ?_))
      · exact fun error later => wp_pure ⟨later, rfl⟩
      · exact fun userdata later =>
          wp_bind (wp_modify (wp_pure ⟨⟨ref, userdata⟩, later, rfl⟩))

end Service
end EvCollect
