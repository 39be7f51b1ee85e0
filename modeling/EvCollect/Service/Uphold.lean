import EvCollect.Process.Preserve
import EvCollect.Service.Carry
import EvCollect.Service.Foreign

/-!
# Assertions that plugins uphold

An assertion about the targets, the events that they have been given, and the
world of the plugins. If every function of the plugins keeps it, taking into
account what is attached and emitted, it holds from the setup of a service to
its teardown.
-/

namespace EvCollect
namespace Service

open Process ServiceImpl Schedule

variable {L τ : Type} [World τ]

/-- What the functions of the plugins have to keep. Sources are attached with
properties that are admitted only. -/
structure Upheld
    (plugins : Plugins L τ)
    (admits : PropertyList → Prop)
    (holds : List TargetBinding → List (Nat × EventData) → τ → Prop) :
    Prop where
  react : ∀ targets offered entry world, holds targets offered world →
    holds targets offered (World.react entry world)
  getSourcePlugin : ∀ name targets offered,
    Keeps (holds targets offered) (plugins.getSourcePlugin name)
  getOutputPlugin : ∀ name targets offered,
    Keeps (holds targets offered) (plugins.getOutputPlugin name)
  attachSource : ∀ ref config targets offered, admits config →
    Keeps (holds targets offered) ((plugins.source ref).pluginAttach config)
  detachSource : ∀ ref userdata targets offered,
    Keeps (holds targets offered) ((plugins.source ref).pluginDetach userdata)
  /-- The event buffer is empty. -/
  getNextEvent : ∀ ref userdata targets offered,
    Keeps (holds targets offered)
      ((plugins.source ref).pluginGetNextEvent userdata [])
  hasPendingEvent : ∀ ref userdata targets offered,
    Keeps (holds targets offered)
      ((plugins.source ref).pluginHasPendingEvent userdata)
  /-- Targets are attached before any event is emitted. -/
  attachOutput : ∀ ref config targets world, holds targets [] world →
    wp (fun _ _ => True) ((plugins.output ref).pluginAttach config)
      (fun result after => match result with
        | .error _ => holds targets [] after
        | .ok userdata => holds (targets ++ [⟨ref, userdata⟩]) [] after) world
  emitEvent : ∀ ref userdata target event targets offered world,
    holds targets offered world →
    wp (fun _ _ => True) ((plugins.output ref).pluginEmitEvent userdata event)
      (fun _ after => holds targets (offered ++ [(target, event)]) after) world

namespace Upheld

variable {plugins : Plugins L τ}
variable {admits : PropertyList → Prop}
variable {holds : List TargetBinding → List (Nat × EventData) → τ → Prop}
variable {service : ServiceImpl τ}

/-- The assertion about a service. -/
def Of
    (holds : List TargetBinding → List (Nat × EventData) → τ → Prop)
    (service : ServiceImpl τ) : Prop :=
  holds service.targets service.offered service.world

omit [World τ] in
/-- A plugin function that keeps the assertion is called. -/
theorem call
    {process : Proc Entry L τ α}
    (keeps : Keeps (holds service.targets service.offered) process)
    (before : Of holds service) :
    wp (fun _ _ => True) (onWorld process)
      (fun _ after => ∃ world, after = { service with world := world } ∧
        Of holds after) service :=
  wp_zoom (wp_mono (keeps service.world before) (fun _ _ _ => trivial)
    fun _ world kept => ⟨world, rfl, kept⟩)

/-! ## Setup -/

theorem attachSources
    (upheld : Upheld plugins admits holds)
    (sources : List EventSourceConfig)
    (attached : List EventSourceBinding)
    (admitted : ∀ source ∈ sources, admits source.properties)
    (before : Of holds service) :
    wp (fun _ _ => True) (attachSources plugins sources attached)
      (fun _ after => ∃ world, after = { service with world := world } ∧
        Of holds after) service := by
  induction sources generalizing attached service with
  | nil => exact wp_pure ⟨_, rfl, before⟩
  | cons source rest inductionHypothesis =>
      apply wp_seq (call (upheld.getSourcePlugin _ _ _) before)
      rintro found _ ⟨world, rfl, kept⟩
      cases found with
      | error failure => exact wp_pure ⟨_, rfl, kept⟩
      | ok ref =>
          have admitted' := admitted source List.mem_cons_self
          apply wp_seq (call (upheld.attachSource _ _ _ _ admitted') kept)
          rintro handle _ ⟨later, rfl, held⟩
          cases handle with
          | error failure => exact wp_pure ⟨_, rfl, held⟩
          | ok userdata =>
              apply wp_mono (inductionHypothesis _ (fun other present =>
                admitted other (List.mem_cons_of_mem _ present)) held)
                (fun _ _ _ => trivial)
              rintro _ _ ⟨last, rfl, after⟩
              exact ⟨last, rfl, after⟩

theorem addEvent
    (upheld : Upheld plugins admits holds)
    (config : EventConfig)
    (admitted : ∀ source ∈ config.sources, admits source.properties)
    (before : Of holds service) :
    wp (fun _ _ => True) (addEvent plugins config)
      (fun _ after => after.offered = service.offered ∧ Of holds after)
      service := by
  apply wp_seq (upheld.attachSources config.sources [] admitted before)
  rintro result _ ⟨world, rfl, kept⟩
  cases result with
  | error failure => exact wp_pure ⟨rfl, kept⟩
  | ok sources =>
      refine wp_bind (wp_call trivial fun entry => ?_)
      exact wp_bind (wp_modify (wp_pure
        ⟨rfl, upheld.react _ _ entry world kept⟩))

theorem addTarget
    (upheld : Upheld plugins admits holds)
    (config : TargetConfig)
    (none : service.offered = [])
    (before : Of holds service) :
    wp (fun _ _ => True) (addTarget plugins config)
      (fun _ after => after.offered = [] ∧ Of holds after) service := by
  apply wp_seq (call (upheld.getOutputPlugin _ _ _) before)
  rintro found _ ⟨world, rfl, kept⟩
  cases found with
  | error failure => exact wp_pure ⟨none, kept⟩
  | ok ref =>
      have started : holds service.targets [] world := none ▸ kept
      refine wp_bind (wp_zoom (wp_mono
        (upheld.attachOutput ref config.properties service.targets world started)
        (fun _ _ _ => trivial) ?_))
      intro handle after held
      cases handle with
      | error failure =>
          refine wp_pure ⟨none, ?_⟩
          change holds service.targets service.offered after
          rw [none]
          exact held
      | ok userdata =>
          refine wp_bind (wp_modify (wp_pure ⟨none, ?_⟩))
          change holds (service.targets ++ [⟨ref, userdata⟩]) service.offered
            after
          rw [none]
          exact held

/-- The assertion holds when the service has been set up. -/
theorem setUp
    (upheld : Upheld plugins admits holds)
    (calls : List Setup)
    (admitted : ∀ config, .addEvent config ∈ calls →
      ∀ source ∈ config.sources, admits source.properties)
    (none : service.offered = [])
    (before : Of holds service) :
    wp (fun _ _ => True) (setUp plugins calls)
      (fun _ after => after.offered = [] ∧ Of holds after) service := by
  refine wp_forM (fun call present state kept => ?_) (And.intro none before)
  cases call with
  | addEvent config =>
      apply wp_seq (upheld.addEvent config (admitted config present) kept.2)
      rintro _ after ⟨same, held⟩
      exact wp_pure ⟨same.trans kept.1, held⟩
  | addTarget config =>
      exact wp_seq (upheld.addTarget config kept.1 kept.2)
        fun _ _ held => wp_pure held

/-! ## Processing -/

/-- A target is given an event, which is on record when the call is over. -/
theorem offer
    (upheld : Upheld plugins admits holds)
    (target : TargetBinding)
    (position : Nat)
    (event : EventData) :
    Maintains (fun _ _ => True) (Of holds) (do
      let rc ← onWorld ((plugins.output target.plugin).pluginEmitEvent
        target.userdata event)
      Proc.modify (logOffer position event)
      return rc) := by
  intro service before
  refine wp_bind (wp_zoom (wp_mono
    (upheld.emitEvent _ _ position event _ _ _ before)
    (fun _ _ _ => trivial) ?_))
  intro rc after held
  exact wp_bind (wp_modify (wp_pure held))

theorem processCalls
    (upheld : Upheld plugins admits holds) :
    ProcessCalls plugins
      (Maintains (L := Point L) (fun _ _ => True) (Of holds)) where
  toComposes := Maintains.composes
  wallClock := Maintains.call (fun _ _ => trivial) fun entry _ before =>
    upheld.react _ _ entry _ before
  getNextEvent := fun _ _ _ before => wp_mono
    (call (upheld.getNextEvent _ _ _ _) before) (fun _ _ _ => trivial)
    fun _ _ ⟨_, _, kept⟩ => kept
  hasPendingEvent := fun _ _ _ before => wp_mono
    (call (upheld.hasPendingEvent _ _ _ _) before) (fun _ _ _ => trivial)
    fun _ _ ⟨_, _, kept⟩ => kept
  emitEvent := upheld.offer
  round := Maintains.iterate (fun _ _ => trivial) fun entry _ before =>
    upheld.react _ _ entry _ before

theorem processEvent
    (upheld : Upheld plugins admits holds)
    (job : Nat)
    (before : Of holds service) :
    wp (fun _ _ => True) (processEvent plugins job)
      (fun _ after => Of holds after) service :=
  upheld.processCalls.processEvent job service before

/-- The main loop carries the assertion. -/
theorem carried (upheld : Upheld plugins admits holds) :
    Carried plugins (fun _ _ => True) (Of holds) where
  atPoint := fun _ _ _ _ => trivial
  react := fun entry _ kept => upheld.react _ _ entry _ kept
  clock := fun _ _ kept => kept
  schedule := fun _ _ _ kept => kept
  processEvent := fun job _ kept => upheld.processEvent job kept

/-! ## Life of a service -/

theorem detach
    {targets : List TargetBinding}
    (upheld : Upheld plugins admits holds)
    (source : EventSourceBinding)
    (state : ServiceImpl τ)
    (held : state.targets = targets ∧ Of holds state) :
    wp (fun _ _ => True)
      (onWorld ((plugins.source source.plugin).pluginDetach source.userdata))
      (fun _ after => after.targets = targets ∧ Of holds after) state := by
  apply wp_mono (call (upheld.detachSource _ _ _ _) held.2)
    (fun _ _ _ => trivial)
  rintro _ _ ⟨world, rfl, kept⟩
  exact ⟨held.1, kept⟩

/-- From the setup of a service until its targets are detached. -/
theorem serve
    {post : ServiceImpl τ → Prop}
    (upheld : Upheld plugins admits holds)
    (calls : List Setup)
    (admitted : ∀ config, .addEvent config ∈ calls →
      ∀ source ∈ config.sources, admits source.properties)
    (none : service.offered = [])
    (before : Of holds service)
    (detached : ∀ state, Of holds state →
      wp (fun _ _ => True)
        (state.targets.forM fun target =>
          onWorld ((plugins.output target.plugin).pluginDetach
            target.userdata))
        (fun _ after => post after) state) :
    wp (fun _ _ => True) (serve plugins calls) (fun _ after => post after)
      service := by
  apply wp_seq (upheld.setUp calls admitted none before)
  rintro _ ready ⟨_, prepared⟩
  refine wp_seq (upheld.carried.run prepared) fun rc stopped kept => ?_
  have ended : wp (fun _ _ => True) (destroy plugins)
      (fun _ after => post after) stopped := by
    refine wp_bind (wp_get ?_)
    apply wp_seq (wp_forM (fun binding _ state held =>
      wp_forM (fun source _ => upheld.detach source) held)
      (And.intro rfl kept))
    rintro _ after ⟨same, held⟩
    rw [← same]
    exact detached after held
  exact wp_seq ended fun _ _ holds => wp_pure holds

end Upheld

end Service
end EvCollect
