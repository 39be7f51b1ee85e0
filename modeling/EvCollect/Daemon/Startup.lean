import EvCollect.Daemon.Main

/-!
# The plugins of the daemon from its start to its end

Whatever the libraries do, and whatever fails, the daemon calls functions of
libraries that are loaded only. It rests on two things: the setup stops at the
first load that fails, and libraries of loads that have succeeded are never
closed.
-/

namespace EvCollect
namespace Daemon

open Config Process Service Logfile Plugin

/-! ## Plugins beside the log reader -/

section Beside

variable {L ρ : Type}
variable {holds : ρ → Prop}

theorem holds_elsewhere
    {process : Proc Entry L ρ α}
    (kept : Holds holds process) :
    Holds (fun world : Reader × ρ => holds world.2) (elsewhere process) :=
  fun world before => wp_onSecond (fun _ => True) (kept world.2 before)
    (fun _ _ _ => trivial) trivial (fun _ _ _ held _ => held)
    fun _ _ _ held _ => held

theorem holds_onReader
    [World ρ]
    (reacted : ∀ entry world, holds world → holds (World.react entry world))
    (process : ReaderProc α) :
    Holds (fun world : Reader × ρ => holds world.2)
      (onReader process : Proc Entry (LogPoint ⊕ L) (Reader × ρ) α) :=
  fun world before => wp_onFirst holds (wp_trivial process world.1) reacted
    before (fun _ _ _ _ held => ⟨trivial, held⟩) fun _ _ _ _ held => held

/-- The log reader preserves what is known of the other plugins. -/
theorem preserved_withLogfile
    [World ρ]
    {others : Plugins L ρ}
    (setup : PluginSetup)
    (preserved : Preserved others holds) :
    Preserved (withLogfile setup others)
      (fun world : Reader × ρ => holds world.2) where
  react := fun entry world => preserved.react entry world.2
  getSourcePlugin := fun name => Preserves.composes.ite (Preserves.pure _)
    (Preserves.bind (holds_elsewhere (preserved.getSourcePlugin name))
      fun _ => Preserves.pure _)
  getOutputPlugin := fun name => holds_elsewhere (preserved.getOutputPlugin name)
  attachSource := by
    rintro (_ | ref) config
    · exact holds_onReader preserved.react _
    · exact holds_elsewhere (preserved.attachSource ref config)
  detachSource := by
    rintro (_ | ref) userdata
    · exact holds_onReader preserved.react _
    · exact holds_elsewhere (preserved.detachSource ref userdata)
  getNextEvent := by
    rintro (_ | ref) userdata buffer
    · exact holds_onReader preserved.react _
    · exact holds_elsewhere (preserved.getNextEvent ref userdata buffer)
  hasPendingEvent := by
    rintro (_ | ref) userdata
    · exact holds_onReader preserved.react _
    · exact holds_elsewhere (preserved.hasPendingEvent ref userdata)
  attachOutput := fun ref config =>
    holds_elsewhere (preserved.attachOutput ref config)
  detachOutput := fun ref userdata =>
    holds_elsewhere (preserved.detachOutput ref userdata)
  emitEvent := fun ref userdata event =>
    holds_elsewhere (preserved.emitEvent ref userdata event)

end Beside

/-! ## Setup -/

/-- A loop that ends at the first failure. -/
theorem wp_whileSuccess
    {inv : L → σ → Prop}
    {call : β → Proc ε L σ ReturnCode}
    (holds : ReturnCode → σ → Prop)
    (each : ∀ item state, holds ReturnCode.success state →
      wp inv (call item) holds state)
    (items : List β)
    (rc : ReturnCode)
    {state : σ}
    (before : holds rc state) :
    wp inv (whileSuccess call items rc) holds state := by
  induction items generalizing rc state with
  | nil => exact wp_pure before
  | cons item rest inductionHypothesis =>
      rw [whileSuccess]
      cases rc with
      | error failure => exact wp_pure before
      | ok _ =>
          exact wp_seq (each item state before) fun rc after kept =>
            inductionHypothesis rc kept

/-- The plugins of libraries of a service. -/
abbrev runtimeOf (service : ServiceImpl (Reader × Runtime)) : Runtime :=
  service.world.2

/-- A function that deals with the plugins of libraries. -/
theorem wp_onRuntime
    {inv : Point (LogPoint ⊕ LibraryPoint) →
      ServiceImpl (Reader × Runtime) → Prop}
    {post : α → ServiceImpl (Reader × Runtime) → Prop}
    {runtimeInv : LibraryPoint → Runtime → Prop}
    {runtimePost : α → Runtime → Prop}
    {process : LibraryProc α}
    {service : ServiceImpl (Reader × Runtime)}
    (valid : wp runtimeInv process runtimePost (runtimeOf service))
    (atPoint : ∀ point reader runtime, runtimeInv point runtime →
      inv (.plugin (.inr point)) { service with world := (reader, runtime) })
    (atEnd : ∀ value reader runtime, runtimePost value runtime →
      post value { service with world := (reader, runtime) }) :
    wp inv (onRuntime process) post service :=
  wp_zoom (wp_onSecond (fun _ => True) valid (fun _ _ _ => trivial) trivial
    (fun point part other kept _ => atPoint point other part kept)
    fun value part other kept _ => atEnd value other part kept)

/-- A service to which nothing has been attached. -/
structure Unbound (service : ServiceImpl (Reader × Runtime)) : Prop where
  starting : (runtimeOf service).Starting
  noEvents : service.eventBindings = []
  noTargets : service.targets = []

/-- The plugins of a service can be called, or nothing is attached to it. -/
def Usable (service : ServiceImpl (Reader × Runtime)) : Prop :=
  (runtimeOf service).Working ∨ Unbound service

/-- A service that has been set up up to here. -/
def Prepared
    (rc : ReturnCode)
    (service : ServiceImpl (Reader × Runtime)) : Prop :=
  Usable service ∧
    (ReturnCode.isSuccess rc = true → (runtimeOf service).Working)

/-- Everywhere in a process of the service the calls have been safe. -/
abbrev SafelyServed
    (process : ServiceProc (LogPoint ⊕ LibraryPoint) (Reader × Runtime) α)
    (post : α → ServiceImpl (Reader × Runtime) → Prop)
    (service : ServiceImpl (Reader × Runtime)) : Prop :=
  wp (fun _ state => (runtimeOf state).Safe) process post service

variable (machine : Machine)
variable {service : ServiceImpl (Reader × Runtime)}

theorem Usable.safe (usable : Usable service) : (runtimeOf service).Safe := by
  rcases usable with working | unbound
  · exact working.safe
  · exact unbound.starting.safe

/-- A process that preserves that plugins can be called is safe. -/
theorem safelyServed_of_holds
    {process : ServiceProc (LogPoint ⊕ LibraryPoint) (Reader × Runtime) α}
    (kept : Holds (fun service => (runtimeOf service).Working) process)
    (working : (runtimeOf service).Working) :
    SafelyServed process (fun _ after => (runtimeOf after).Working) service :=
  wp_mono (kept service working) (fun _ _ held => held.2.safe)
    fun _ _ held => held

theorem servicePlugins_working (spoolDir : Bytes) :
    Preserved (servicePlugins machine spoolDir)
      (fun world => world.2.Working) :=
  preserved_withLogfile _ dynamicPlugins_works

/-- The loads leave nothing attached, and plugins that can be called unless one
has failed. -/
theorem loads_prepared
    (pluginDir : Bytes)
    (plugins : List Bytes)
    (unbound : Unbound service)
    (mapped : (runtimeOf service).Mapped) :
    SafelyServed
      (whileSuccess
        (fun plugin => onRuntime (loadPlugin machine.linker pluginDir plugin))
        plugins ReturnCode.success) Prepared service := by
  have prepared : ∀ rc state, Unbound state →
      (ReturnCode.isSuccess rc = true → (runtimeOf state).Mapped) →
      Prepared rc state := fun rc state unbound mapped =>
    ⟨.inr unbound, fun success =>
      ⟨mapped success, unbound.starting.safe, unbound.starting.alive⟩⟩
  refine wp_mono (wp_whileSuccess (fun rc state => Unbound state ∧
    (ReturnCode.isSuccess rc = true → (runtimeOf state).Mapped)) ?_ plugins
    ReturnCode.success ⟨unbound, fun _ => mapped⟩) (fun _ _ held => held)
    fun rc state held => prepared rc state held.1 held.2
  rintro plugin state ⟨still, stillMapped⟩
  refine wp_onRuntime (loadPlugin_ready still.starting (stillMapped rfl)
    pluginDir plugin) (fun _ _ _ safe => safe) fun rc reader runtime ready => ?_
  exact ⟨⟨ready.1, still.noEvents, still.noTargets⟩, ready.2⟩

/-- So do the calls that attach sources and targets. -/
theorem attaches_prepared
    {call : β → ServiceProc (LogPoint ⊕ LibraryPoint) (Reader × Runtime)
      ReturnCode}
    (kept : ∀ item,
      Holds (fun service => (runtimeOf service).Working) (call item))
    (items : List β)
    (rc : ReturnCode)
    (prepared : Prepared rc service) :
    SafelyServed (whileSuccess call items rc) Prepared service := by
  refine wp_whileSuccess Prepared (fun item state held => ?_) items rc prepared
  exact wp_mono (safelyServed_of_holds (kept item) (held.2 rfl))
    (fun _ _ safe => safe) fun _ _ working => ⟨.inl working, fun _ => working⟩

theorem setUpService_prepared
    (conf : DaemonConfig)
    (unbound : Unbound service)
    (mapped : (runtimeOf service).Mapped) :
    SafelyServed (setUpService machine conf) Prepared service := by
  have working := servicePlugins_working machine conf.spoolDir
  refine wp_seq (loads_prepared machine _ _ unbound mapped)
    fun rc loaded prepared => ?_
  refine wp_seq (attaches_prepared (fun config => working.addEvent config) _ rc
    prepared) fun rc attached prepared => ?_
  exact attaches_prepared (fun config =>
    working.attachCalls.addTarget config) _ rc prepared

/-! ## Teardown -/

/-- What the destructor of the plugin map needs. -/
structure Closing (runtime : Runtime) : Prop where
  safe : runtime.Safe
  usable : runtime.Mapped ∨ runtime.Fresh

theorem Closing.dropContext
    {runtime : Runtime}
    (closing : Closing runtime) :
    Closing { runtime with contextAlive := false } :=
  ⟨closing.safe, closing.usable.imp_left fun mapped =>
    ⟨mapped.sources, mapped.outputs⟩⟩

/-- Nothing is detached where nothing is attached. -/
theorem destroy_closing
    (spoolDir : Bytes)
    (usable : Usable service) :
    SafelyServed (destroy (servicePlugins machine spoolDir))
      (fun _ after => Closing (runtimeOf after)) service := by
  rcases usable with working | unbound
  · refine wp_mono (safelyServed_of_holds
      (servicePlugins_working machine spoolDir).attachCalls.destroy working)
      (fun _ _ safe => safe) fun _ after kept => ?_
    exact ⟨kept.safe, .inl kept.mapped⟩
  · refine wp_bind (wp_get ?_)
    rw [unbound.noEvents, unbound.noTargets]
    exact wp_pure ⟨unbound.starting.safe, .inr unbound.starting.fresh⟩

theorem destroyService_safe
    (spoolDir : Bytes)
    (usable : Usable service) :
    SafelyServed (destroyService machine spoolDir)
      (fun _ after => (runtimeOf after).Safe) service := by
  refine wp_seq (destroy_closing machine spoolDir usable)
    fun _ detached closing => ?_
  have dropped : SafelyServed (onRuntime (Proc.modify fun runtime =>
      { runtime with contextAlive := false }))
      (fun _ after => Closing (runtimeOf after)) detached :=
    wp_onRuntime (wp_modify closing.dropContext)
      (fun _ _ _ (safe : Runtime.Safe _) => safe) fun _ _ _ held => held
  refine wp_seq dropped fun _ closed closing => ?_
  exact wp_onRuntime (destroyMap_safe closing.safe closing.usable)
    (fun _ _ _ safe => safe) fun _ _ _ safe => safe

/-! ## The program -/

/-- What is known of the plugins everywhere in a process of `main` that is not
one of the service. -/
abbrev HoldsInMain
    (holds : ServiceImpl (Reader × Runtime) → Prop)
    (process : MainProc α) : Prop :=
  Preserves (fun _ => True) (fun main => holds main.service) process

/-- An assertion about the service that the environment preserves. -/
def Stable (holds : ServiceImpl (Reader × Runtime) → Prop) : Prop :=
  ∀ entry service, holds service → holds (react entry service)

theorem holds_daemonize
    {holds : ServiceImpl (Reader × Runtime) → Prop}
    (stable : Stable holds) : HoldsInMain holds daemonize :=
  Preserves.bind (Preserves.call trivial fun entry main before =>
    stable entry main.service before) fun _ =>
      Preserves.composes.ite (Preserves.pure _) (Preserves.pure _)

theorem holds_pidfileCall
    {holds : ServiceImpl (Reader × Runtime) → Prop}
    (stable : Stable holds)
    (point : MainPoint)
    (answer : Entry → α × PidFile.Action) :
    HoldsInMain holds (pidfileCall point answer) :=
  Preserves.call trivial fun entry main before =>
    stable entry main.service before

theorem holds_failPidfile
    {holds : ServiceImpl (Reader × Runtime) → Prop}
    (text : Bytes) : HoldsInMain holds (failPidfile text) :=
  Preserves.bind (Preserves.modify fun _ before => before) fun _ =>
    Preserves.pure _

theorem holds_writePidfile
    {holds : ServiceImpl (Reader × Runtime) → Prop}
    (stable : Stable holds)
    (path : Bytes) : HoldsInMain holds (writePidfile machine path) := by
  unfold writePidfile
  refine Preserves.bind (holds_pidfileCall stable _ _) fun opened => ?_
  refine Preserves.bind (Preserves.modify fun _ before => before) fun _ => ?_
  refine Preserves.composes.ite (Preserves.pure _) ?_
  refine Preserves.bind (holds_pidfileCall stable _ _) fun granted => ?_
  refine Preserves.composes.ite (holds_failPidfile _) ?_
  refine Preserves.bind (holds_pidfileCall stable _ _) fun truncated => ?_
  refine Preserves.composes.ite (holds_failPidfile _) ?_
  refine Preserves.bind (holds_pidfileCall stable _ _) fun count => ?_
  exact Preserves.composes.ite (holds_failPidfile _) (Preserves.pure _)

theorem holds_removePidfile
    {holds : ServiceImpl (Reader × Runtime) → Prop}
    (stable : Stable holds)
    (path : Bytes) : HoldsInMain holds (removePidfile machine path) := by
  refine Preserves.bind Preserves.get fun main => Preserves.composes.ite ?_
    (Preserves.pure _)
  refine Preserves.bind (holds_pidfileCall stable _ _) fun _ => ?_
  exact Preserves.bind (holds_pidfileCall stable _ _) fun _ =>
    holds_pidfileCall stable _ _

/-- Everywhere in a process of `main` the calls have been safe. -/
abbrev SafelyRun
    (process : MainProc α)
    (post : α → Main → Prop)
    (main : Main) : Prop :=
  wp (fun _ state => (runtimeOf state.service).Safe) process post main

theorem safelyRun_onService
    {process : ServiceProc (LogPoint ⊕ LibraryPoint) (Reader × Runtime) α}
    {post : α → ServiceImpl (Reader × Runtime) → Prop}
    {main : Main}
    (served : SafelyServed process post main.service) :
    SafelyRun (onService process) (fun value after => post value after.service)
      main :=
  wp_zoom served

/-- A step of `main` that is made unless something has failed. -/
theorem safelyRun_ifSuccess
    {process : MainProc ReturnCode}
    {rc : ReturnCode}
    {main : Main}
    (kept : HoldsInMain (fun service => (runtimeOf service).Working) process)
    (prepared : Prepared rc main.service) :
    SafelyRun (ifSuccess rc process)
      (fun rc after => Prepared rc after.service) main := by
  cases rc with
  | error failure => exact wp_pure prepared
  | ok _ =>
      exact wp_mono (kept main (prepared.2 rfl)) (fun _ _ held => held.2.safe)
        fun _ _ working => ⟨.inl working, fun _ => working⟩

theorem serveConfig_safe
    (flags : Flags)
    (conf : DaemonConfig)
    {main : Main}
    (noEvents : main.service.eventBindings = [])
    (noTargets : main.service.targets = []) :
    SafelyRun (serveConfig machine flags conf)
      (fun _ after => (runtimeOf after.service).Safe) main := by
  have stable : Stable fun service => (runtimeOf service).Working :=
    fun _ _ working => working
  have created : SafelyServed (createService conf.spoolDir)
      (fun _ after => Unbound after ∧ (runtimeOf after).Mapped) main.service := by
    refine wp_modify ⟨⟨⟨?_, rfl, ?_⟩, noEvents, noTargets⟩, ?_⟩
    · exact List.forall_mem_nil _
    · exact fun name binding found => absurd found (by simp [AList.lookup_empty])
    · exact ⟨List.forall_mem_nil _, List.forall_mem_nil _⟩
  refine wp_seq (safelyRun_onService created) ?_
  rintro _ fresh ⟨unbound, mapped⟩
  refine wp_seq (safelyRun_onService
    (setUpService_prepared machine conf unbound mapped)) fun rc set prepared => ?_
  refine wp_seq (safelyRun_ifSuccess (Preserves.composes.ite
    (holds_daemonize stable) (Preserves.pure _)) prepared)
    fun rc daemon prepared => ?_
  refine wp_seq (safelyRun_ifSuccess (Preserves.composes.ite
    (Preserves.pure _) (holds_writePidfile machine stable _)) prepared)
    fun rc named prepared => ?_
  have served : HoldsInMain (fun service => (runtimeOf service).Working)
      (onService (run (servicePlugins machine conf.spoolDir))) :=
    fun main working => wp_zoom ((servicePlugins_working machine
      conf.spoolDir).loopCalls.run main.service working)
  refine wp_seq (safelyRun_ifSuccess served prepared) fun rc ended prepared => ?_
  refine wp_seq (safelyRun_onService
    (destroyService_safe machine conf.spoolDir prepared.1)) fun _ gone safe => ?_
  have removed := holds_removePidfile machine
    (fun _ _ safe => safe : Stable fun service => (runtimeOf service).Safe)
    flags.pidfile gone safe
  exact wp_seq (wp_mono removed (fun _ _ held => held.2) fun _ _ held => held)
    fun _ _ safe => wp_pure safe

/-- The variables of `main` before it creates a service. -/
def Main.start (disk : Disk) : Main where
  service := boot disk { pluginMap := { spoolDir := [] } }

/-- Wherever the program can be observed, and at its end, all calls of plugin
functions have been calls into libraries that were loaded, and all but those of
`pluginFree` of a registered source plugin were given a context that was still
there. -/
theorem main_calls_safe (flags : Flags) (disk : Disk) :
    (∀ point state, Reaches (main machine flags) (Main.start disk) point state →
      (runtimeOf state.service).Safe) ∧
      ∀ code state, Ends (main machine flags) (Main.start disk) code state →
        (runtimeOf state.service).Safe := by
  have start : (runtimeOf (Main.start disk).service).Safe :=
    List.forall_mem_nil _
  have valid : SafelyRun (main machine flags)
      (fun _ after => (runtimeOf after.service).Safe) (Main.start disk) := by
    unfold main loadConfig
    dsimp only [ReturnCode.success]
    split
    · exact wp_pure start
    · split
      · exact wp_pure start
      · split
        · exact wp_pure start
        · exact serveConfig_safe machine flags _ rfl rfl
  exact ⟨fun _ _ reached => valid.reaches reached,
    fun _ _ ended => valid.ends ended⟩

end Daemon
end EvCollect
