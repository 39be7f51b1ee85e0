import EvCollect.Plugin.Loading

/-!
# Calls into libraries that are loaded

As long as no load has failed, every plugin that is registered is in a library
that is loaded, and so is every function that is called. A load that fails can
leave plugins of a library behind that is closed, but by then no plugin has been
initialized.
-/

namespace EvCollect
namespace Plugin

open Process Service

/-- A call is the one of `pluginFree` of a registered plugin. -/
def Runtime.Frees (runtime : Runtime) (call : LibraryCall) : Prop :=
  call.role = .pluginFree ∧ ∃ plugin ∈ runtime.sourcePlugins,
    plugin.library = call.library ∧ plugin.freeFn = some call.function

/-- All calls were calls into libraries that were loaded, and all but those of
`pluginFree` were given a context that was there. -/
def Runtime.Safe (runtime : Runtime) : Prop :=
  ∀ call ∈ runtime.calls,
    call.mapped = true ∧ (call.context = true ∨ runtime.Frees call)

/-- The libraries of all plugins are loaded. -/
structure Runtime.Mapped (runtime : Runtime) : Prop where
  sources : ∀ plugin ∈ runtime.sourcePlugins,
    0 < runtime.handles plugin.library
  outputs : ∀ plugin ∈ runtime.outputPlugins,
    0 < runtime.handles plugin.library

/-- Plugins can be called. -/
structure Runtime.Working (runtime : Runtime) : Prop where
  mapped : runtime.Mapped
  safe : runtime.Safe
  alive : runtime.contextAlive = true

/-- Plugins of a library can be called. -/
structure Runtime.Held (library : Library) (runtime : Runtime) : Prop where
  working : runtime.Working
  loaded : 0 < runtime.handles library

variable {linker : Linker}
variable {runtime : Runtime}
variable {library : Library}

namespace Runtime

/-- More plugins do not make a call unsafe. -/
theorem Frees.append
    {more : List DynamicSourcePlugin}
    {after : Runtime}
    {call : LibraryCall}
    (frees : runtime.Frees call)
    (sources : after.sourcePlugins = runtime.sourcePlugins ++ more) :
    after.Frees call := by
  obtain ⟨isFree, plugin, present, same⟩ := frees
  exact ⟨isFree, plugin, sources ▸ List.mem_append_left _ present, same⟩

theorem Safe.gains
    {after : Runtime}
    (safe : runtime.Safe)
    (gains : Gains library runtime after) : after.Safe := by
  obtain ⟨more, sources, -⟩ := gains.sources
  intro call present
  rw [gains.calls] at present
  obtain ⟨mapped, context⟩ := safe call present
  exact ⟨mapped, context.imp_right fun frees => frees.append sources⟩

theorem Mapped.gains
    {after : Runtime}
    (mapped : runtime.Mapped)
    (gains : Gains library runtime after)
    (loaded : 0 < runtime.handles library) : after.Mapped := by
  obtain ⟨more, sources, own⟩ := gains.sources
  obtain ⟨more', outputs, own'⟩ := gains.outputs
  constructor
  · rw [sources, gains.handles]
    exact List.forall_mem_append.mpr ⟨mapped.sources,
      fun plugin present => own plugin present ▸ loaded⟩
  · rw [outputs, gains.handles]
    exact List.forall_mem_append.mpr ⟨mapped.outputs,
      fun plugin present => own' plugin present ▸ loaded⟩

/-- A call into a library that is loaded is noted. -/
theorem Safe.noteCall
    {role : Role}
    {function : Address}
    (safe : runtime.Safe)
    (loaded : 0 < runtime.handles library)
    (allowed : runtime.contextAlive = true ∨
      role = .pluginFree ∧ ∃ plugin ∈ runtime.sourcePlugins,
        plugin.library = library ∧ plugin.freeFn = some function) :
    (runtime.noteCall role library function).Safe := by
  refine List.forall_mem_append.mpr ⟨safe, List.forall_mem_singleton.mpr ?_⟩
  exact ⟨decide_eq_true loaded, allowed⟩

end Runtime

/-- What is known behind a call of a function. -/
structure Called
    (before : Runtime)
    (after : Runtime) : Prop where
  safe : after.Safe
  mapped : before.Mapped → after.Mapped
  fresh : before.Fresh → after.Fresh
  handles : after.handles = before.handles
  contextAlive : after.contextAlive = before.contextAlive
  sources : before.sourcePlugins <+: after.sourcePlugins

/-- A function of a library that is loaded is called, and calls back. -/
theorem called_foldl
    (role : Role)
    (function : Address)
    (safe : runtime.Safe)
    (loaded : 0 < runtime.handles library)
    (allowed : runtime.contextAlive = true ∨
      role = .pluginFree ∧ ∃ plugin ∈ runtime.sourcePlugins,
        plugin.library = library ∧ plugin.freeFn = some function)
    (calls : List ApiCall) :
    Called runtime (calls.foldl (Runtime.callBack library)
      (runtime.noteCall role library function)) := by
  have gains := Runtime.gains_foldl library calls
    (runtime.noteCall role library function)
  refine ⟨(safe.noteCall loaded allowed).gains gains, fun mapped => ?_,
    gains.fresh, gains.handles, gains.contextAlive, ?_⟩
  · have noted : (runtime.noteCall role library function).Mapped :=
      ⟨mapped.sources, mapped.outputs⟩
    exact noted.gains gains loaded
  · obtain ⟨more, sources, -⟩ := gains.sources
    exact ⟨more, sources.symm⟩

/-! ## Plugins that work -/

/-- Plugins can be called everywhere in a process. -/
abbrev Works (process : LibraryProc α) : Prop :=
  Holds Runtime.Working process

/-- The same, as long as a library is loaded. -/
abbrev WorksIn (library : Library) (process : LibraryProc α) : Prop :=
  Holds (Runtime.Held library) process

theorem callFunction_works
    (role : Role)
    (function : Address)
    (arguments : Arguments) :
    WorksIn library (callFunction linker role library function arguments) := by
  intro runtime held
  refine wp_call ⟨trivial, held⟩ fun entry => ?_
  have called := called_foldl role function held.working.safe held.loaded
    (.inl held.working.alive)
    (linker.answer library function arguments runtime entry).calls
  refine ⟨⟨called.mapped held.working.mapped, called.safe, ?_⟩, ?_⟩
  · exact called.contextAlive.trans held.working.alive
  · exact called.handles ▸ held.loaded

theorem contextError_works (message : String) :
    WorksIn library (contextError message : LibraryProc (Except Error α)) :=
  Preserves.bind Preserves.get fun _ => Preserves.pure _

/-- A function that can fail is called. -/
theorem failing_works
    {message : String}
    {value : Answer → Except Error α}
    (role : Role)
    (function : Address)
    (arguments : Arguments) :
    WorksIn library (do
      let answer ← callFunction linker role library function arguments
      if answer.result then return value answer
      else contextError message) :=
  Preserves.bind (callFunction_works role function arguments) fun _ =>
    Preserves.composes.ite (Preserves.pure _) (contextError_works message)

namespace Hooks

variable (hooks : Hooks)

theorem pluginInit_works :
    WorksIn library (hooks.pluginInit linker library) := by
  unfold pluginInit
  split
  · exact Preserves.pure _
  · exact failing_works _ _ _

theorem pluginAttach_works (config : PropertyList) :
    WorksIn library (hooks.pluginAttach linker library config) := by
  unfold pluginAttach
  split
  · exact Preserves.pure _
  · exact failing_works _ _ _

theorem pluginDetach_works (userdata : Userdata) :
    WorksIn library (hooks.pluginDetach linker library userdata) := by
  unfold pluginDetach
  split
  · exact Preserves.pure _
  · exact Preserves.bind (callFunction_works _ _ _) fun _ => Preserves.pure _

end Hooks

theorem pluginHasPendingEvent_works
    (plugin : DynamicSourcePlugin)
    (userdata : Userdata) :
    WorksIn plugin.library (plugin.pluginHasPendingEvent linker userdata) := by
  unfold DynamicSourcePlugin.pluginHasPendingEvent
  split
  · exact Preserves.pure _
  · exact Preserves.bind (callFunction_works _ _ _) fun _ => Preserves.pure _

/-- What works in the library of a plugin works behind the look at a plugin
pointer. -/
theorem source_works
    {body : DynamicSourcePlugin → LibraryProc α}
    (ref : PluginRef)
    (works : ∀ plugin, WorksIn plugin.library (body plugin)) :
    Works (source ref >>= body) := by
  intro runtime working
  refine wp_bind (wp_bind (wp_get ?_))
  cases found : runtime.sourcePlugins[ref]? with
  | none => exact wp_halt ⟨trivial, working⟩
  | some plugin =>
      have loaded := working.mapped.sources plugin (List.mem_of_getElem? found)
      exact wp_pure (wp_mono (works plugin runtime ⟨working, loaded⟩)
        (fun _ _ kept => ⟨trivial, kept.2.working⟩) fun _ _ kept =>
          kept.working)

theorem output_works
    {body : DynamicOutputPlugin → LibraryProc α}
    (ref : PluginRef)
    (works : ∀ plugin, WorksIn plugin.library (body plugin)) :
    Works (output ref >>= body) := by
  intro runtime working
  refine wp_bind (wp_bind (wp_get ?_))
  cases found : runtime.outputPlugins[ref]? with
  | none => exact wp_halt ⟨trivial, working⟩
  | some plugin =>
      have loaded := working.mapped.outputs plugin (List.mem_of_getElem? found)
      exact wp_pure (wp_mono (works plugin runtime ⟨working, loaded⟩)
        (fun _ _ kept => ⟨trivial, kept.2.working⟩) fun _ _ kept =>
          kept.working)

theorem setMap_works (map : PluginMap PluginRef PluginRef) :
    Works (Proc.modify fun runtime => { runtime with pluginMap := map }) :=
  Preserves.modify fun _ working =>
    ⟨⟨working.mapped.sources, working.mapped.outputs⟩, working.safe,
      working.alive⟩

theorem initUnlessDone_works
    {init : PluginRef → LibraryProc ReturnCode}
    (works : ∀ ref, Works (init ref))
    (found : Option (PluginBinding PluginRef)) :
    Works (initUnlessDone init found) := by
  cases found with
  | none => exact Preserves.pure _
  | some binding => exact Preserves.composes.ite (Preserves.pure _) (works _)

theorem getSourcePlugin_works (name : Bytes) :
    Works (getSourcePlugin linker name) := by
  refine Preserves.bind Preserves.get fun runtime => ?_
  refine Preserves.bind (initUnlessDone_works (fun ref => source_works ref
    fun plugin => plugin.pluginInit_works) _) fun rc => ?_
  refine Preserves.bind Preserves.get fun after => ?_
  exact Preserves.bind (setMap_works _) fun _ => Preserves.pure _

theorem getOutputPlugin_works (name : Bytes) :
    Works (getOutputPlugin linker name) := by
  refine Preserves.bind Preserves.get fun runtime => ?_
  refine Preserves.bind (initUnlessDone_works (fun ref => output_works ref
    fun plugin => plugin.pluginInit_works) _) fun rc => ?_
  refine Preserves.bind Preserves.get fun after => ?_
  exact Preserves.bind (setMap_works _) fun _ => Preserves.pure _

/-- Every function of the plugins leaves plugins that can be called. -/
theorem dynamicPlugins_works :
    Preserved (dynamicPlugins linker) Runtime.Working where
  react := fun _ _ working => working
  getSourcePlugin := getSourcePlugin_works
  getOutputPlugin := getOutputPlugin_works
  attachSource := fun ref config => source_works ref fun plugin =>
    plugin.pluginAttach_works config
  detachSource := fun ref userdata => source_works ref fun plugin =>
    plugin.pluginDetach_works userdata
  getNextEvent := fun ref _ _ => source_works ref fun _ => failing_works _ _ _
  hasPendingEvent := fun ref userdata => source_works ref fun plugin =>
    pluginHasPendingEvent_works plugin userdata
  attachOutput := fun ref config => output_works ref fun plugin =>
    plugin.pluginAttach_works config
  detachOutput := fun ref userdata => output_works ref fun plugin =>
    plugin.pluginDetach_works userdata
  emitEvent := fun ref _ _ => output_works ref fun _ => failing_works _ _ _

/-! ## Loading -/

/-- No plugin has been initialized. -/
structure Runtime.Starting (runtime : Runtime) : Prop where
  safe : runtime.Safe
  alive : runtime.contextAlive = true
  fresh : runtime.Fresh

/-- A load that succeeds leaves plugins that can be called. -/
def Ready (rc : ReturnCode) (after : Runtime) : Prop :=
  after.Starting ∧ (ReturnCode.isSuccess rc = true → after.Mapped)

/-- Everywhere in a process the calls have been safe. -/
abbrev Safely
    (process : LibraryProc α)
    (post : α → Runtime → Prop)
    (runtime : Runtime) : Prop :=
  wp (fun _ state => state.Safe) process post runtime

/-- Opening a library more often keeps the others open. -/
theorem Runtime.Mapped.opened
    (mapped : runtime.Mapped)
    (path : Bytes)
    (library : Library) :
    ((runtime.noteOpened path).setHandles library
      (runtime.handles library + 1)).Mapped := by
  have more : ∀ other, 0 < runtime.handles other →
      0 < Function.update runtime.handles library
        (runtime.handles library + 1) other := by
    intro other loaded
    by_cases same : other = library
    · rw [same, Function.update_self]
      exact Nat.succ_pos _
    · rw [Function.update_of_ne same]
      exact loaded
  exact ⟨fun plugin present => more _ (mapped.sources plugin present),
    fun plugin present => more _ (mapped.outputs plugin present)⟩

theorem pluginError_ready
    (starting : runtime.Starting)
    (text : Option Bytes) :
    Safely (pluginError text) Ready runtime := by
  cases text with
  | none => exact wp_halt starting.safe
  | some message =>
      exact wp_pure ⟨starting, fun success => by cases success⟩

/-- A library that refuses is closed, and then its plugins cannot be called. -/
theorem Runtime.Starting.close
    (starting : runtime.Starting)
    (library : Library)
    (error : Error) :
    Ready (.error error)
      (runtime.setHandles library (runtime.handles library - 1)) :=
  ⟨⟨starting.safe, starting.alive, starting.fresh⟩,
    fun success => by cases success⟩

theorem loadPluginFn_ready
    (starting : runtime.Starting)
    (mapped : runtime.Mapped)
    (loaded : 0 < runtime.handles library)
    (initFn : Address) :
    Safely (loadPluginFn linker library initFn)
      (fun _ after => after.Starting ∧ after.Mapped) runtime := by
  refine wp_bind (wp_call starting.safe fun entry => ?_)
  have called := called_foldl .register initFn starting.safe loaded
    (.inl starting.alive)
    (linker.answer library initFn .nothing runtime entry).calls
  have still : Runtime.Starting _ := ⟨called.safe,
    called.contextAlive.trans starting.alive, called.fresh starting.fresh⟩
  dsimp only
  split
  · exact wp_pure ⟨still, called.mapped mapped⟩
  · exact wp_bind (wp_get (wp_pure ⟨still, called.mapped mapped⟩))

theorem loadLibrary_ready
    (starting : runtime.Starting)
    (mapped : runtime.Mapped)
    (loaded : 0 < runtime.handles library)
    (path symbol : Bytes) :
    Safely (loadLibrary linker path symbol library) Ready runtime := by
  apply wp_seq (dlsym_same library symbol starting.safe)
  rintro found _ rfl
  cases found with
  | error dlerror => exact wp_bind (wp_modify (wp_pure (starting.close _ _)))
  | ok initFn =>
      apply wp_seq (loadPluginFn_ready starting mapped loaded initFn)
      rintro rc after ⟨still, stillMapped⟩
      cases rc with
      | error failure => exact wp_bind (wp_modify (wp_pure (still.close _ _)))
      | ok _ => exact wp_pure ⟨still, fun _ => stillMapped⟩

theorem loadPluginFile_ready
    (starting : runtime.Starting)
    (mapped : runtime.Mapped)
    (name path : Bytes) :
    Safely (loadPluginFile linker name path) Ready runtime := by
  apply wp_seq (dlopen_spec path starting.safe)
  rintro result after opened
  cases result with
  | error dlerror =>
      obtain rfl := opened
      exact wp_pure ⟨⟨starting.safe, starting.alive, starting.fresh⟩,
        fun success => by cases success⟩
  | ok library =>
      obtain rfl := opened
      cases pluginInitFn name with
      | none => exact wp_halt starting.safe
      | some symbol =>
          have still : Runtime.Starting ((runtime.noteOpened path).setHandles
              library (runtime.handles library + 1)) :=
            ⟨starting.safe, starting.alive, starting.fresh⟩
          have loaded : 0 < ((runtime.noteOpened path).setHandles library
              (runtime.handles library + 1)).handles library := by
            change 0 < Function.update runtime.handles library
              (runtime.handles library + 1) library
            rw [Function.update_self]
            exact Nat.succ_pos _
          dsimp only
          exact loadLibrary_ready still (mapped.opened path library) loaded
            path symbol

theorem tryCandidates_ready
    (starting : runtime.Starting)
    (mapped : runtime.Mapped)
    (plugin name : Bytes)
    (all candidates : List Bytes) :
    Safely (tryCandidates linker plugin name all candidates) Ready runtime := by
  induction candidates with
  | nil => exact pluginError_ready starting _
  | cons path rest inductionHypothesis =>
      refine wp_bind (wp_call starting.safe fun entry => ?_)
      dsimp only
      split
      · refine wp_seq (loadPluginFile_ready starting mapped name path) ?_
        rintro rc after ⟨still, ready⟩
        cases rc with
        | error failure =>
            rw [reported]
            exact pluginError_ready still _
        | ok _ => exact wp_pure ⟨still, ready⟩
      · exact inductionHypothesis

/-- While plugins are loaded, all calls are safe. -/
theorem loadPlugin_ready
    (starting : runtime.Starting)
    (mapped : runtime.Mapped)
    (pluginDir plugin : Bytes) :
    Safely (loadPlugin linker pluginDir plugin) Ready runtime := by
  unfold loadPlugin
  cases pluginName plugin with
  | none =>
      dsimp only
      exact pluginError_ready starting _
  | some name => exact tryCandidates_ready starting mapped plugin name _ _

/-! ## Unloading -/

/-- There is nothing to be freed where nothing has been initialized. -/
theorem Runtime.Fresh.destroy_eq (fresh : runtime.Fresh) :
    runtime.pluginMap.destroy.1 = [] := by
  change List.filterMap _ _ = []
  rw [List.filterMap_eq_nil_iff]
  rintro ⟨name, binding⟩ present
  have found := AList.mem_lookup_iff.mpr present
  rw [fresh name binding found]
  rfl

theorem pluginFree_safe
    {plugin : DynamicSourcePlugin}
    (safe : runtime.Safe)
    (mapped : runtime.Mapped)
    (present : plugin ∈ runtime.sourcePlugins) :
    Safely (plugin.pluginFree linker)
      (fun _ after => after.Safe ∧ after.Mapped) runtime := by
  unfold DynamicSourcePlugin.pluginFree Hooks.pluginFree
  split
  · exact wp_pure ⟨safe, mapped⟩
  next function isFree =>
    refine wp_bind (wp_call safe fun entry => ?_)
    have called := called_foldl .pluginFree function safe
      (mapped.sources plugin present) (.inr ⟨rfl, plugin, present, rfl, isFree⟩)
      (linker.answer plugin.library function .nothing runtime entry).calls
    exact wp_pure ⟨called.safe, called.mapped mapped⟩

/-- The destructor of the plugin map calls into libraries that are loaded. -/
theorem destroyMap_safe
    (safe : runtime.Safe)
    (usable : runtime.Mapped ∨ runtime.Fresh) :
    Safely (destroyMap linker) (fun _ after => after.Safe) runtime := by
  refine wp_bind (wp_get ?_)
  rcases usable with mapped | fresh
  · have freed : ∀ entries : List (Bytes × PluginRef),
        Safely (entries.forM fun entry => do
          let plugin ← source entry.2
          plugin.pluginFree linker)
          (fun _ after => after.Safe ∧ after.Mapped) runtime := by
      intro entries
      apply wp_forM
      · rintro entry _ state ⟨still, stillMapped⟩
        refine wp_bind (wp_bind (wp_get ?_))
        cases found : state.sourcePlugins[entry.2]? with
        | none => exact wp_halt still
        | some plugin =>
            exact wp_pure (pluginFree_safe still stillMapped
              (List.mem_of_getElem? found))
      · exact ⟨safe, mapped⟩
    exact wp_mono (freed _) (fun _ _ held => held) fun _ _ kept => kept.1
  · rw [fresh.destroy_eq]
    exact wp_pure safe

end Plugin
end EvCollect
