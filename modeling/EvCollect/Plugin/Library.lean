import EvCollect.Service.PluginMap
import EvCollect.Service.Worlds

/-!
# Plugins from shared objects

`DynamicSourcePlugin` and `DynamicOutputPlugin`, through which the service calls
functions of libraries, the functions of the C interface, through which these
call back, and the plugin map behind them. What a function of a library does is
a parameter, up to the calls back that it can make.
-/

namespace EvCollect
namespace Plugin

open Process Service

/-- A shared object, of which `dlopen` returns a handle. -/
abbrev Library := Nat

/-- The address of a function in a library. -/
abbrev Address := Nat

/-- The functions that plugins of both kinds can have, or lack. -/
structure Hooks where
  attachFn : Option Address := none
  detachFn : Option Address := none
  initFn : Option Address := none
  freeFn : Option Address := none
  deriving DecidableEq, Repr

/-- What `evcollect_source_plugin_register` is given. -/
structure SourceFunctions extends Hooks where
  getNextEventFn : Address
  hasNextEventFn : Option Address := none
  deriving DecidableEq, Repr

/-- What `evcollect_output_plugin_register` is given. -/
structure OutputFunctions extends Hooks where
  emitEventFn : Address
  deriving DecidableEq, Repr

/-- A source plugin of a library, which registers functions of its own only. -/
structure DynamicSourcePlugin extends SourceFunctions where
  library : Library
  deriving DecidableEq, Repr

structure DynamicOutputPlugin extends OutputFunctions where
  library : Library
  deriving DecidableEq, Repr

/-- A call of a function of the C interface that has an effect. -/
inductive ApiCall
  | setError (error : Bytes)
  | setData (data : Bytes)
  | registerSource (name : Bytes) (functions : SourceFunctions)
  | registerOutput (name : Bytes) (functions : OutputFunctions)
  deriving DecidableEq, Repr

/-- What a function of a library is given besides the context. -/
inductive Arguments
  | nothing
  | config (properties : PropertyList)
  | userdata (userdata : Userdata)
  | event (userdata : Userdata) (event : EventData)
  deriving DecidableEq, Repr

/-- What a function of a library does: it calls back and returns. -/
structure Answer where
  calls : List ApiCall := []
  result : Bool
  /-- What the function leaves in `*userdata`. -/
  userdata : Userdata := 0
  deriving DecidableEq, Repr

/-- What a function of a library is called as. -/
inductive Role
  /-- The function that registers the plugins of the library. -/
  | register
  | pluginInit
  | pluginFree
  | pluginAttach
  | pluginDetach
  | pluginGetNextEvent
  | pluginHasPendingEvent
  | pluginEmitEvent
  deriving DecidableEq, Repr

/-- History: a call of a function of a library. -/
structure LibraryCall where
  role : Role
  library : Library
  function : Address
  /-- The library was loaded. -/
  mapped : Bool
  /-- The context that the function was given had not been destroyed. -/
  context : Bool
  deriving DecidableEq, Repr

/-- The members `plugin_ctx_` and `plugin_map_` of a service, the libraries that
its process has loaded, and what it has called in them. -/
structure Runtime where
  /-- The number of open handles of a library. -/
  handles : Library → Nat := fun _ => 0
  /-- Plugins are positions in the lists of plugins that were registered. -/
  pluginMap : PluginMap PluginRef PluginRef
  sourcePlugins : List DynamicSourcePlugin := []
  outputPlugins : List DynamicOutputPlugin := []
  /-- The member `error` of the context. -/
  error : Bytes := []
  contextAlive : Bool := true
  /-- History: the paths that have been given to `dlopen`. -/
  opened : List Bytes := []
  calls : List LibraryCall := []

instance : World Runtime where
  react := fun _ runtime => runtime

/-- The file system, the dynamic linker and the code of all libraries. -/
structure Linker where
  stat : Bytes → Entry → Bool
  dlopen : Bytes → Entry → Option Library
  dlsym : Library → Bytes → Entry → Option Address
  answer : Library → Address → Arguments → Runtime → Entry → Answer
  /-- What the member `userdata` of a binding holds before it is set. -/
  uninitialized : Userdata

/-- The program points of the functions that deal with libraries. -/
inductive LibraryPoint
  | stat (path : Bytes)
  | dlopen (path : Bytes)
  | dlsym (library : Library) (symbol : Bytes)
  | function (library : Library) (function : Address)
  /-- A plugin pointer that does not point to a plugin. -/
  | noPlugin
  /-- A text that cannot be formatted. -/
  | unformatted
  deriving DecidableEq, Repr

/-- A process of the functions that deal with libraries. -/
abbrev LibraryProc (α : Type) := Proc Entry LibraryPoint Runtime α

/-! ## The C interface -/

namespace Runtime

/-- `evcollect_seterror`. -/
def evcollectSeterror (error : Bytes) (runtime : Runtime) : Runtime :=
  { runtime with error := cString error }

/-- `evcollect_source_plugin_register`. -/
def evcollectSourcePluginRegister
    (library : Library)
    (name : Bytes)
    (functions : SourceFunctions)
    (runtime : Runtime) : Runtime :=
  { runtime with
    sourcePlugins := runtime.sourcePlugins ++
      [{ toSourceFunctions := functions, library := library }]
    pluginMap := runtime.pluginMap.registerSourcePlugin (cString name)
      runtime.sourcePlugins.length }

/-- `evcollect_output_plugin_register`. -/
def evcollectOutputPluginRegister
    (library : Library)
    (name : Bytes)
    (functions : OutputFunctions)
    (runtime : Runtime) : Runtime :=
  { runtime with
    outputPlugins := runtime.outputPlugins ++
      [{ toOutputFunctions := functions, library := library }]
    pluginMap := runtime.pluginMap.registerOutputPlugin (cString name)
      runtime.outputPlugins.length }

/-- A call back of a function of a library. -/
def callBack
    (library : Library)
    (runtime : Runtime) : ApiCall → Runtime
  | .setError error => runtime.evcollectSeterror error
  | .setData _ => runtime
  | .registerSource name functions =>
      runtime.evcollectSourcePluginRegister library name functions
  | .registerOutput name functions =>
      runtime.evcollectOutputPluginRegister library name functions

/-- The library is loaded. -/
def mapped (runtime : Runtime) (library : Library) : Bool :=
  decide (0 < runtime.handles library)

/-- Note a call of a function of a library. -/
def noteCall
    (role : Role)
    (library : Library)
    (function : Address)
    (runtime : Runtime) : Runtime :=
  { runtime with
    calls := runtime.calls ++
      [{ role := role
         library := library
         function := function
         mapped := runtime.mapped library
         context := runtime.contextAlive }] }

end Runtime

/-- `evcollect_event_setdata`. -/
def evcollectEventSetdata (data : Bytes) (event : EventData) : EventData :=
  { event with eventData := data }

/-- The event data that a function leaves in an event. -/
def Answer.event (answer : Answer) (event : EventData) : EventData :=
  answer.calls.foldl
    (fun event call =>
      match call with
      | .setData data => evcollectEventSetdata data event
      | _ => event) event

variable (linker : Linker)

/-- Call a function of a library, which is given the context. -/
def callFunction
    (role : Role)
    (library : Library)
    (function : Address)
    (arguments : Arguments) : LibraryProc Answer :=
  Proc.call (.function library function) fun entry runtime =>
    let answer := linker.answer library function arguments runtime entry
    (answer, answer.calls.foldl (Runtime.callBack library)
      (runtime.noteCall role library function))

/-- The error of a function that has failed, with the text in the context. -/
def contextError (message : String) : LibraryProc (Except Error α) := do
  let runtime ← Proc.get
  return ReturnCode.makeErrorf "EPLUGIN" (bytes message ++ cString runtime.error)

namespace Hooks

variable (hooks : Hooks) (library : Library)

/-- `pluginInit` of both kinds of plugins. -/
def pluginInit : LibraryProc ReturnCode :=
  match hooks.initFn with
  | none => pure ReturnCode.success
  | some function => do
      let answer ← callFunction linker .pluginInit library function .nothing
      if answer.result then return ReturnCode.success
      else contextError "pluginInit failed: "

/-- `pluginFree` of both kinds of plugins. -/
def pluginFree : LibraryProc Unit :=
  match hooks.freeFn with
  | none => pure ()
  | some function => do
      let _ ← callFunction linker .pluginFree library function .nothing

/-- `pluginAttach` of both kinds of plugins. -/
def pluginAttach
    (config : PropertyList) : LibraryProc (Except Error Userdata) :=
  match hooks.attachFn with
  | none => pure (.ok linker.uninitialized)
  | some function => do
      let answer ← callFunction linker .pluginAttach library function
        (.config config)
      if answer.result then return .ok answer.userdata
      else contextError "pluginAttach failed: "

/-- `pluginDetach` of both kinds of plugins. -/
def pluginDetach (userdata : Userdata) : LibraryProc Unit :=
  match hooks.detachFn with
  | none => pure ()
  | some function => do
      let _ ← callFunction linker .pluginDetach library function
        (.userdata userdata)

end Hooks

namespace DynamicSourcePlugin

variable (plugin : DynamicSourcePlugin)

/-- `DynamicSourcePlugin::pluginInit`. -/
def pluginInit : LibraryProc ReturnCode :=
  plugin.toHooks.pluginInit linker plugin.library

/-- `DynamicSourcePlugin::pluginFree`. -/
def pluginFree : LibraryProc Unit :=
  plugin.toHooks.pluginFree linker plugin.library

/-- `DynamicSourcePlugin::pluginAttach`. -/
def pluginAttach
    (config : PropertyList) : LibraryProc (Except Error Userdata) :=
  plugin.toHooks.pluginAttach linker plugin.library config

/-- `DynamicSourcePlugin::pluginDetach`. -/
def pluginDetach (userdata : Userdata) : LibraryProc Unit :=
  plugin.toHooks.pluginDetach linker plugin.library userdata

/-- `DynamicSourcePlugin::pluginGetNextEvent`. -/
def pluginGetNextEvent
    (userdata : Userdata) : LibraryProc (Except Error Bytes) := do
  let answer ← callFunction linker .pluginGetNextEvent plugin.library
    plugin.getNextEventFn (.userdata userdata)
  if answer.result then
    return .ok (answer.event
      { time := 0, eventName := [], eventData := [] }).eventData
  else contextError "pluginGetNextEvent failed: "

/-- `DynamicSourcePlugin::pluginHasPendingEvent`. -/
def pluginHasPendingEvent (userdata : Userdata) : LibraryProc Bool :=
  match plugin.hasNextEventFn with
  | none => pure false
  | some function => do
      let answer ← callFunction linker .pluginHasPendingEvent plugin.library
        function (.userdata userdata)
      return answer.result

end DynamicSourcePlugin

namespace DynamicOutputPlugin

variable (plugin : DynamicOutputPlugin)

/-- `DynamicOutputPlugin::pluginInit`. -/
def pluginInit : LibraryProc ReturnCode :=
  plugin.toHooks.pluginInit linker plugin.library

/-- `DynamicOutputPlugin::pluginAttach`. -/
def pluginAttach
    (config : PropertyList) : LibraryProc (Except Error Userdata) :=
  plugin.toHooks.pluginAttach linker plugin.library config

/-- `DynamicOutputPlugin::pluginDetach`. -/
def pluginDetach (userdata : Userdata) : LibraryProc Unit :=
  plugin.toHooks.pluginDetach linker plugin.library userdata

/-- `DynamicOutputPlugin::pluginEmitEvent`. -/
def pluginEmitEvent
    (userdata : Userdata)
    (event : EventData) : LibraryProc ReturnCode := do
  let answer ← callFunction linker .pluginEmitEvent plugin.library
    plugin.emitEventFn (.event userdata event)
  if answer.result then return ReturnCode.success
  else contextError "pluginEmitEvent failed: "

end DynamicOutputPlugin

/-! ## The plugin map -/

/-- The source plugin that a plugin pointer points to. -/
def source (ref : PluginRef) : LibraryProc DynamicSourcePlugin := do
  let runtime ← Proc.get
  match runtime.sourcePlugins[ref]? with
  | none => Proc.halt .noPlugin
  | some plugin => return plugin

/-- The output plugin that a plugin pointer points to. -/
def output (ref : PluginRef) : LibraryProc DynamicOutputPlugin := do
  let runtime ← Proc.get
  match runtime.outputPlugins[ref]? with
  | none => Proc.halt .noPlugin
  | some plugin => return plugin

/-- Initialize a plugin that has been found, unless it is. -/
def initUnlessDone
    (init : PluginRef → LibraryProc ReturnCode)
    (found : Option (PluginBinding PluginRef)) : LibraryProc ReturnCode :=
  match found with
  | none => pure ReturnCode.success
  | some binding =>
      if binding.pluginInitialized then pure ReturnCode.success
      else init binding.plugin

/-- `PluginMap::getSourcePlugin`. -/
def getSourcePlugin (name : Bytes) : LibraryProc (Except Error PluginRef) := do
  let runtime ← Proc.get
  let rc ← initUnlessDone
    (fun ref => do
      let plugin ← source ref
      plugin.pluginInit linker)
    (runtime.pluginMap.sourcePlugins.lookup name)
  let runtime ← Proc.get
  let found := runtime.pluginMap.getSourcePlugin name rc
  Proc.modify fun runtime => { runtime with pluginMap := found.2 }
  return found.1.1

/-- `PluginMap::getOutputPlugin`. -/
def getOutputPlugin (name : Bytes) : LibraryProc (Except Error PluginRef) := do
  let runtime ← Proc.get
  let rc ← initUnlessDone
    (fun ref => do
      let plugin ← output ref
      plugin.pluginInit linker)
    (runtime.pluginMap.outputPlugins.lookup name)
  let runtime ← Proc.get
  let found := runtime.pluginMap.getOutputPlugin name rc
  Proc.modify fun runtime => { runtime with pluginMap := found.2 }
  return found.1.1

/-- `PluginMap::~PluginMap`. -/
def destroyMap : LibraryProc Unit := do
  let runtime ← Proc.get
  runtime.pluginMap.destroy.1.forM fun entry => do
    let plugin ← source entry.2
    plugin.pluginFree linker

/-- The plugins of libraries, as the service sees them. -/
def dynamicPlugins : Plugins LibraryPoint Runtime where
  getSourcePlugin := getSourcePlugin linker
  getOutputPlugin := getOutputPlugin linker
  source := fun ref =>
    { pluginAttach := fun config => do
        let plugin ← source ref
        plugin.pluginAttach linker config
      pluginDetach := fun userdata => do
        let plugin ← source ref
        plugin.pluginDetach linker userdata
      pluginGetNextEvent := fun userdata _ => do
        let plugin ← source ref
        plugin.pluginGetNextEvent linker userdata
      pluginHasPendingEvent := fun userdata => do
        let plugin ← source ref
        plugin.pluginHasPendingEvent linker userdata }
  output := fun ref =>
    { pluginAttach := fun config => do
        let plugin ← output ref
        plugin.pluginAttach linker config
      pluginDetach := fun userdata => do
        let plugin ← output ref
        plugin.pluginDetach linker userdata
      pluginEmitEvent := fun userdata event => do
        let plugin ← output ref
        plugin.pluginEmitEvent linker userdata event }

end Plugin
end EvCollect
