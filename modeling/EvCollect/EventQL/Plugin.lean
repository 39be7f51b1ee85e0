import EvCollect.EventQL.Target
import EvCollect.Process.Beside
import EvCollect.Service.Foreign

/-!
# The EventQL plugin

The functions of the output plugin as the service thread calls them, and a
plugin map with this output plugin. The upload thread acts between two steps of
the service thread, as the script says.
-/

namespace EvCollect
namespace EventQL

open Process Service

/-! ## Options -/

/-- `isspace` of the C locale. -/
def isSpace (byte : UInt8) : Bool :=
  byte = 0x20 || (0x09 ≤ byte && byte ≤ 0x0d)

def isDigit (byte : UInt8) : Bool :=
  0x30 ≤ byte && byte ≤ 0x39

/-- The number that decimal digits stand for. -/
def digitsValue (digits : Bytes) : Nat :=
  digits.foldl (fun value digit => value * 10 + (digit - 0x30).toNat) 0

/-- `std::stoul` and `std::stoull`: blanks, a sign and digits, and anything
behind them. A negative number wraps around, and `none` stands for a number that
does not fit, or for no number at all. -/
def stoull (text : Bytes) : Option UInt64 :=
  let trimmed := text.dropWhile isSpace
  let negative := trimmed.head? = some 0x2d
  let unsigned :=
    if negative ∨ trimmed.head? = some 0x2b then trimmed.tail else trimmed
  let digits := unsigned.takeWhile isDigit
  if digits.isEmpty ∨ 2 ^ 64 ≤ digitsValue digits then none
  else
    let value := UInt64.ofNat (digitsValue digits)
    some (if negative then -value else value)

/-- An option with a number, or its default. -/
def numericOption
    (config : PropertyList)
    (key : String)
    (default : UInt64) : Option UInt64 :=
  match config.get (bytes key) with
  | none => some default
  | some text => stoull (cString text)

/-- The loop of `pluginAttach` over the routes, which ends at a route without
arguments. -/
def readRoutes :
    List (List Bytes) → List EventRouting → Except Bytes (List EventRouting)
  | [], routes => .ok routes
  | [] :: _, routes => .ok routes
  | [event, target] :: rest, routes =>
      readRoutes rest
        (routes ++
          [{ eventNameMatch := cString event, target := cString target }])
  | _ :: _, _ =>
      .error (bytes ("invalid number of arguments to route. " ++
        "format is: route <event> <target>"))

/-- The target that `pluginAttach` builds, or the message of its error. What
only the request of an upload depends on is checked, and left out. -/
def buildTarget (config : PropertyList) : Except Bytes EventQLTarget :=
  if (numericOption config "port" 9175).isNone then
    .error (bytes "invalid port")
  else if (numericOption config "http_timeout" 30000000).isNone then
    .error (bytes "invalid value for http_timeout")
  else
    match numericOption config "queue_maxlen" 8192 with
    | none => .error (bytes "invalid value for queue_maxlen")
    | some queueMaxLength =>
        (readRoutes (config.getAll (bytes "route")) []).map fun routes =>
          { routes := routes, queueMaxLength := queueMaxLength.toNat }

/-- A target that has been built is as new, up to its options. -/
theorem eq_of_buildTarget
    {config : PropertyList}
    {target : EventQLTarget}
    (built : buildTarget config = .ok target) :
    target =
      { routes := target.routes, queueMaxLength := target.queueMaxLength } := by
  unfold buildTarget at built
  split at built
  · cases built
  split at built
  · cases built
  split at built
  · cases built
  cases read : readRoutes (config.getAll (bytes "route")) [] with
  | error message =>
      rw [read] at built
      cases built
  | ok routes =>
      rw [read] at built
      cases built
      rfl

/-! ## The world of the plugin -/

/-- What another thread does to the target. -/
def EventQLTarget.act (peer : Peer) (target : EventQLTarget) : EventQLTarget :=
  match peer with
  | .upload => target.uploadStep.getD target
  | .spuriousUpload => target.wakeUpload.getD target
  | .spuriousService => target

structure EventQLWorld where
  /-- The target that was attached last. -/
  target : EventQLTarget := {}
  /-- History: the target as it was when `stopUploadThread` set
  `thread_shutdown_`. -/
  stored : Option EventQLTarget := none
  deriving DecidableEq, Repr

instance : World EventQLWorld where
  react := fun entry world =>
    { world with
      target := reactAll EventQLTarget.act entry.peers world.target }

/-- The program points of the service thread in the plugin. -/
inductive EventQLPoint
  /-- Before the critical section of `startUploadThread`. -/
  | launch
  /-- Before a critical section of `enqueueEvent`, or in its `cv_.wait`. -/
  | enqueue
  /-- `stopUploadThread` is about to set `thread_shutdown_`. -/
  | store
  | notify
  | join
  | clear
  /-- Inside of another plugin. -/
  | foreign (call : ForeignCall)
  deriving DecidableEq, Repr

abbrev EventQLProc (α : Type) := Proc Entry EventQLPoint EventQLWorld α

namespace EventQLWorld

def onTarget
    (step : EventQLTarget → EventQLTarget)
    (world : EventQLWorld) : EventQLWorld :=
  { world with target := step world.target }

/-- `thread_shutdown_ = true`. -/
def storeShutdown (world : EventQLWorld) : EventQLWorld :=
  { target := world.target.storeShutdown, stored := some world.target }

end EventQLWorld

open EventQLWorld

/-- A step of the service thread, before which other threads can act. -/
def stepTarget
    (point : EventQLPoint)
    (step : EventQLWorld → EventQLWorld) : EventQLProc Unit :=
  Proc.call point fun entry world => ((), step (World.react entry world))

/-! ## Functions -/

/-- `EventQLTarget::startUploadThread`. -/
def startUploadThread : EventQLProc ReturnCode := do
  let world ← Proc.get
  if world.target.threadRunning then
    return ReturnCode.makeErrorf "RTERROR"
      (bytes "upload thread is already running")
  stepTarget .launch (onTarget EventQLTarget.launchThread)
  return ReturnCode.success

/-- One pass of the loop of `enqueueEvent`: wait, or push the event. -/
def enqueuePass (event : EnqueuedEvent) : EventQLProc (Unit ⊕ ReturnCode) := do
  let world ← Proc.get
  match world.target.enqueueEvent event with
  | none => return .inl ()
  | some target =>
      Proc.modify (onTarget fun _ => target)
      return .inr ReturnCode.success

/-- `EventQLTarget::enqueueEvent`. -/
def enqueueEvent (event : EnqueuedEvent) : EventQLProc ReturnCode :=
  Proc.iterate .enqueue World.react (fun _ => enqueuePass event) ()

/-- The loop of `emitEvent` over the routes. -/
def emitRoutes
    (eventName eventData : Bytes) :
    List EventRouting → EventQLProc ReturnCode
  | [] => return ReturnCode.success
  | route :: routes =>
      match routeEvent eventName eventData route with
      | .skipped => emitRoutes eventName eventData routes
      | .failed error => return .error error
      | .matched event => do
          let _ ← enqueueEvent event
          emitRoutes eventName eventData routes

/-- `EventQLTarget::emitEvent`. -/
def emitEvent (eventName eventData : Bytes) : EventQLProc ReturnCode := do
  let world ← Proc.get
  emitRoutes eventName eventData world.target.routes

/-- One pass of waiting for the upload thread to return. -/
def joinPass : EventQLProc (Unit ⊕ Unit) := do
  let world ← Proc.get
  match world.target.joinThread with
  | none => return .inl ()
  | some target =>
      Proc.modify (onTarget fun _ => target)
      return .inr ()

/-- `EventQLTarget::stopUploadThread`. -/
def stopUploadThread : EventQLProc Unit := do
  let world ← Proc.get
  if !world.target.threadRunning then
    return ()
  stepTarget .store EventQLWorld.storeShutdown
  stepTarget .notify (onTarget EventQLTarget.notifyUpload)
  Proc.iterate .join World.react (fun _ => joinPass) ()
  stepTarget .clear (onTarget EventQLTarget.clearRunning)

/-- `pluginAttach`, as `DynamicOutputPlugin` calls it. -/
def pluginAttach
    (config : PropertyList) : EventQLProc (Except Error Userdata) := do
  match buildTarget config with
  | .error message =>
      return ReturnCode.makeErrorf "EPLUGIN"
        (bytes "pluginAttach failed: " ++ message)
  | .ok target =>
      Proc.modify (onTarget fun _ => target)
      let _ ← startUploadThread
      return .ok 0

/-- `pluginDetach`. -/
def pluginDetach : EventQLProc Unit :=
  stopUploadThread

/-- `pluginEmitEvent`, as `DynamicOutputPlugin` calls it. -/
def pluginEmitEvent (event : EventData) : EventQLProc ReturnCode := do
  match ← emitEvent event.eventName event.eventData with
  | .ok _ => return ReturnCode.success
  | .error error =>
      return ReturnCode.makeErrorf "EPLUGIN"
        (bytes "pluginEmitEvent failed: " ++ cString error.message)

/-- The output plugin. There is one target. -/
def eventqlOutput : OutputPlugin EventQLPoint EventQLWorld where
  pluginAttach := pluginAttach
  pluginDetach := fun _ => pluginDetach
  pluginEmitEvent := fun _ => pluginEmitEvent

/-- A plugin map with this output plugin, and any source plugins. -/
def eventqlPlugins : Plugins EventQLPoint EventQLWorld where
  getSourcePlugin := (foreignPlugins EventQLPoint.foreign).getSourcePlugin
  getOutputPlugin := fun name =>
    if name = bytes "eventql" then pure (.ok 0)
    else pure (ReturnCode.makeErrorf "PLUGIN_NOT_FOUND"
      (bytes "output plugin not found: " ++ cString name))
  source := (foreignPlugins EventQLPoint.foreign).source
  output := fun _ => eventqlOutput

end EventQL
end EvCollect
