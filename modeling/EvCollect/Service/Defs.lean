import EvCollect.Basic
import EvCollect.Process.Basic
import EvCollect.Service.Schedule

/-!
# The service

`ServiceImpl` with its setup, its main loop and its teardown. Source and output
plugins are parameters: a plugin's functions are processes over a state of their
own, the `world`, which the service itself never touches.
-/

namespace EvCollect
namespace Service

open Process

/-- The virtual functions of a `SourcePlugin`. `pluginGetNextEvent` maps the
event buffer it is given to the buffer it leaves. -/
structure SourcePlugin (L τ : Type) where
  pluginAttach : PropertyList → Proc Entry L τ (Except Error Userdata)
  pluginDetach : Userdata → Proc Entry L τ Unit
  pluginGetNextEvent : Userdata → Bytes → Proc Entry L τ (Except Error Bytes)
  pluginHasPendingEvent : Userdata → Proc Entry L τ Bool

/-- The virtual functions of an `OutputPlugin`. -/
structure OutputPlugin (L τ : Type) where
  pluginAttach : PropertyList → Proc Entry L τ (Except Error Userdata)
  pluginDetach : Userdata → Proc Entry L τ Unit
  pluginEmitEvent : Userdata → EventData → Proc Entry L τ ReturnCode

/-- The plugin map, and what stands behind the plugin pointers it returns. -/
structure Plugins (L τ : Type) where
  getSourcePlugin : Bytes → Proc Entry L τ (Except Error PluginRef)
  getOutputPlugin : Bytes → Proc Entry L τ (Except Error PluginRef)
  source : PluginRef → SourcePlugin L τ
  output : PluginRef → OutputPlugin L τ

structure TargetBinding where
  plugin : PluginRef
  userdata : Userdata
  deriving DecidableEq, Repr

structure ServiceImpl (τ : Type) extends Schedule where
  targets : List TargetBinding := []
  listenFd : Int := -1
  /-- Bytes waiting in the wakeup pipe. -/
  wakeupPipe : Nat := 0
  /-- The last reading of the monotonic clock. -/
  clock : UInt64 := 0
  world : τ
  /-- History: every event a target has been given, with the position of the
  target. -/
  offered : List (Nat × EventData) := []

/-- The `timeval` handed to `select`. -/
structure Timeval where
  sec : UInt64
  usec : UInt64
  deriving DecidableEq, Repr

/-- The number of microseconds a `timeval` stands for. -/
def Timeval.micros (timeout : Timeval) : Nat :=
  timeout.sec.toNat * 1000000 + timeout.usec.toNat

/-- The `timeval` of a number of microseconds. -/
def Timeval.ofMicros (micros : UInt64) : Timeval :=
  { sec := micros / 1000000, usec := micros % 1000000 }

/-- Program points of the service thread. -/
inductive Point (L : Type)
  /-- `addEvent` reads the clock. -/
  | addClock
  /-- The head of the main loop. -/
  | head
  /-- The clock reading from which the sleep is computed. -/
  | headClock
  | select (now : UInt64) (timeout : Timeval)
  /-- The clock reading that decides whether the binding is due. -/
  | dueClock
  /-- `processEvent` is about to be called. -/
  | process (job : Nat)
  /-- The clock reading after the binding was processed. -/
  | doneClock
  /-- `processEvent` reads the wall clock. -/
  | wallClock
  /-- The head of the loop in `processEvent`. -/
  | round
  /-- Inside a plugin function. -/
  | plugin (point : L)
  deriving DecidableEq, Repr

variable {L τ : Type}

namespace ServiceImpl

/-- A step on the schedule alone. -/
def onSchedule
    (step : Schedule → Schedule)
    (service : ServiceImpl τ) : ServiceImpl τ :=
  { service with toSchedule := step service.toSchedule }

/-- Record that a target has been given an event. -/
def logOffer
    (target : Nat)
    (event : EventData)
    (service : ServiceImpl τ) : ServiceImpl τ :=
  { service with offered := service.offered ++ [(target, event)] }

end ServiceImpl

open ServiceImpl Schedule

section Calls

variable [World τ]

/-- What the environment does on its own before a call: it may change the
world, and `kill()` writes a byte to the wakeup pipe. A `kill()` during a plugin
call is recorded at the service's next own call. -/
def react (entry : Entry) (service : ServiceImpl τ) : ServiceImpl τ :=
  { service with
    wakeupPipe := service.wakeupPipe + entry.killed.toNat
    world := World.react entry service.world }

/-- A process of the service thread. -/
abbrev ServiceProc (L τ α : Type) := Proc Entry (Point L) (ServiceImpl τ) α

/-- `MonotonicClock::now()`. -/
def monotonicNow (point : Point L) : ServiceProc L τ UInt64 :=
  Proc.call point fun entry service =>
    let now := if entry.monotonic < service.clock then service.clock
      else entry.monotonic
    (now, { react entry service with clock := now })

/-- `WallClock::unixMicros()`. -/
def wallClock (point : Point L) : ServiceProc L τ UInt64 :=
  Proc.call point fun entry service => (entry.wall, react entry service)

/-- What `select` reports: its return value, and whether the wakeup pipe and the
monitor socket are readable. -/
structure Ready where
  rc : Int
  wakeup : Bool
  listen : Bool
  deriving DecidableEq, Repr

/-- `select` on the wakeup pipe, and on the monitor socket if there is one. It
can be interrupted, and it reports a readable pipe. -/
def select (now : UInt64) (timeout : Timeval) : ServiceProc L τ Ready :=
  Proc.call (.select now timeout) fun entry service =>
    let service := react entry service
    let wakeup := decide (0 < service.wakeupPipe)
    let listen := decide (0 < service.listenFd) && entry.more
    if entry.result < 0 then
      ({ rc := -1, wakeup := false, listen := false }, service)
    else
      ({ rc := wakeup.toNat + listen.toNat
         wakeup := wakeup
         listen := listen }, service)

omit [World τ] in
/-- Run a plugin function. -/
def onWorld (process : Proc Entry L τ α) : ServiceProc L τ α :=
  Proc.zoom ServiceImpl.world
    (fun world service => { service with world := world }) Point.plugin
    process

end Calls

section Functions

variable [World τ]
variable (plugins : Plugins L τ)

omit [World τ] in
/-- The loop over the sources in `addEvent`: look up and attach one by one, and
give up at the first failure. -/
def attachSources :
    List EventSourceConfig → List EventSourceBinding →
      ServiceProc L τ (Except Error (List EventSourceBinding))
  | [], attached => pure (.ok attached)
  | source :: rest, attached => do
      match ← onWorld (plugins.getSourcePlugin source.pluginName) with
      | .error error => return .error error
      | .ok plugin =>
          match ← onWorld
              ((plugins.source plugin).pluginAttach source.properties) with
          | .error error => return .error error
          | .ok userdata =>
              attachSources rest (attached ++ [⟨plugin, userdata⟩])

/-- `ServiceImpl::addEvent`. -/
def addEvent (config : EventConfig) : ServiceProc L τ ReturnCode := do
  match ← attachSources plugins config.sources [] with
  | .error error => return .error error
  | .ok sources =>
      let now ← monotonicNow .addClock
      Proc.modify (onSchedule (adopt config sources now))
      return ReturnCode.success

omit [World τ] in
/-- `ServiceImpl::addTarget`. -/
def addTarget (config : TargetConfig) : ServiceProc L τ ReturnCode := do
  match ← onWorld (plugins.getOutputPlugin config.pluginName) with
  | .error error => return .error error
  | .ok plugin =>
      match ← onWorld
          ((plugins.output plugin).pluginAttach config.properties) with
      | .error error => return .error error
      | .ok userdata =>
          Proc.modify fun service =>
            { service with
              targets := service.targets ++ [⟨plugin, userdata⟩] }
          return ReturnCode.success

omit [World τ] in
/-- The loop of `deliverEvent` over the targets from a position on. -/
def deliverFrom (event : EventData) :
    Nat → List TargetBinding → ReturnCode → ServiceProc L τ ReturnCode
  | _, [], aggregate => pure aggregate
  | position, target :: rest, aggregate => do
      let rc ← onWorld
        ((plugins.output target.plugin).pluginEmitEvent target.userdata event)
      Proc.modify (logOffer position event)
      deliverFrom event (position + 1) rest
        (if ReturnCode.isSuccess rc then aggregate else rc)

omit [World τ] in
/-- `ServiceImpl::deliverEvent`. -/
def deliverEvent (event : EventData) : ServiceProc L τ ReturnCode := do
  let service ← Proc.get
  deliverFrom plugins event 0 service.targets ReturnCode.success

omit [World τ] in
/-- `ServiceImpl::emitEvent`. -/
def emitEvent
    (job : Nat)
    (time : UInt64)
    (eventData : Bytes) : ServiceProc L τ ReturnCode := do
  let service ← Proc.get
  deliverEvent plugins
    { time := time
      eventName := (service.binding job).eventName
      eventData := eventData }

/-- `mergeEvents`, which keeps the overlay only. -/
def mergeEvents (_base overlay : Bytes) : Bytes :=
  overlay

omit [World τ] in
/-- One round of `processEvent` over the sources of a binding: the merged event
and whether some source has more. -/
def pollSources :
    List EventSourceBinding → Bytes → Bool →
      ServiceProc L τ (Except Error (Bytes × Bool))
  | [], merged, cont => pure (.ok (merged, cont))
  | source :: rest, merged, cont => do
      match ← onWorld
          ((plugins.source source.plugin).pluginGetNextEvent
            source.userdata []) with
      | .error error => return .error error
      | .ok buffer =>
          let merged := if merged.isEmpty then buffer
            else mergeEvents merged buffer
          let pending ← onWorld
            ((plugins.source source.plugin).pluginHasPendingEvent
              source.userdata)
          pollSources rest merged (cont || pending)

omit [World τ] in
/-- The end of a round: emit what was merged, if there is anything. -/
def emitMerged
    (job : Nat)
    (now : UInt64)
    (merged : Bytes) : ServiceProc L τ ReturnCode :=
  if merged.isEmpty then pure ReturnCode.success
  else emitEvent plugins job now merged

omit [World τ] in
/-- One pass of the loop of `processEvent`: go on, or return. -/
def processRound
    (job : Nat)
    (now : UInt64) : ServiceProc L τ (Unit ⊕ ReturnCode) := do
  let service ← Proc.get
  match ← pollSources plugins (service.binding job).sources [] false with
  | .error error => return .inr (.error error)
  | .ok (merged, cont) =>
      match ← emitMerged plugins job now merged with
      | .error error => return .inr (.error error)
      | .ok () =>
          if cont then return .inl ()
          else return .inr ReturnCode.success

/-- `ServiceImpl::processEvent`. -/
def processEvent (job : Nat) : ServiceProc L τ ReturnCode := do
  let service ← Proc.get
  if (service.binding job).sources.isEmpty then
    return ReturnCode.success
  let now ← wallClock .wallClock
  Proc.iterate .round react (fun _ => processRound plugins job now) ()

/-- The end of a pass of the main loop: process the binding at the head of the
queue, which was found due at `now`, and put it back with its next tick. -/
def processJob (job : Nat) (now : UInt64) : ServiceProc L τ Unit := do
  Proc.call (.process job) fun entry service =>
    ((), onSchedule (logStart job now) (react entry service))
  -- A failure of `processEvent` is only reported to the log.
  let _ ← processEvent plugins job
  Proc.modify (onSchedule eraseBegin)
  let now ← monotonicNow .doneClock
  Proc.modify (onSchedule (logFinish job now))
  Proc.modify (onSchedule (advanceTick job))
  Proc.modify (onSchedule (skipSamples job now))
  Proc.modify (onSchedule (insertJob job))

/-- One pass of the main loop: go on, or return. -/
def runPass : ServiceProc L τ (Unit ⊕ ReturnCode) := do
  let now ← monotonicNow .headClock
  let service ← Proc.get
  let job := service.queue.headD 0
  let sleep := service.nextTick job - now
  let ready ← select now (Timeval.ofMicros sleep)
  if 0 < ready.rc ∧ ready.wakeup then
    return .inr ReturnCode.success
  if 0 < ready.rc ∧ 0 < service.listenFd ∧ ready.listen then
    return .inl ()
  let now ← monotonicNow .dueClock
  let service ← Proc.get
  if now < service.nextTick job then
    return .inl ()
  processJob plugins job now
  return .inl ()

/-- `ServiceImpl::run`. -/
def run : ServiceProc L τ ReturnCode := do
  let service ← Proc.get
  if service.queue.length = 0 then
    return ReturnCode.success
  Proc.iterate .head react (fun _ => runPass plugins) ()

omit [World τ] in
/-- `ServiceImpl::~ServiceImpl`: sources first, then targets. -/
def destroy : ServiceProc L τ Unit := do
  let service ← Proc.get
  service.eventBindings.forM fun binding =>
    binding.sources.forM fun source =>
      onWorld ((plugins.source source.plugin).pluginDetach source.userdata)
  service.targets.forM fun target =>
    onWorld ((plugins.output target.plugin).pluginDetach target.userdata)

/-- A call of the service's owner before it runs the service. -/
inductive Setup
  | addEvent (config : EventConfig)
  | addTarget (config : TargetConfig)
  deriving DecidableEq, Repr

/-- Make the calls that set the service up. -/
def setUp (calls : List Setup) : ServiceProc L τ Unit :=
  calls.forM fun
    | .addEvent config => do let _ ← addEvent plugins config
    | .addTarget config => do let _ ← addTarget plugins config

/-- The life of a service: it is set up, run and destroyed. -/
def serve (calls : List Setup) : ServiceProc L τ ReturnCode := do
  setUp plugins calls
  let rc ← run plugins
  destroy plugins
  return rc

end Functions

end Service
end EvCollect
