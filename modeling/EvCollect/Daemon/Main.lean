import EvCollect.Config.Parser
import EvCollect.Daemon.AtLeastOnce
import EvCollect.Daemon.Flags
import EvCollect.Daemon.PidFile
import EvCollect.Plugin.Safety

/-!
# The program of the daemon

`main` of the daemon behind its flags: it loads the configuration, sets the
service up, becomes a daemon, writes the pid file, runs the service and takes
everything down again.
-/

namespace EvCollect
namespace Daemon

open Config Process Service Logfile Plugin

/-! ## The configuration -/

/-- A `ProcessConfig` with its directories. -/
structure DaemonConfig extends ProcessConfig where
  spoolDir : Bytes := []
  pluginDir : Bytes := []
  deriving DecidableEq, Repr

/-- A source without a value. -/
def plainSource
    (pluginName : Bytes)
    (properties : List (Bytes × List Bytes)) : EventSourceConfig where
  pluginName := pluginName
  pluginValue := []
  properties := { properties := properties }

/-- A `route` property. -/
def route (eventName table : Bytes) : Bytes × List Bytes :=
  (bytes "route", [eventName, table])

/-- `loadConfig`, which does not look at the file. -/
def loadConfig
    (_configFilePath : Bytes)
    (conf : DaemonConfig) : ReturnCode × DaemonConfig :=
  (ReturnCode.success,
    { conf with
      loadPlugins := conf.loadPlugins ++
        [bytes "./plugins/hostname/.libs/plugin_hostname.so",
          bytes "./plugins/eventql/.libs/plugin_eventql.so"]
      eventBindings := conf.eventBindings ++
        [{ eventName := bytes "sys.alive"
           intervalMicros := 1000000
           sources := [plainSource (bytes "hostname") []] },
          { eventName := bytes "logs.access_log"
            intervalMicros := 1000000
            sources := [plainSource (bytes "logfile")
              [(bytes "logfile", [bytes "/tmp/log"]),
                (bytes "regex", [bytes "(?<fuu>[^\\|]*)?(?<bar>.*)"])]] }]
      targetBindings := conf.targetBindings ++
        [{ pluginName := bytes "eventql"
           pluginValue := []
           properties := { properties :=
             [route (bytes "logs.access_log") (bytes "test/logs.access_log"),
               route (bytes "sys.alive") (bytes "test/sys.alive"),
               route (bytes "sys.alive") (bytes "test/sys.alive.rollup")] } }] })

/-! ## The process -/

/-- What the program depends on: the libraries, the hash of a file name, the
regular expression library and its process number. -/
structure Machine where
  linker : Linker
  sha1 : Bytes → Bytes
  compile : PcreCompile
  pid : PidFile.Pid

/-- The program points of `main`. -/
inductive MainPoint
  | service (point : Point (LogPoint ⊕ LibraryPoint))
  | daemon
  | openPidfile (path : Bytes)
  | flockPidfile (fd : Int)
  | ftruncatePidfile (fd : Int)
  | writePidfile (fd : Int)
  | unlinkPidfile (path : Bytes)
  | unlockPidfile (fd : Int)
  | closePidfile (fd : Int)
  deriving DecidableEq, Repr

/-- The variables of `main` that outlive its setup. -/
structure Main where
  service : ServiceImpl (Reader × Runtime)
  pidfileFd : Int := -1
  /-- History: what has been done with the pid file. -/
  pidCalls : List PidFile.Action := []

/-- A process of `main`. -/
abbrev MainProc (α : Type) := Proc Entry MainPoint Main α

/-- Run a function of the service. -/
def onService
    (process : ServiceProc (LogPoint ⊕ LibraryPoint) (Reader × Runtime) α) :
    MainProc α :=
  Proc.zoom Main.service (fun service main => { main with service := service })
    MainPoint.service process

/-- A system call of `main`. -/
def systemCall
    (point : MainPoint)
    (effect : Entry → Main → α × Main) : MainProc α :=
  Proc.call point fun entry main =>
    effect entry { main with service := react entry main.service }

/-- A system call that has to do with the pid file. -/
def pidfileCall
    (point : MainPoint)
    (answer : Entry → α × PidFile.Action) : MainProc α :=
  systemCall point fun entry main =>
    ((answer entry).1,
      { main with pidCalls := main.pidCalls ++ [(answer entry).2] })

/-- Keep the descriptor of the pid file. -/
def setPidfileFd (fd : Int) : MainProc Unit :=
  Proc.modify fun main => { main with pidfileFd := fd }

/-- Close the pid file after a failure. -/
def failPidfile (text : Bytes) : MainProc ReturnCode := do
  setPidfileFd (-1)
  return ReturnCode.makeErrorf "IO_ERROR" text

/-- Make calls, up to the first that fails. -/
def whileSuccess
    (call : β → Proc ε L σ ReturnCode) :
    List β → ReturnCode → Proc ε L σ ReturnCode
  | [], rc => pure rc
  | item :: rest, rc =>
      if ReturnCode.isSuccess rc then do
        let rc ← call item
        whileSuccess call rest rc
      else pure rc

/-- Go on unless something has failed. -/
def ifSuccess
    (rc : ReturnCode)
    (next : Proc ε L σ ReturnCode) : Proc ε L σ ReturnCode :=
  if ReturnCode.isSuccess rc then next else pure rc

/-- `daemonize`. -/
def daemonize : MainProc ReturnCode := do
  let result ← systemCall .daemon fun entry main => (entry.result, main)
  if result < 0 then
    return ReturnCode.makeErrorf "INIT_FAIL" (bytes "daemon() failed")
  else return ReturnCode.success

section

variable (machine : Machine)

/-- The plugins of a service. -/
def servicePlugins
    (spoolDir : Bytes) : Plugins (LogPoint ⊕ LibraryPoint) (Reader × Runtime) :=
  withLogfile
    { sha1 := machine.sha1, compile := machine.compile, spoolDir := spoolDir }
    (dynamicPlugins machine.linker)

/-- Run a function that deals with the plugins of libraries. -/
def onRuntime (process : LibraryProc α) :
    ServiceProc (LogPoint ⊕ LibraryPoint) (Reader × Runtime) α :=
  onWorld (elsewhere process)

/-- `Service::createService`. -/
def createService (spoolDir : Bytes) :
    ServiceProc (LogPoint ⊕ LibraryPoint) (Reader × Runtime) Unit :=
  Proc.modify fun service =>
    { service with
      world := (service.world.1, { pluginMap := { spoolDir := spoolDir } }) }

/-- The loops that set the service up. -/
def setUpService (conf : DaemonConfig) :
    ServiceProc (LogPoint ⊕ LibraryPoint) (Reader × Runtime) ReturnCode := do
  let rc ← whileSuccess
    (fun plugin => onRuntime (loadPlugin machine.linker conf.pluginDir plugin))
    conf.loadPlugins ReturnCode.success
  let rc ← whileSuccess (addEvent (servicePlugins machine conf.spoolDir))
    conf.eventBindings rc
  whileSuccess (addTarget (servicePlugins machine conf.spoolDir))
    conf.targetBindings rc

/-- `ServiceImpl::~ServiceImpl` and the destructors of its members. The context
is destroyed before the plugin map. -/
def destroyService (spoolDir : Bytes) :
    ServiceProc (LogPoint ⊕ LibraryPoint) (Reader × Runtime) Unit := do
  destroy (servicePlugins machine spoolDir)
  onRuntime (Proc.modify fun runtime => { runtime with contextAlive := false })
  onRuntime (destroyMap machine.linker)

/-- Write the pid file. -/
def writePidfile (path : Bytes) : MainProc ReturnCode := do
  let pid := PidFile.pidText machine.pid
  let (fd, strerror) ← pidfileCall (.openPidfile path) fun entry =>
    ((entry.result, entry.reply), .openFile machine.pid entry.result)
  setPidfileFd fd
  if fd < 0 then
    return ReturnCode.makeErrorf "IO_ERROR"
      (bytes "writing pidfile failed: " ++ cString strerror)
  let granted ← pidfileCall (.flockPidfile fd) fun entry =>
    (decide (0 ≤ entry.result),
      .flock machine.pid (decide (0 ≤ entry.result)))
  if !granted then
    return ← failPidfile (bytes "locking pidfile failed")
  let truncated ← pidfileCall (.ftruncatePidfile fd) fun entry =>
    (decide (0 ≤ entry.result),
      .ftruncate machine.pid (decide (0 ≤ entry.result)))
  if !truncated then
    return ← failPidfile (bytes "writing pidfile failed")
  let count ← pidfileCall (.writePidfile fd) fun entry =>
    (min entry.result pid.length,
      .write machine.pid (min entry.result pid.length))
  if count ≠ pid.length then
    return ← failPidfile (bytes "writing pidfile failed")
  return ReturnCode.success

/-- Unlock the pid file. -/
def removePidfile (path : Bytes) : MainProc Unit := do
  let main ← Proc.get
  if 0 < main.pidfileFd then
    pidfileCall (.unlinkPidfile path) fun entry =>
      ((), .unlink machine.pid (decide (0 ≤ entry.result)))
    pidfileCall (.unlockPidfile main.pidfileFd) fun _ =>
      ((), .unlock machine.pid)
    pidfileCall (.closePidfile main.pidfileFd) fun _ =>
      ((), .close machine.pid)

/-- `main`, once it has its configuration. -/
def serveConfig (flags : Flags) (conf : DaemonConfig) : MainProc Nat := do
  onService (createService conf.spoolDir)
  let rc ← onService (setUpService machine conf)
  let rc ← ifSuccess rc
    (if flags.daemonize then daemonize else pure ReturnCode.success)
  let rc ← ifSuccess rc
    (if flags.pidfile.isEmpty then pure ReturnCode.success
    else writePidfile machine flags.pidfile)
  let rc ← ifSuccess rc (onService (run (servicePlugins machine conf.spoolDir)))
  onService (destroyService machine conf.spoolDir)
  removePidfile machine flags.pidfile
  return if ReturnCode.isSuccess rc then 0 else 1

/-- `main` behind its flags. -/
def main (flags : Flags) : MainProc Nat :=
  if flags.version || flags.help then pure 0
  else if flags.config.isEmpty then pure 1
  else
    match loadConfig flags.config { pluginDir := flags.pluginPath } with
    | (.error _, _) => pure 1
    | (.ok (), conf) =>
        let conf := { conf with spoolDir := flags.spoolDir.getD conf.spoolDir }
        if conf.spoolDir.isEmpty then pure 1
        else
          serveConfig machine flags
            { conf with loadPlugins := conf.loadPlugins ++ flags.plugins }

end

end Daemon
end EvCollect
