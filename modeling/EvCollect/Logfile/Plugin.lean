import EvCollect.Logfile.Frame
import EvCollect.Service.Stopping

/-!
# The logfile plugin

`LogfileSourcePlugin`, whose user data is the log reader, and the plugin map of
a daemon in which it stands beside any other plugins.
-/

namespace EvCollect
namespace Logfile

open Process Service

/-- What the plugin depends on: the hash of a file name, the regular expression
library, and the spool directory that it was initialised with. -/
structure PluginSetup where
  sha1 : Bytes → Bytes
  compile : PcreCompile
  spoolDir : Bytes

/-- `LogfileSourcePlugin::pluginAttach`. -/
def pluginAttach
    (setup : PluginSetup)
    (config : PropertyList) : ReaderProc (Except Error Userdata) := do
  match config.get (bytes "logfile") with
  | none =>
      return ReturnCode.makeError "EINVAL" (bytes "logfile needs a filename")
  | some filename =>
      Proc.modify (construct
        (LogfileSource.create setup.sha1 filename setup.spoolDir))
      let _ ← readCheckpoint
      match config.get (bytes "regex") with
      | none => return .ok 0
      | some regex =>
          let reader ← Proc.get
          let result := reader.source.setRegex setup.compile regex
          Proc.modify (Reader.onSource fun _ => result.2)
          return result.1.map fun _ => 0

/-- `LogfileSourcePlugin::pluginDetach`. -/
def pluginDetach : ReaderProc Unit := do
  let _ ← writeCheckpoint

/-- `LogfileSourcePlugin`. There is one log reader. -/
def logfileSource (setup : PluginSetup) : SourcePlugin LogPoint Reader where
  pluginAttach := pluginAttach setup
  pluginDetach := fun _ => pluginDetach
  pluginGetNextEvent := fun _ => getNextEvent
  pluginHasPendingEvent := fun _ => hasNextLine

/-! ## The plugin map -/

instance {ρ : Type} [World ρ] : World (Reader × ρ) where
  react := fun entry world =>
    (World.react entry world.1, World.react entry world.2)

section Map

variable {L ρ : Type}

/-- Run a function of another plugin. -/
def elsewhere (process : Proc Entry L ρ α) :
    Proc Entry (LogPoint ⊕ L) (Reader × ρ) α :=
  Proc.onSecond World.react Sum.inr process

/-- Run a function of the log reader. -/
def onReader [World ρ] (process : ReaderProc α) :
    Proc Entry (LogPoint ⊕ L) (Reader × ρ) α :=
  Proc.onFirst World.react Sum.inl process

/-- Another source plugin beside the log reader. -/
def besideSource (plugin : SourcePlugin L ρ) :
    SourcePlugin (LogPoint ⊕ L) (Reader × ρ) where
  pluginAttach := fun config => elsewhere (plugin.pluginAttach config)
  pluginDetach := fun userdata => elsewhere (plugin.pluginDetach userdata)
  pluginGetNextEvent := fun userdata buffer =>
    elsewhere (plugin.pluginGetNextEvent userdata buffer)
  pluginHasPendingEvent := fun userdata =>
    elsewhere (plugin.pluginHasPendingEvent userdata)

/-- An output plugin beside the log reader. -/
def besideOutput (plugin : OutputPlugin L ρ) :
    OutputPlugin (LogPoint ⊕ L) (Reader × ρ) where
  pluginAttach := fun config => elsewhere (plugin.pluginAttach config)
  pluginDetach := fun userdata => elsewhere (plugin.pluginDetach userdata)
  pluginEmitEvent := fun userdata event =>
    elsewhere (plugin.pluginEmitEvent userdata event)

/-- The plugin map of a daemon: the logfile plugin is registered as the source
plugin zero, and any other plugins follow. -/
def withLogfile
    [World ρ]
    (setup : PluginSetup)
    (others : Plugins L ρ) : Plugins (LogPoint ⊕ L) (Reader × ρ) where
  getSourcePlugin := fun name =>
    if name = bytes "logfile" then pure (.ok 0)
    else do
      let found ← elsewhere (others.getSourcePlugin name)
      return found.map (· + 1)
  getOutputPlugin := fun name => elsewhere (others.getOutputPlugin name)
  source := fun
    | 0 =>
        { pluginAttach := fun config =>
            onReader ((logfileSource setup).pluginAttach config)
          pluginDetach := fun userdata =>
            onReader ((logfileSource setup).pluginDetach userdata)
          pluginGetNextEvent := fun userdata buffer =>
            onReader ((logfileSource setup).pluginGetNextEvent userdata buffer)
          pluginHasPendingEvent := fun userdata =>
            onReader ((logfileSource setup).pluginHasPendingEvent userdata) }
    | ref + 1 => besideSource (others.source ref)
  output := fun ref => besideOutput (others.output ref)

/-- The main loop does not look ahead if the plugins beside the log reader do
not. -/
theorem withLogfile_causal
    [World ρ]
    {others : Plugins L ρ}
    (setup : PluginSetup)
    (causal : CausalPlugins others) :
    CausalPlugins (withLogfile setup others) where
  nextEvent := by
    intro ref userdata buffer
    cases ref with
    | zero => exact (getNextEvent_causal buffer).onFirst _ _
    | succ ref => exact (causal.nextEvent ref userdata buffer).onSecond _ _
  pendingEvent := by
    intro ref userdata
    cases ref with
    | zero => exact hasNextLine_causal.onFirst _ _
    | succ ref => exact (causal.pendingEvent ref userdata).onSecond _ _
  emitEvent := fun ref userdata event =>
    (causal.emitEvent ref userdata event).onSecond _ _

end Map

end Logfile
end EvCollect
