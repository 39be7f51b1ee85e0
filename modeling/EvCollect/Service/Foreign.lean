import EvCollect.Service.Defs

/-!
# Plugins outside of the modelled ones

A plugin that the daemon loads from a shared object, or a script that it runs,
can do anything between two calls and answer anything. Its functions are single
system calls that read their answers off the script.
-/

namespace EvCollect
namespace Service

open Process

/-- The calls into a plugin map and a plugin. -/
inductive ForeignCall
  | getPlugin
  | pluginAttach
  | pluginDetach
  | pluginGetNextEvent
  | pluginHasPendingEvent
  | pluginEmitEvent
  deriving DecidableEq, Repr

variable {L τ : Type} [World τ]

/-- What a plugin function of the outside returns. -/
def foreignAnswer (entry : Entry) (value : α) : Except Error α :=
  if entry.result < 0 then ReturnCode.makeError "EPLUGIN" entry.reply
  else .ok value

/-- A call whose answer is read off the script. -/
def foreignCall
    (point : L)
    (answer : Entry → α) : Proc Entry L τ α :=
  Proc.call point fun entry world => (answer entry, World.react entry world)

/-- A source plugin of the outside. -/
def foreignSource (label : ForeignCall → L) : SourcePlugin L τ where
  pluginAttach := fun _ => foreignCall (label .pluginAttach) fun entry =>
    foreignAnswer entry entry.result.toNat
  pluginDetach := fun _ => foreignCall (label .pluginDetach) fun _ => ()
  pluginGetNextEvent := fun _ _ =>
    foreignCall (label .pluginGetNextEvent) fun entry =>
      foreignAnswer entry entry.reply
  pluginHasPendingEvent := fun _ =>
    foreignCall (label .pluginHasPendingEvent) Entry.more

/-- An output plugin of the outside. -/
def foreignOutput (label : ForeignCall → L) : OutputPlugin L τ where
  pluginAttach := fun _ => foreignCall (label .pluginAttach) fun entry =>
    foreignAnswer entry entry.result.toNat
  pluginDetach := fun _ => foreignCall (label .pluginDetach) fun _ => ()
  pluginEmitEvent := fun _ _ =>
    foreignCall (label .pluginEmitEvent) fun entry => foreignAnswer entry ()

/-- A plugin map that knows plugins of the outside only. -/
def foreignPlugins (label : ForeignCall → L) : Plugins L τ where
  getSourcePlugin := fun _ => foreignCall (label .getPlugin) fun entry =>
    foreignAnswer entry entry.result.toNat
  getOutputPlugin := fun _ => foreignCall (label .getPlugin) fun entry =>
    foreignAnswer entry entry.result.toNat
  source := fun _ => foreignSource label
  output := fun _ => foreignOutput label

/-- A world in which nothing is kept. -/
instance : World Unit where
  react := fun _ _ => ()

end Service
end EvCollect
