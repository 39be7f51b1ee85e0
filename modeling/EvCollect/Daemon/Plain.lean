import EvCollect.Logfile.Plugin
import EvCollect.Logfile.Polling
import EvCollect.Logfile.Recovery
import EvCollect.Service.Uphold

/-!
# A log reader without a regular expression

Without the option for one a log reader never gets a regular expression, and
what other plugins uphold they uphold beside it.
-/

namespace EvCollect
namespace Daemon

open Process Service Logfile

/-- Between two calls, a log reader without a regular expression. -/
structure Plain (reader : Reader) : Prop where
  noRegex : reader.source.pcreHandle = none
  settled : reader.Settled

variable {reader : Reader}
variable {setup : PluginSetup}

theorem Plain.react
    (plain : Plain reader)
    (entry : Entry) :
    Plain (World.react entry reader) :=
  ⟨plain.noRegex, plain.settled.1, plain.settled.2⟩

/-! ## The functions of the log reader -/

theorem pluginAttach_plain
    (config : PropertyList)
    (noRegex : config.get (bytes "regex") = none) :
    Keeps Plain (pluginAttach setup config) := by
  intro reader plain
  unfold pluginAttach
  split
  · exact wp_pure plain
  next filename _ =>
    rw [noRegex]
    refine wp_bind (wp_modify (wp_bind (readCheckpoint_spec
      (fun _ _ _ _ _ => trivial) ?_)))
    intro _ after synced position _ _
    exact wp_pure ⟨rfl, rfl, le_refl _⟩

theorem Polling.plain
    {after : Reader}
    (plain : Plain reader)
    (polling : Polling reader after)
    (settled : after.Settled) :
    Plain after :=
  ⟨polling.pcreHandle.trans plain.noRegex, settled⟩

theorem pluginDetach_plain : Keeps Plain Logfile.pluginDetach := by
  intro reader plain
  apply wp_mono (pluginDetach_inside plain.settled) (fun _ _ _ => trivial)
  rintro _ after ⟨polling, returned, same⟩
  exact Polling.plain plain polling
    ⟨returned.trans (by rw [same]), polling.written⟩

theorem getNextEvent_plain : Keeps Plain (getNextEvent []) := by
  intro reader plain
  apply wp_mono (getNextEvent_polls plain.settled) (fun _ _ _ => trivial)
  rintro _ after ⟨polling, settled, _⟩
  exact Polling.plain plain polling settled

theorem hasNextLine_plain : Keeps Plain hasNextLine := by
  intro reader plain
  apply wp_mono (hasNextLine_readsOnly.wp_inside plain.settled)
    (fun _ _ _ => trivial)
  rintro _ after ⟨⟨polling, _⟩, settled⟩
  exact Polling.plain plain polling settled

/-! ## Beside other plugins -/

variable {L ρ : Type} [World ρ]
variable {others : Plugins L ρ}
variable {kept : Reader → Prop}
variable {holds : ρ → Prop}

/-- A function of the log reader, beside what is stable. -/
theorem keeps_onReader
    {process : ReaderProc α}
    (keeps : Keeps kept process)
    (stable : ∀ entry other, holds other → holds (World.react entry other)) :
    Keeps (fun world : Reader × ρ => kept world.1 ∧ holds world.2)
      (onReader process : Proc Entry (LogPoint ⊕ L) (Reader × ρ) α) := by
  rintro world ⟨first, second⟩
  exact wp_onFirst holds (keeps world.1 first) stable second
    (fun _ _ _ _ _ => trivial) fun _ _ _ after still => ⟨after, still⟩

omit [World ρ] in
/-- A function of another plugin, beside a log reader. -/
theorem wp_beside
    {process : Proc Entry L ρ α}
    {post : α → ρ → Prop}
    {world : Reader × ρ}
    (valid : wp (fun _ _ => True) process post world.2)
    (plain : Plain world.1) :
    wp (fun _ _ => True) (elsewhere process)
      (fun value after => Plain after.1 ∧ post value after.2) world :=
  wp_onSecond Plain valid (fun entry _ still => still.react entry) plain
    (fun _ _ _ _ _ => trivial) fun _ _ _ after still => ⟨still, after⟩

omit [World ρ] in
theorem keeps_elsewhere
    {process : Proc Entry L ρ α}
    (keeps : Keeps holds process) :
    Keeps (fun world : Reader × ρ => Plain world.1 ∧ holds world.2)
      (elsewhere process) := by
  rintro world ⟨first, second⟩
  exact wp_beside (keeps world.2 second) first

/-- What other plugins uphold they uphold beside the log reader, which stays
without a regular expression. -/
theorem upheld_withLogfile
    {admits : PropertyList → Prop}
    {holds : List TargetBinding → List (Nat × EventData) → ρ → Prop}
    (upheld : Upheld others admits holds) :
    Upheld (withLogfile setup others)
      (fun config => admits config ∧ config.get (bytes "regex") = none)
      (fun targets offered world =>
        Plain world.1 ∧ holds targets offered world.2) where
  react := fun _ _ entry _ ⟨plain, still⟩ =>
    ⟨plain.react entry, upheld.react _ _ entry _ still⟩
  getSourcePlugin := by
    rintro name targets offered world ⟨plain, still⟩
    unfold Logfile.withLogfile
    dsimp only
    split
    · exact wp_pure ⟨plain, still⟩
    · exact wp_seq (keeps_elsewhere (upheld.getSourcePlugin name _ _) world
        ⟨plain, still⟩) fun _ _ after => wp_pure after
  getOutputPlugin := fun name targets offered =>
    keeps_elsewhere (upheld.getOutputPlugin name _ _)
  attachSource := by
    rintro ref config targets offered ⟨admitted, noRegex⟩
    cases ref with
    | zero =>
        exact keeps_onReader (pluginAttach_plain config noRegex)
          fun entry _ => upheld.react _ _ entry _
    | succ ref => exact keeps_elsewhere (upheld.attachSource ref _ _ _ admitted)
  detachSource := by
    intro ref userdata targets offered
    cases ref with
    | zero =>
        exact keeps_onReader pluginDetach_plain
          fun entry _ => upheld.react _ _ entry _
    | succ ref => exact keeps_elsewhere (upheld.detachSource ref _ _ _)
  getNextEvent := by
    intro ref userdata targets offered
    cases ref with
    | zero =>
        exact keeps_onReader getNextEvent_plain
          fun entry _ => upheld.react _ _ entry _
    | succ ref => exact keeps_elsewhere (upheld.getNextEvent ref _ _ _)
  hasPendingEvent := by
    intro ref userdata targets offered
    cases ref with
    | zero =>
        exact keeps_onReader hasNextLine_plain
          fun entry _ => upheld.react _ _ entry _
    | succ ref => exact keeps_elsewhere (upheld.hasPendingEvent ref _ _ _)
  attachOutput := by
    rintro ref config targets world ⟨plain, still⟩
    apply wp_mono (wp_beside (upheld.attachOutput ref config targets world.2
      still) plain) (fun _ _ _ => trivial)
    rintro result after ⟨kept, attached⟩
    cases result with
    | error failure => exact ⟨kept, attached⟩
    | ok userdata => exact ⟨kept, attached⟩
  emitEvent := fun ref userdata target event _ _ world ⟨plain, still⟩ =>
    wp_beside (upheld.emitEvent ref userdata target event _ _ world.2 still)
      plain

end Daemon
end EvCollect
