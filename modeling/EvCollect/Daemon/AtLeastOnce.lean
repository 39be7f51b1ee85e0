import EvCollect.Daemon.Setup
import EvCollect.Service.Foreign

/-!
# Every line at least once

A daemon with one log reader is started again and again on the disk that the one
before has left, which has crashed or exited. The checkpoint covers no line
whose event has not been given to every target, as long as no daemon crashes in
the middle of a round that has written a checkpoint for its own line.
-/

namespace EvCollect
namespace Daemon

open Process Service Logfile Text

variable {L ρ : Type} [World ρ]
variable {name : Bytes}
variable {handled : Lines}
variable {setup : PluginSetup}
variable {others : Plugins L ρ}
variable {service : ServiceImpl (Reader × ρ)}

/-! ## The teardown -/

/-- Detaching the log reader writes a checkpoint that covers all lines taken,
and the events of these have been given away. -/
theorem pluginDetach_balanced
    (balanced : (ledgerOf service).Balanced name handled) :
    wp (BooksAt L name handled) (onWorld (onReader pluginDetach))
      (fun _ after => ∃ world, after = { service with world := world } ∧
        (ledgerOf after).Balanced name handled) service := by
  obtain ⟨start, position, tracked⟩ := balanced.started
  have settled := balanced.settled
  have valid : wp (Held (startOf start position handled)) pluginDetach
      (fun _ after => Tracked (startOf start position handled) after)
      service.world.1 :=
    wp_seq (writeCheckpoint_tracked tracked) fun _ _ held => wp_pure held
  refine wp_onReader (wp_and valid (pluginDetach_inside settled)) ?_ ?_
  · rintro point reader other ⟨held, polling⟩
    exact balanced.polling polling ⟨start, position, held⟩
  · rintro _ reader other ⟨held, polling, returned, same⟩
    refine ⟨_, rfl, ⟨start, position, held⟩, ⟨?_, polling.written⟩, ?_⟩
    · change reader.history.returned = reader.history.taken.length
      rw [returned, same]
    · have emitted := balanced.emitted.polling polling
      change Ledger.Emitted _ name reader.history.taken.length
      rw [same]
      exact emitted

/-- The teardown leaves the books balanced. -/
theorem destroy_standing
    (standing : Standing name handled service) :
    wp (BooksAt L name handled) (destroy (withLogfile setup others))
      (fun _ after => Standing name handled after) service := by
  have keep : ∀ (state after : ServiceImpl (Reader × ρ)),
      Standing name handled state →
      (∃ world, after = { state with world := world } ∧
        (ledgerOf after).Balanced name handled) →
      Standing name handled after := by
    rintro state _ kept ⟨world, rfl, balanced⟩
    exact ⟨kept.bindings, balanced⟩
  refine destroy_carries (fun source state kept => ?_) (fun target state kept =>
    ?_) standing
  · obtain ⟨plugin, userdata⟩ := source
    cases plugin with
    | zero =>
        exact wp_mono (pluginDetach_balanced kept.balanced)
          (fun _ _ held => held) fun _ after => keep state after kept
    | succ ref =>
        exact wp_mono (elsewhere_balanced _ kept.balanced)
          (fun _ _ held => held) fun _ after => keep state after kept
  · exact wp_mono (elsewhere_balanced _ kept.balanced)
      (fun _ _ held => held) fun _ after => keep state after kept

/-! ## The life of a daemon -/

/-- A daemon before its setup: no source has been constructed. -/
def boot (disk : Disk) (other : ρ) : ServiceImpl (Reader × ρ) :=
  { world := ({ disk := disk, source := LogfileSource.create id [] [] }, other) }

/-- Everywhere in its life a daemon keeps the books. -/
theorem serve_books
    {disk : Disk}
    {calls : List Setup}
    (sound : disk.Sound handled)
    (fits : LogfileSetup name calls)
    (other : ρ) :
    wp (BooksAt L name handled) (serve (withLogfile setup others) calls)
      (fun _ after => (ledgerOf after).Balanced name handled)
      (boot disk other) := by
  have preparing : Preparing name handled (boot disk other) := by
    refine ⟨fun binding present => absurd present (List.not_mem_nil), ?_⟩
    exact unused_startAt true sound (LogfileSource.empty_create id [] [])
      (Or.inr rfl)
  refine wp_seq (setUp_preparing fits preparing) fun _ ready prepared => ?_
  have standing : Standing name handled ready :=
    ⟨prepared.bindings, prepared.unused.balanced⟩
  refine wp_seq (standing_carried.run standing) fun _ stopped kept => ?_
  exact wp_seq (destroy_standing kept) fun _ _ held => wp_pure held.balanced

/-- Daemons that run one after the other on one disk, and the lines that have
been dealt with altogether: the targets have been given their events, or the
events are empty. No daemon crashes inside of a plugin while the last line
taken, whose event is not empty, is one for which a checkpoint has been written
in its own call. -/
inductive Succession
    (setup : PluginSetup)
    (others : Plugins L ρ)
    (name : Bytes) : Disk → Lines → Prop
  | first
      (disk : Disk)
      (absent : disk.checkpoint = none) :
      Succession setup others name disk fun _ _ _ => False
  | crash
      {disk : Disk}
      {handled : Lines}
      {other : ρ}
      {calls : List Setup}
      {point : Point (LogPoint ⊕ L)}
      {service : ServiceImpl (Reader × ρ)}
      (before : Succession setup others name disk handled)
      (fits : LogfileSetup name calls)
      (reached : Reaches (serve (withLogfile setup others) calls)
        (boot disk other) point service)
      (guarded : ∀ inner, point = .plugin inner → ¬(ledgerOf service).Exposed) :
      Succession setup others name service.world.1.disk
        fun inode position raw => handled inode position raw ∨
          (ledgerOf service).Handled name inode position raw
  | exit
      {disk : Disk}
      {handled : Lines}
      {other : ρ}
      {calls : List Setup}
      {rc : ReturnCode}
      {service : ServiceImpl (Reader × ρ)}
      (before : Succession setup others name disk handled)
      (fits : LogfileSetup name calls)
      (ended : Ends (serve (withLogfile setup others) calls)
        (boot disk other) rc service) :
      Succession setup others name service.world.1.disk
        fun inode position raw => handled inode position raw ∨
          (ledgerOf service).Handled name inode position raw

/-- After any number of crashes and exits the disk is sound. -/
theorem Succession.sound
    {disk : Disk}
    (succession : Succession setup others name disk handled) :
    disk.Sound handled := by
  induction succession with
  | first disk absent => exact sound_of_no_checkpoint absent
  | @crash disk handled other calls point service before fits reached guarded
      inductionHypothesis =>
      have books := (serve_books inductionHypothesis fits other).reaches reached
      cases point with
      | plugin inner => exact Ledger.Pending.sound books (guarded inner rfl)
      | _ => exact Ledger.Balanced.sound books
  | @exit disk handled other calls rc service before fits ended
      inductionHypothesis =>
      exact Ledger.Balanced.sound
        ((serve_books inductionHypothesis fits other).ends ended)

/-- Each line of the current file before the position in the checkpoint file
has been dealt with. -/
theorem checkpoint_behind_emission
    {disk : Disk}
    (succession : Succession setup others name disk handled)
    (appended : disk.truncated = false)
    (current : disk.path = some disk.saved.1) :
    Boundary 0x0a (disk.files disk.saved.1) disk.saved.2.toNat ∧
      ∀ position raw,
        RecordAt 0x0a ((disk.files disk.saved.1).take disk.saved.2.toNat)
          position raw →
        handled disk.saved.1 position raw :=
  succession.sound.2 appended (Or.inl current)

/-! ## A daemon with one target -/

/-- A target, and a binding with one log reader. -/
def oneLogfile (target : TargetConfig) : List Setup :=
  [.addTarget target,
    .addEvent
      { eventName := bytes "line"
        intervalMicros := 1000000
        sources :=
          [{ pluginName := bytes "logfile"
             pluginValue := []
             properties :=
               { properties := [(bytes "logfile", [bytes "log"])] } }] }]

theorem logfileSetup_oneLogfile (target : TargetConfig) :
    LogfileSetup (bytes "line") (oneLogfile target) where
  single := by
    change (List.filter _ [_]).length ≤ 1
    exact List.length_filter_le _ _
  last := by
    intro config present source inside
    simp only [oneLogfile, List.mem_cons, List.not_mem_nil, or_false,
      reduceCtorEq, false_or, Setup.addEvent.injEq] at present
    subst present
    cases inside
  named := by
    intro config present _
    simp only [oneLogfile, List.mem_cons, List.not_mem_nil, or_false,
      reduceCtorEq, false_or, Setup.addEvent.injEq] at present
    rw [present]

/-- A target of a plugin from outside. -/
def outsideTarget : TargetConfig where
  pluginName := bytes "other"
  pluginValue := []
  properties := { properties := [] }

/-- A setup without regular expressions. -/
def plainSetup : PluginSetup where
  sha1 := id
  compile := fun _ => .error []
  spoolDir := bytes "spool"

/-- A disk that holds a log file with one line, and no checkpoint. -/
def oneLine : Disk :=
  oneFile (bytes "a\n") (by decide)

/-- A daemon on that disk. -/
def atOneLine : ServiceImpl (Reader × Unit) :=
  boot oneLine ()

/-- The plugins of that daemon. -/
def outside : Plugins ForeignCall Unit :=
  foreignPlugins id

/-- The setup, and a pass of the main loop that processes the line at a given
time, up to one of its calls. -/
def lineScript (calls : Nat) (wall : UInt64) : List Entry :=
  List.replicate 4 ({} : Entry) ++
    List.replicate calls { monotonic := 2000000, wall := wall }

/-- The line has been given to the target, and the daemon has been told to stop
and crashes when the log reader has been detached. -/
def crashedAtDetach : ServiceImpl (Reader × Unit) :=
  (serve (withLogfile plainSetup outside) (oneLogfile outsideTarget)
    (lineScript 22 0 ++ List.replicate 7 { killed := true }) atOneLine).state

theorem checkpoint_behind_emission_atDetach :
    crashedAtDetach.world.1.disk.saved = (1, 2) ∧
      (ledgerOf crashedAtDetach).Handled (bytes "line") 1 0
        (bytes "a\n") := by
  have reached : Reaches (serve (withLogfile plainSetup outside)
      (oneLogfile outsideTarget)) atOneLine (.plugin (.inr .pluginDetach))
      crashedAtDetach :=
    reaches_of_point _ _ _ (by decide +kernel)
  have guarded : ¬(ledgerOf crashedAtDetach).Exposed :=
    Ledger.not_exposed (by decide +kernel)
  have succession : Succession plainSetup outside (bytes "line")
      crashedAtDetach.world.1.disk fun inode position raw =>
        False ∨ (ledgerOf crashedAtDetach).Handled (bytes "line") inode
          position raw :=
    .crash (.first _ rfl) (logfileSetup_oneLogfile _) reached fun _ _ => guarded
  have saved : crashedAtDetach.world.1.disk.saved = (1, 2) := by
    decide +kernel
  have text : (crashedAtDetach.world.1.disk.files 1).take (2 : UInt64).toNat =
      bytes "a\n" := by decide +kernel
  obtain ⟨_, dealtWith⟩ := checkpoint_behind_emission succession
    (by decide +kernel) (by decide +kernel)
  rw [saved] at dealtWith
  dsimp only at dealtWith
  rw [text] at dealtWith
  have line : RecordAt 0x0a (bytes "a\n") 0 (bytes "a\n") :=
    ⟨⟨bytes "a", rfl, by decide⟩, [], [], rfl, rfl, Or.inl rfl⟩
  exact ⟨saved, (dealtWith 0 (bytes "a\n") line).resolve_left id⟩

/-- The checkpoint that was never written is due in the call that takes the
line, and the daemon crashes behind it in that call. -/
def crashedInCall : ServiceImpl (Reader × Unit) :=
  (serve (withLogfile plainSetup outside) (oneLogfile outsideTarget)
    (lineScript 23 10000000) atOneLine).state

/-- The line is before the position in the checkpoint file, and the target has
not been given its event. -/
theorem checkpoint_ahead_of_emission :
    Reaches (serve (withLogfile plainSetup outside)
        (oneLogfile outsideTarget)) atOneLine
        (.plugin (.inl .checkpointClock)) crashedInCall ∧
      crashedInCall.world.1.disk.saved = (1, 2) ∧
      RecordAt 0x0a ((crashedInCall.world.1.disk.files 1).take 2) 0
        (bytes "a\n") ∧
      crashedInCall.world.1.source.lineEvent (bytes "a\n") =
        some (bytes "\x7b \"data\": \"a\" \x7d") ∧
      crashedInCall.targets.length = 1 ∧
      crashedInCall.offered = [] := by
  refine ⟨reaches_of_point _ _ _ (by decide), by decide,
    ⟨⟨bytes "a", rfl, by decide⟩, [], [], by decide, rfl, Or.inl rfl⟩,
    by decide, by decide, by decide⟩

end Daemon
end EvCollect
