import EvCollect.Daemon.Emission

/-!
# Setting the service up

While the service is set up its log reader is attached but not used, so that no
event is owed, and the bindings are as the configuration says.
-/

namespace EvCollect
namespace Daemon

open Process Service Logfile

variable {L ρ : Type} [World ρ]
variable {name : Bytes}
variable {handled : Lines}
variable {setup : PluginSetup}
variable {others : Plugins L ρ}
variable {service : ServiceImpl (Reader × ρ)}

/-- The calls that set the service up attach one log reader at most, as the last
source of an event with a given name. -/
structure LogfileSetup (name : Bytes) (calls : List Setup) : Prop where
  /-- The reader of this model stands for one source only. -/
  single : ((calls.flatMap fun
      | .addEvent config => config.sources
      | .addTarget _ => []).filter fun source =>
        source.pluginName == bytes "logfile").length ≤ 1
  last : ∀ config, .addEvent config ∈ calls →
    ∀ source ∈ config.sources.dropLast,
      source.pluginName ≠ bytes "logfile"
  named : ∀ config, .addEvent config ∈ calls →
    (∃ source ∈ config.sources, source.pluginName = bytes "logfile") →
    config.eventName = name

/-- A reader that has not been used, attached or not. -/
structure Unused
    (handled : Lines)
    (reader : Reader) : Prop where
  started : ∃ start position, Tracked (startOf start position handled) reader
  taken : reader.history.taken = []
  returned : reader.history.returned = 0
  written : reader.history.written = 0
  early : reader.history.early = []

theorem Unused.react
    {reader : Reader}
    (unused : Unused handled reader)
    (entry : Entry) :
    Unused handled (World.react entry reader) := by
  obtain ⟨start, position, tracked⟩ := unused.started
  exact ⟨⟨start, position, tracked.react entry⟩, unused.2, unused.3, unused.4,
    unused.5⟩

/-- An unused reader leaves the disk as it has found it. -/
theorem Unused.sound
    {reader : Reader}
    (unused : Unused handled reader) :
    reader.disk.Sound handled := by
  obtain ⟨start, position, tracked⟩ := unused.started
  refine (tracked.sound (by simp [unused.early])).mono ?_
  rintro inode position raw (before | ⟨earlier, later, took, _⟩)
  · exact before
  · rw [unused.taken, List.take_nil] at took
    simp at took

/-- Without lines nothing is owed. -/
theorem Unused.balanced
    {ledger : Ledger}
    (unused : Unused handled ledger.reader) :
    ledger.Balanced name handled := by
  refine ⟨unused.started, ⟨?_, ?_⟩, [], ?_, fun target _ => by simp⟩
  · rw [unused.returned, unused.taken]
    rfl
  · rw [unused.written]
    exact Nat.zero_le _
  · rw [unused.taken]
    simp

/-- A source that has just been constructed is unused, wherever it starts. -/
theorem unused_startAt
    {disk : Disk}
    {source : LogfileSource}
    {descriptor : Option Descriptor}
    {position : UInt64 × UInt64}
    (synced : Bool)
    (sound : disk.Sound handled)
    (empty : source.Empty)
    (start : position = disk.saved ∨ position = (0, 0)) :
    Unused handled (startAt position
      { disk := disk
        source := source
        descriptor := descriptor
        history := { synced := synced } }) :=
  { started := ⟨disk, position,
      tracked_startAt empty.2 empty.1 rfl sound start⟩
    taken := rfl
    returned := rfl
    written := rfl
    early := rfl }

/-- Attaching the log reader leaves it unused, whether it fails or not. -/
theorem pluginAttach_unused
    {reader : Reader}
    (config : PropertyList)
    (unused : Unused handled reader) :
    wp (fun _ after => Unused handled after) (pluginAttach setup config)
      (fun _ after => Unused handled after) reader := by
  unfold pluginAttach
  split
  · exact wp_pure unused
  next filename _ =>
    have sound := unused.sound
    have empty := LogfileSource.empty_create setup.sha1 filename setup.spoolDir
    refine wp_bind (wp_modify (wp_bind (readCheckpoint_spec ?_ ?_)))
    · intro point after synced grows _
      exact unused_startAt synced (sound.grows grows) empty (Or.inr rfl)
    · intro _ after synced position grows found
      have started : Unused handled (startAt position (Reader.past after synced
          (construct (LogfileSource.create setup.sha1 filename setup.spoolDir)
            reader))) :=
        unused_startAt synced (sound.grows grows) empty
          (found.imp_right And.right)
      split
      · exact wp_pure started
      next regex _ =>
        refine wp_bind (wp_get (wp_bind (wp_modify (wp_pure ?_))))
        obtain ⟨handle, fields, same⟩ := LogfileSource.setRegex_snd
          setup.compile regex (startAt position (Reader.past after synced
            (construct (LogfileSource.create setup.sha1 filename
              setup.spoolDir) reader))).source
        rw [same]
        obtain ⟨origin, base, tracked⟩ := started.started
        refine ⟨⟨origin, base, ?_⟩, started.2, started.3, started.4, started.5⟩
        exact tracked.onSource tracked.buffered rfl rfl rfl rfl

/-- What holds before the service runs. -/
structure Preparing
    (name : Bytes)
    (handled : Lines)
    (service : ServiceImpl (Reader × ρ)) : Prop where
  bindings : ∀ binding ∈ service.static, FitsLogfile name binding
  unused : Unused handled service.world.1

/-- Looking a source plugin up finds the log reader by its name only. -/
theorem getSourcePlugin_unused
    (pluginName : Bytes)
    (unused : Unused handled service.world.1) :
    wp (BooksAt L name handled)
      (onWorld ((withLogfile setup others).getSourcePlugin pluginName))
      (fun found after => ∃ world, after = { service with world := world } ∧
        Unused handled world.1 ∧
        ∀ ref ∈ found.toOption, ref = 0 ↔ pluginName = bytes "logfile")
      service := by
  unfold withLogfile
  dsimp only
  split
  next isLogfile =>
    refine wp_zoom (wp_pure ⟨_, rfl, unused, ?_⟩)
    intro ref known
    obtain rfl := Option.mem_some.mp known
    simp [isLogfile]
  next notLogfile =>
    refine wp_zoom (wp_bind (wp_onSecond (fun reader => Unused handled reader)
      (wp_trivial _ _) (fun entry _ kept => kept.react entry) unused ?_ ?_))
    · intro point other reader _ kept
      exact Ledger.Balanced.pending (Unused.balanced kept)
    · intro found other reader _ kept
      refine wp_pure ⟨_, rfl, kept, ?_⟩
      intro ref known
      cases found with
      | error failure => cases known
      | ok inner =>
          obtain rfl := Option.mem_some.mp known
          simp [notLogfile]

/-- Which of the attached sources are the log reader. -/
def SameKinds
    (configs : List EventSourceConfig)
    (attached : List EventSourceBinding) : Prop :=
  attached.map (fun source => decide (source.plugin = 0)) =
    configs.map fun config => decide (config.pluginName = bytes "logfile")

/-- Attaching the sources of an event leaves the log reader unused, and the
attached sources are of the kinds that the configuration says. -/
theorem attachSources_unused
    (sources done : List EventSourceConfig)
    (attached : List EventSourceBinding)
    (kinds : SameKinds done attached)
    (unused : Unused handled service.world.1) :
    wp (BooksAt L name handled)
      (attachSources (withLogfile setup others) sources attached)
      (fun result after => ∃ world, after = { service with world := world } ∧
        Unused handled world.1 ∧
        ∀ attached ∈ result.toOption, SameKinds (done ++ sources) attached)
      service := by
  induction sources generalizing done attached service with
  | nil =>
      refine wp_pure ⟨_, rfl, unused, ?_⟩
      intro last known
      obtain rfl := Option.mem_some.mp known
      rwa [List.append_nil]
  | cons source rest inductionHypothesis =>
      apply wp_seq (getSourcePlugin_unused source.pluginName unused)
      rintro found _ ⟨world, rfl, kept, kind⟩
      cases found with
      | error failure => exact wp_pure ⟨_, rfl, kept, by simp [Except.toOption]⟩
      | ok ref =>
          have isReader := kind ref rfl
          have attach : wp (BooksAt L name handled)
              (onWorld (((withLogfile setup others).source ref).pluginAttach
                source.properties))
              (fun _ after => ∃ later,
                after = { service with world := later } ∧
                  Unused handled later.1)
              { service with world := world } := by
            cases ref with
            | zero =>
                exact wp_onReader (pluginAttach_unused source.properties kept)
                  (fun _ _ _ held =>
                    Ledger.Balanced.pending (Unused.balanced held))
                  fun _ _ _ held => ⟨_, rfl, held⟩
            | succ ref =>
                exact wp_elsewhere (fun reader => Unused handled reader) _
                  (fun entry _ held => held.react entry) kept
                  (fun _ _ _ held =>
                    Ledger.Balanced.pending (Unused.balanced held))
                  fun _ _ _ held => ⟨_, rfl, held⟩
          apply wp_seq attach
          rintro handle _ ⟨later, rfl, held⟩
          cases handle with
          | error failure =>
              exact wp_pure ⟨_, rfl, held, by simp [Except.toOption]⟩
          | ok userdata =>
              have more : SameKinds (done ++ [source])
                  (attached ++ [⟨ref, userdata⟩]) := by
                unfold SameKinds
                rw [List.map_append, List.map_append, kinds]
                simp [isReader]
              apply wp_mono (inductionHypothesis _ _ more held)
                (fun _ _ known => known)
              rintro result _ ⟨last, rfl, unusedAfter, kindsAfter⟩
              refine ⟨last, rfl, unusedAfter, ?_⟩
              rwa [List.append_assoc] at kindsAfter

/-- A binding that is made as the configuration says fits the log reader. -/
theorem SameKinds.fits
    {calls : List Setup}
    {config : EventConfig}
    {sources : List EventSourceBinding}
    (kinds : SameKinds config.sources sources)
    (fits : LogfileSetup name calls)
    (present : .addEvent config ∈ calls) :
    FitsLogfile name (config.eventName, sources) := by
  constructor
  · intro source member isReader
    have flag : true ∈ (sources.dropLast.map fun source =>
        decide (source.plugin = 0)) :=
      List.mem_map.mpr ⟨source, member, decide_eq_true isReader⟩
    rw [List.map_dropLast, kinds, ← List.map_dropLast] at flag
    obtain ⟨other, inConfig, isLogfile⟩ := List.mem_map.mp flag
    exact fits.last config present other inConfig (of_decide_eq_true isLogfile)
  · rintro ⟨source, member, isReader⟩
    have flag : true ∈ (sources.map fun source =>
        decide (source.plugin = 0)) :=
      List.mem_map.mpr ⟨source, member, decide_eq_true isReader⟩
    rw [kinds] at flag
    obtain ⟨other, inConfig, isLogfile⟩ := List.mem_map.mp flag
    exact fits.named config present
      ⟨other, inConfig, of_decide_eq_true isLogfile⟩

theorem addEvent_preparing
    {calls : List Setup}
    {config : EventConfig}
    (fits : LogfileSetup name calls)
    (present : .addEvent config ∈ calls)
    (preparing : Preparing name handled service) :
    wp (BooksAt L name handled) (addEvent (withLogfile setup others) config)
      (fun _ after => Preparing name handled after) service := by
  apply wp_seq (attachSources_unused config.sources [] [] rfl
    preparing.unused)
  rintro result _ ⟨world, rfl, unused, kinds⟩
  cases result with
  | error failure => exact wp_pure ⟨preparing.bindings, unused⟩
  | ok sources =>
      refine wp_bind (wp_call (Unused.balanced unused) fun entry => ?_)
      refine wp_bind (wp_modify (wp_pure ⟨?_, unused.react entry⟩))
      intro binding member
      change binding ∈ (Schedule.adopt config sources _ _).static at member
      rw [Schedule.static_adopt] at member
      rcases List.mem_append.mp member with old | new
      · exact preparing.bindings binding old
      · obtain rfl := List.mem_singleton.mp new
        exact (kinds sources rfl).fits fits present

theorem addTarget_preparing
    (config : TargetConfig)
    (preparing : Preparing name handled service) :
    wp (BooksAt L name handled) (addTarget (withLogfile setup others) config)
      (fun _ after => Preparing name handled after) service := by
  have call : ∀ {α : Type} (process : Proc Entry L ρ α)
      (state : ServiceImpl (Reader × ρ)), Preparing name handled state →
      wp (BooksAt L name handled) (onWorld (elsewhere process))
        (fun _ after => Preparing name handled after) state :=
    fun process state kept =>
      wp_elsewhere (fun reader => Unused handled reader) process
        (fun entry _ held => held.react entry) kept.unused
        (fun _ _ _ held => Ledger.Balanced.pending (Unused.balanced held))
        fun _ _ _ held => ⟨kept.bindings, held⟩
  refine wp_seq (call _ service preparing) fun found after kept => ?_
  cases found with
  | error failure => exact wp_pure kept
  | ok ref =>
      refine wp_seq (call _ after kept) fun handle last held => ?_
      cases handle with
      | error failure => exact wp_pure held
      | ok userdata =>
          exact wp_bind (wp_modify (wp_pure ⟨held.bindings, held.unused⟩))

/-- Setting the service up leaves the log reader unused. -/
theorem setUp_preparing
    {calls : List Setup}
    (fits : LogfileSetup name calls)
    (preparing : Preparing name handled service) :
    wp (BooksAt L name handled) (setUp (withLogfile setup others) calls)
      (fun _ after => Preparing name handled after) service := by
  refine wp_forM (fun call present state kept => ?_) preparing
  cases call with
  | addEvent config =>
      exact wp_seq (addEvent_preparing fits present kept)
        fun _ _ held => wp_pure held
  | addTarget config =>
      exact wp_seq (addTarget_preparing config kept)
        fun _ _ held => wp_pure held

end Daemon
end EvCollect
