import EvCollect.Logfile.Draining
import EvCollect.Logfile.Fleet
import EvCollect.Logfile.Recovery
import EvCollect.Service.Rounds

/-!
# One tick drains the log

A call of `processEvent` for a binding whose only source is the log reader goes on
until no line of the file is left, if the file is not changed meanwhile and all
targets succeed. It ends with every line behind it, unless there is a line that
cannot be encoded: then it never returns.
-/

namespace EvCollect
namespace Daemon

open Process Service Logfile Text

/-! ## Reachable readers -/

/-- The life of a log reader behind a binding: it is attached and then called. -/
def attachedLife
    (setup : PluginSetup)
    (config : PropertyList)
    (ops : List Op) : ReaderProc Unit := do
  match ← pluginAttach setup config with
  | .error _ => return ()
  | .ok _ => runOps ops

theorem pluginAttach_placed
    {setup : PluginSetup}
    (config : PropertyList)
    (reader : Reader) :
    wp (fun point _ => point ≠ .between) (pluginAttach setup config)
      (fun result after => ∀ userdata, result = .ok userdata →
        Placed after.source) reader := by
  unfold pluginAttach
  split
  · exact wp_pure fun _ failed => nomatch failed
  next filename _ =>
    refine wp_bind (wp_modify (wp_bind (readCheckpoint_spec ?_ ?_)))
    · rintro point after synced - (rfl | rfl | rfl) <;> nofun
    · intro _ after synced position _ _
      have placed : Placed (startAt position (Reader.past after synced
          (construct (LogfileSource.create setup.sha1 filename setup.spoolDir)
            reader))).source :=
        ⟨List.forall_mem_nil _, (UInt64.add_zero _).symm, Nat.succ_pos 8191⟩
      split
      · exact wp_pure fun _ _ => placed
      next regex _ =>
        refine wp_bind (wp_get (wp_bind (wp_modify (wp_pure fun _ _ => ?_))))
        obtain ⟨handle, fields, same⟩ := LogfileSource.setRegex_snd
          setup.compile regex (startAt position (Reader.past after synced
            (construct (LogfileSource.create setup.sha1 filename
              setup.spoolDir) reader))).source
        rw [same]
        exact ⟨placed.1, placed.2, placed.3⟩

/-- Between two calls the line buffer of an attached reader holds the lines
between its offsets. -/
theorem attachedLife_placed
    {setup : PluginSetup}
    (config : PropertyList)
    (ops : List Op)
    (reader : Reader) :
    wp (fun point after => point = .between → Placed after.source)
      (attachedLife setup config ops) (fun _ _ => True) reader := by
  refine wp_seq (wp_mono (pluginAttach_placed config reader)
    (fun _ _ other isBetween => absurd isBetween other)
    fun _ _ placed => placed) ?_
  intro result after placed
  cases result with
  | error failure => exact wp_pure trivial
  | ok userdata =>
      exact wp_mono (runOps_places ops after (placed userdata rfl))
        (fun _ _ kept _ => kept.2) fun _ _ _ => trivial

/-! ## What is assumed of a call -/

variable {L ρ : Type} [World ρ]

/-- The calls by which the log file is read succeed. -/
def ReadingSucceeds : Point (LogPoint ⊕ L) → Entry → Prop
  | .plugin (.inl point), entry => Succeeds point entry
  | _, _ => True

/-- Every target returns success for every event, while the other plugins stay in
states with a property. -/
structure TargetsSucceed
    (entries : Stream' Entry)
    (others : Plugins L ρ)
    (targets : List TargetBinding)
    (holds : ρ → Prop) : Prop where
  react : ∀ index world, holds world →
    holds (World.react (entries.get index) world)
  emitEvent : ∀ target ∈ targets, ∀ event world, holds world →
    Completes entries (fun _ _ => True) (fun _ _ => False)
      ((others.output target.plugin).pluginEmitEvent target.userdata event)
      (fun rc after => rc = ReturnCode.success ∧ holds after) world

/-- The log has been drained: the targets have been offered one event for every
line that was left and yields one, in order, and nothing else, and the reader is
right behind the last newline of the file. -/
structure Drained
    (job : Nat)
    (inode : UInt64)
    (start service : ServiceImpl (Reader × ρ)) : Prop where
  offered : ∃ time, service.offered = start.offered ++
    ((start.world.1.linesLeft inode).filter start.world.1.source.yields).flatMap
      fun raw => offersFrom 0 start.targets.length
        { time := time
          eventName := (start.binding job).eventName
          eventData := (start.world.1.source.lineEvent raw).getD [] }
  lineBuf : service.world.1.source.lineBuf = []
  atFile : service.world.1.source.inode = inode
  consumed : service.world.1.source.consumedOffset.toNat =
    behindLast 0x0a (start.world.1.disk.files inode)

/-! ## Steps -/

variable {setup : PluginSetup}
variable {others : Plugins L ρ}
variable {entries : Stream' Entry}
variable {holds : ρ → Prop}
variable {start service : ServiceImpl (Reader × ρ)}
variable {job : Nat}
variable {time : UInt64}
variable {inode : UInt64}

/-- What is known between two rounds: some lines have been offered, and the others
are left. -/
structure Progress
    (holds : ρ → Prop)
    (job : Nat)
    (time : UInt64)
    (inode : UInt64)
    (start : ServiceImpl (Reader × ρ))
    (left : List Bytes)
    (service : ServiceImpl (Reader × ρ)) : Prop where
  targets : service.targets = start.targets
  schedule : service.toSchedule = start.toSchedule
  draining : Draining start.world.1 inode left service.world.1
  others : holds service.world.2
  lines : ∃ done, start.world.1.linesLeft inode = done ++ left ∧
    (∀ raw ∈ done, (start.world.1.source.lineEvent raw).isSome) ∧
    service.offered = start.offered ++ done.flatMap fun raw =>
      offersOf start.targets.length
        (fun data => ⟨time, (start.binding job).eventName, data⟩)
        ((start.world.1.source.lineEvent raw).getD [])

theorem completes_onReader
    {blocked : Prop}
    {stuck : LogPoint → Reader → Prop}
    {process : ReaderProc α}
    {post : α → Reader → Prop}
    (completes : Completes entries Succeeds stuck process post service.world.1)
    (succeed : TargetsSucceed entries others start.targets holds)
    (before : holds service.world.2)
    (atPoint : ∀ point reader, stuck point reader → blocked) :
    Completes entries ReadingSucceeds (fun _ _ => blocked)
      (onWorld (onReader process) :
        ServiceProc (LogPoint ⊕ L) (Reader × ρ) α)
      (fun value after => ∃ world, after = { service with world := world } ∧
        post value world.1 ∧ holds world.2) service :=
  completes_zoom (completes_onFirst holds completes succeed.react before
    (fun point reader _ held => atPoint point reader held)
    fun _ reader other held still => ⟨(reader, other), rfl, held, still⟩)

omit [World ρ] in
theorem completes_elsewhere
    {blocked : Prop}
    {process : Proc Entry L ρ α}
    {post : α → ρ → Prop}
    (still : Still entries)
    (completes : Completes entries (fun _ _ => True) (fun _ _ => False) process
      post service.world.2) :
    Completes entries ReadingSucceeds (fun _ _ => blocked)
      (onWorld (elsewhere process) :
        ServiceProc (LogPoint ⊕ L) (Reader × ρ) α)
      (fun value after => ∃ other,
        after = { service with world := (service.world.1, other) } ∧
          post value other) service :=
  completes_zoom (completes_onSecond (fun reader => reader = service.world.1)
    completes
    (fun index reader same => (react_of_still (still index) reader).trans same)
    rfl (fun _ _ _ impossible => impossible.elim)
    fun _ other reader held same => ⟨other, by rw [same], held⟩)

/-- All targets are offered an event. -/
theorem deliverFrom_completes
    {blocked : Prop}
    (still : Still entries)
    (event : EventData)
    (targets : List TargetBinding)
    (position : Nat)
    (succeed : TargetsSucceed entries others targets holds)
    (before : holds service.world.2) :
    Completes entries ReadingSucceeds (fun _ _ => blocked)
      (deliverFrom (withLogfile setup others) event position targets
        ReturnCode.success)
      (fun rc after => rc = ReturnCode.success ∧ ∃ other, holds other ∧
        after =
          { service with
            offered := service.offered ++
              offersFrom position targets.length event
            world := (service.world.1, other) }) service := by
  induction targets generalizing position service with
  | nil =>
      refine completes_pure ⟨rfl, service.world.2, before, ?_⟩
      rw [show offersFrom position ([] : List TargetBinding).length event = [] from
        rfl, List.append_nil]
  | cons target rest inductionHypothesis =>
      apply completes_seq (completes_elsewhere still
        (succeed.emitEvent target List.mem_cons_self event _ before))
      rintro _ _ ⟨other, rfl, rfl, held⟩
      refine completes_bind (completes_modify ?_)
      refine completes_mono (inductionHypothesis _ ⟨succeed.react,
        fun other member => succeed.emitEvent other
          (List.mem_cons_of_mem _ member)⟩ held) (fun _ _ known => known) ?_
      rintro rc _ ⟨success, last, kept, rfl⟩
      refine ⟨success, last, kept, ?_⟩
      rw [List.length_cons, offersFrom_succ]
      simp [ServiceImpl.logOffer]

/-- Every line that is left can be encoded. -/
def Encodable (start : ServiceImpl (Reader × ρ)) (inode : UInt64) : Prop :=
  ∀ raw ∈ start.world.1.linesLeft inode,
    (start.world.1.source.lineEvent raw).isSome

/-- The only source returns the event of the next line, and says whether another
one is left. -/
theorem pollReader_completes
    {left : List Bytes}
    {userdata : Userdata}
    (still : Still entries)
    (succeed : TargetsSucceed entries others start.targets holds)
    (progress : Progress holds job time inode start left service) :
    Completes entries ReadingSucceeds (fun _ _ => ¬ Encodable start inode)
      (pollSources (withLogfile setup others) [⟨0, userdata⟩] [] false)
      (fun result after => ∃ event,
        result = .ok (event, !left.tail.isEmpty) ∧
        start.world.1.source.lineEvent (left.headD []) = some event ∧
        ∃ world, after = { service with world := world } ∧ holds world.2 ∧
          Draining start.world.1 inode left.tail world.1 ∧
          (left.tail = [] → AtEnd start.world.1 inode world.1)) service := by
  have blocked : start.world.1.source.lineEvent (left.headD []) = none →
      ¬ Encodable start inode := by
    intro isNone encodable
    obtain ⟨done, split, -, -⟩ := progress.lines
    cases left with
    | nil => cases isNone
    | cons raw rest =>
        have isSome := encodable raw (by simp [split])
        rw [List.headD_cons] at isNone
        simp [isNone] at isSome
  apply completes_seq (completes_onReader
    (getNextEvent_completes still progress.draining) succeed progress.others
    fun _ _ isNone => blocked isNone)
  rintro _ _ ⟨world, rfl, ⟨event, rfl, known, drained⟩, held⟩
  apply completes_seq (completes_onReader
    (hasNextLine_completes still drained) succeed held
    fun _ _ (impossible : False) => impossible.elim)
  rintro _ _ ⟨later, rfl, ⟨rfl, kept, finished⟩, heldLater⟩
  exact completes_pure ⟨event, rfl, known, later, rfl, heldLater, kept, finished⟩

theorem emitMerged_completes
    {blocked : Prop}
    (still : Still entries)
    (succeed : TargetsSucceed entries others service.targets holds)
    (before : holds service.world.2)
    (now : UInt64)
    (merged : Bytes) :
    Completes entries ReadingSucceeds (fun _ _ => blocked)
      (emitMerged (withLogfile setup others) job now merged)
      (fun rc after => rc = ReturnCode.success ∧ ∃ other, holds other ∧
        after =
          { service with
            offered := service.offered ++ offersOf service.targets.length
              (fun data => ⟨now, (service.binding job).eventName, data⟩) merged
            world := (service.world.1, other) }) service := by
  unfold emitMerged offersOf
  split
  · exact completes_pure ⟨rfl, service.world.2, before, by rw [List.append_nil]⟩
  · refine completes_bind (completes_get (completes_bind (completes_get ?_)))
    exact deliverFrom_completes still _ service.targets 0 succeed before

/-- What a call of `processEvent` has done when it returns. -/
def Exhausted
    (holds : ρ → Prop)
    (job : Nat)
    (time : UInt64)
    (inode : UInt64)
    (start service : ServiceImpl (Reader × ρ)) : Prop :=
  Progress holds job time inode start [] service ∧
    AtEnd start.world.1 inode service.world.1

omit [World ρ] in
theorem Progress.sameBinding
    {left : List Bytes}
    (progress : Progress holds job time inode start left service) :
    service.binding job = start.binding job :=
  congrArg (fun schedule : Schedule => schedule.binding job) progress.schedule

omit [World ρ] in
/-- The event of the next line has been offered. -/
theorem Progress.offer
    {left : List Bytes}
    {event : Bytes}
    {reader : Reader}
    {other : ρ}
    (progress : Progress holds job time inode start left service)
    (known : start.world.1.source.lineEvent (left.headD []) = some event)
    (draining : Draining start.world.1 inode left.tail reader)
    (held : holds other) :
    Progress holds job time inode start left.tail
      { service with
        offered := service.offered ++ offersOf service.targets.length
          (fun data => ⟨time, (service.binding job).eventName, data⟩) event
        world := (reader, other) } := by
  refine ⟨progress.targets, progress.schedule, draining, held, ?_⟩
  obtain ⟨done, split, encodable, offered⟩ := progress.lines
  cases left with
  | nil =>
      have noEvent : event = [] := (Option.some.inj known).symm
      refine ⟨done, split, encodable, ?_⟩
      rw [noEvent, show ∀ count merge, offersOf count merge [] = [] from
        fun _ _ => rfl, List.append_nil]
      exact offered
  | cons raw rest =>
      rw [List.headD_cons] at known
      refine ⟨done ++ [raw], ?_, ?_, ?_⟩
      · rw [split, List.append_assoc]
        rfl
      · rw [List.forall_mem_append, List.forall_mem_singleton, known]
        exact ⟨encodable, rfl⟩
      · rw [offered, progress.targets, progress.sameBinding, List.flatMap_append,
          List.flatMap_singleton, known, Option.getD_some, List.append_assoc]

/-- A round offers the event of the next line. -/
theorem processRound_completes
    {left : List Bytes}
    {userdata : Userdata}
    (sources : (start.binding job).sources = [⟨0, userdata⟩])
    (still : Still entries)
    (succeed : TargetsSucceed entries others start.targets holds)
    (progress : Progress holds job time inode start left service) :
    Completes entries ReadingSucceeds (fun _ _ => ¬ Encodable start inode)
      (processRound (withLogfile setup others) job time)
      (AfterPass
        (fun _ after => left.tail ≠ [] ∧
          Progress holds job time inode start left.tail after)
        fun rc after => rc = ReturnCode.success ∧
          Exhausted holds job time inode start after) service := by
  refine completes_bind (completes_get ?_)
  rw [progress.sameBinding, sources]
  apply completes_seq (pollReader_completes still succeed progress)
  rintro _ _ ⟨event, rfl, known, world, rfl, held, drained, finished⟩
  apply completes_seq (emitMerged_completes still
    (progress.targets ▸ succeed) held time event)
  rintro _ _ ⟨rfl, other, kept, rfl⟩
  have next := progress.offer known drained kept
  cases nothing : left.tail.isEmpty with
  | true =>
      have empty := List.isEmpty_iff.mp nothing
      rw [empty] at next
      exact completes_pure ⟨rfl, next, finished empty⟩
  | false =>
      exact completes_pure ⟨by simpa using nothing, next⟩

theorem Progress.react
    {left : List Bytes}
    (progress : Progress holds job time inode start left service)
    (still : Still entries)
    (succeed : TargetsSucceed entries others start.targets holds)
    (index : Nat) :
    Progress holds job time inode start left
      (react (entries.get index) service) where
  targets := progress.targets
  schedule := progress.schedule
  draining := by
    change Draining _ _ _ (World.react (entries.get index) service.world.1)
    rw [react_of_still (still index)]
    exact progress.draining
  others := succeed.react index _ progress.others
  lines := progress.lines

omit [World ρ] in
theorem Exhausted.encodable
    (finished : Exhausted holds job time inode start service) :
    Encodable start inode := by
  obtain ⟨done, split, encodable, -⟩ := finished.1.lines
  rw [List.append_nil] at split
  rw [Encodable, split]
  exact encodable

omit [World ρ] in
theorem progress_start
    (placed : Placed start.world.1.source)
    (path : start.world.1.disk.path = some inode)
    (ready : holds start.world.2) :
    Progress holds job time inode start (start.world.1.linesLeft inode) start where
  targets := rfl
  schedule := rfl
  draining := ⟨path, rfl, rfl, rfl, placed, rfl, rfl⟩
  others := ready
  lines := ⟨[], rfl, List.forall_mem_nil _, (List.append_nil _).symm⟩

/-- The rounds go on until no line is left. -/
theorem rounds_complete
    {left : List Bytes}
    {userdata : Userdata}
    (causal : CausalPlugins others)
    (sources : (start.binding job).sources = [⟨0, userdata⟩])
    (still : Still entries)
    (succeed : TargetsSucceed entries others start.targets holds)
    (progress : Progress holds job time inode start left service) :
    Completes entries ReadingSucceeds (fun _ _ => ¬ Encodable start inode)
      (Proc.iterate .round react
        (fun _ => processRound (withLogfile setup others) job time) ())
      (fun rc after => rc = ReturnCode.success ∧
        Exhausted holds job time inode start after) service := by
  refine completes_iterate
    (fun _ => ((processCalls_onward _ (withLogfile_causal setup
      causal)).processRound job time).causal)
    (fun bound _ service => ∃ left, bound = left.length ∧
      Progress holds job time inode start left service)
    ⟨left, rfl, progress⟩ ?_
  rintro _ _ service index ⟨left, rfl, progress⟩ -
  refine completes_mono (processRound_completes sources still succeed
    (progress.react still succeed index)) (fun _ _ held => held) ?_
  intro result after held
  cases result with
  | inr rc => exact held
  | inl _ =>
      obtain ⟨more, next⟩ := held
      refine ⟨left.tail.length, ?_, left.tail, rfl, next⟩
      cases left with
      | nil => exact absurd rfl more
      | cons raw rest => exact Nat.lt_succ_self _

/-- A call of `processEvent` goes on until no line is left. -/
theorem processEvent_completes
    {userdata : Userdata}
    (causal : CausalPlugins others)
    (sources : (start.binding job).sources = [⟨0, userdata⟩])
    (placed : Placed start.world.1.source)
    (path : start.world.1.disk.path = some inode)
    (still : Still entries)
    (succeed : TargetsSucceed entries others start.targets holds)
    (ready : holds start.world.2) :
    Completes entries ReadingSucceeds (fun _ _ => ¬ Encodable start inode)
      (processEvent (withLogfile setup others) job)
      (fun rc after => rc = ReturnCode.success ∧
        ∃ time, Exhausted holds job time inode start after) start := by
  refine completes_bind (completes_get ?_)
  rw [sources]
  refine completes_bind (completes_call fun index _ => ?_)
  refine completes_mono (rounds_complete causal sources still succeed
    ((progress_start placed path ready).react still succeed index))
    (fun _ _ blocked => blocked) ?_
  exact fun rc after finished => ⟨finished.1, _, finished.2⟩

/-- Only the lines that yield an event are offered. -/
theorem flatMap_offersOf
    {source : LogfileSource}
    {lines : List Bytes}
    (encodable : ∀ raw ∈ lines, (source.lineEvent raw).isSome)
    (targets : Nat)
    (event : Bytes → EventData) :
    (lines.flatMap fun raw =>
        offersOf targets event ((source.lineEvent raw).getD [])) =
      (lines.filter source.yields).flatMap fun raw =>
        offersFrom 0 targets (event ((source.lineEvent raw).getD [])) := by
  induction lines with
  | nil => rfl
  | cons raw lines inductionHypothesis =>
      rw [List.forall_mem_cons] at encodable
      obtain ⟨data, known⟩ := Option.isSome_iff_exists.mp encodable.1
      have isEmpty := isEmpty_lineEvent known
      rw [List.flatMap_cons, inductionHypothesis encodable.2, known,
        Option.getD_some, offersOf, isEmpty]
      cases yields : source.yields raw with
      | false =>
          rw [List.filter_cons_of_neg (by simp [yields])]
          rfl
      | true =>
          rw [List.filter_cons_of_pos yields, List.flatMap_cons, known]
          rfl

omit [World ρ] in
/-- The log has been drained if the last line that was left is the last one of
the file. -/
theorem Exhausted.drained_iff
    (finished : Exhausted holds job time inode start service) :
    Drained job inode start service ↔
      (0x0a : UInt8) ∈ start.world.1.behind inode ∨
        Boundary 0x0a (start.world.1.disk.files inode)
          (start.world.1.position inode) := by
  have encodable := finished.encodable
  obtain ⟨progress, atEnd⟩ := finished
  rw [Reader.behind, ← behindLast_drop_iff (start.world.1.position_le inode)]
  change _ ↔ start.world.1.lastEnd inode = _
  rw [← atEnd.consumed]
  refine ⟨Drained.consumed, fun isLast =>
    ⟨⟨time, ?_⟩, atEnd.lineBuf, atEnd.atFile, isLast⟩⟩
  obtain ⟨done, split, -, offered⟩ := progress.lines
  rw [List.append_nil] at split
  rw [offered, ← split, flatMap_offersOf encodable]

/-- The call returns with the log drained under these conditions only. -/
theorem finishes_drained_iff
    {userdata : Userdata}
    (causal : CausalPlugins others)
    (sources : (start.binding job).sources = [⟨0, userdata⟩])
    (placed : Placed start.world.1.source)
    (path : start.world.1.disk.path = some inode)
    (still : Still entries)
    (succeed : TargetsSucceed entries others start.targets holds)
    (ready : holds start.world.2)
    (reading : Fairly ReadingSucceeds
      (processEvent (withLogfile setup others) job) entries start) :
    (∃ count after,
        Finishes (processEvent (withLogfile setup others) job)
            (entries.take count) start ReturnCode.success after ∧
          Drained job inode start after) ↔
      Encodable start inode ∧
        ((0x0a : UInt8) ∈ start.world.1.behind inode ∨
          Boundary 0x0a (start.world.1.disk.files inode)
            (start.world.1.position inode)) := by
  refine Completes.finishes_iff (completes_mono (processEvent_completes causal
    sources placed path still succeed ready) (fun _ _ blocked => blocked) ?_)
    reading
  rintro rc after ⟨success, time, finished⟩
  exact ⟨finished.encodable, success, finished.drained_iff⟩

/-- One tick drains the log, for every reachable reader and every file, if and
only if every line that is left can be encoded, and there is a newline behind the
position at which the reader goes on, or that is where a line begins. The lines
that are left are those behind the consumed offset, if the buffered ones stand
there. -/
theorem processEvent_drains_iff
    {config : PropertyList}
    {ops : List Op}
    {fresh reader : Reader}
    {userdata : Userdata}
    (reached : Reaches (attachedLife setup config ops) fresh .between reader)
    (source : service.world.1.source = reader.source)
    (path : service.world.1.disk.path = some inode)
    (sources : (service.binding job).sources = [⟨0, userdata⟩])
    (causal : CausalPlugins others)
    (still : Still entries)
    (succeed : TargetsSucceed entries others service.targets holds)
    (ready : holds service.world.2)
    (reading : Fairly ReadingSucceeds
      (processEvent (withLogfile setup others) job) entries service) :
    ((∃ count after,
        Finishes (processEvent (withLogfile setup others) job)
            (entries.take count) service ReturnCode.success after ∧
          Drained job inode service after) ↔
      (∀ raw ∈ service.world.1.linesLeft inode,
        (service.world.1.source.lineEvent raw).isSome) ∧
      ((0x0a : UInt8) ∈ service.world.1.behind inode ∨
        Boundary 0x0a (service.world.1.disk.files inode)
          (service.world.1.position inode))) ∧
    (service.world.1.InPlace inode → service.world.1.linesLeft inode =
      terminated 0x0a ((service.world.1.disk.files inode).drop
        (service.world.1.arrived inode).source.consumedOffset.toNat)) := by
  have placed : Placed service.world.1.source := by
    rw [source]
    exact (attachedLife_placed config ops fresh).reaches reached rfl
  exact ⟨finishes_drained_iff causal sources placed path still succeed ready
    reading, Reader.linesLeft_of_inPlace placed⟩

/-! ## One file -/

/-- A service with one binding, whose log reader has just been attached to a file
with these contents, and one target. -/
def followingFile
    (contents : Bytes)
    (fits : contents.length < 2 ^ 63) : ServiceImpl (Reader × Unit) :=
  { eventBindings := [⟨bytes "log", 0, [⟨0, 0⟩], 0⟩]
    queue := [0]
    targets := [⟨0, 0⟩]
    world := (Reader.begin (oneFile contents fits) freshSource, ()) }

/-- A script on which nothing fails and nothing else happens. -/
def calm : Stream' Entry :=
  fun _ => {}

theorem followingFile_reached (contents : Bytes) (fits : contents.length < 2 ^ 63) :
    Reaches (attachedLife namesAsHashes (follow "log") [.hasNextLine])
      (followingFile contents fits).world.1 .between
      (followingFile contents fits).world.1 :=
  ⟨[{}], rfl⟩

theorem calm_still : Still calm :=
  fun _ => rfl

theorem calm_succeeds :
    TargetsSucceed calm (foreignPlugins id : Plugins ForeignCall Unit) [⟨0, 0⟩]
      fun _ => True where
  react := fun _ _ _ => trivial
  emitEvent := fun _ _ _ _ _ => completes_call fun _ _ => ⟨rfl, trivial⟩

theorem calm_reads
    (service : ServiceImpl (Reader × Unit)) :
    Fairly ReadingSucceeds
      (processEvent (withLogfile namesAsHashes
        (foreignPlugins id : Plugins ForeignCall Unit)) 0) calm service := by
  intro count point after _
  change ReadingSucceeds point {}
  cases point with
  | plugin point =>
      cases point with
      | inl point => exact succeeds_of_result (by decide) point
      | inr point => trivial
  | _ => trivial

theorem processEvent_drains_iff_twoEvents :
    ∃ count after,
      Finishes
          (processEvent (withLogfile namesAsHashes
            (foreignPlugins id : Plugins ForeignCall Unit)) 0)
          (calm.take count) (followingFile (bytes "a\n\nb\nc") (by decide))
          ReturnCode.success after ∧
        Drained 0 1 (followingFile (bytes "a\n\nb\nc") (by decide)) after :=
  (processEvent_drains_iff (followingFile_reached _ _) rfl rfl rfl
    (foreignPlugins_causal id) calm_still calm_succeeds trivial
    (calm_reads _)).1.mpr ⟨by decide +kernel, .inl (by decide +kernel)⟩

/-- A log of one line whose placeholder is found too far behind. -/
def crowdedLog (before behind : Nat) : Bytes :=
  crowdedLine before behind ++ [0x0a]

theorem crowdedLog_fits
    {before behind : Nat}
    (small : before + behind < 2 ^ 32) :
    (crowdedLog before behind).length < 2 ^ 63 := by
  rw [crowdedLog, List.length_append, length_crowdedLine]
  change before + 2 + behind + 1 < _
  omega

theorem isRecord_crowdedLog (before behind : Nat) :
    IsRecord 0x0a (crowdedLog before behind) := by
  have placeholder : (0x0a : UInt8) ∉ bytes "$0" := by decide
  refine ⟨_, rfl, ?_⟩
  simp [crowdedLine, List.mem_replicate, placeholder]

theorem not_encodable_crowdedLog
    {before behind : Nat}
    (fits : (crowdedLog before behind).length < 2 ^ 63)
    (length : 6 * (before + behind) + 10 = 2 ^ 32)
    (far : 2 ^ 31 ≤ 6 * before)
    (more : 0 < behind) :
    ¬ Encodable (followingFile (crowdedLog before behind) fits) 1 := by
  intro encodable
  have left : crowdedLog before behind ∈
      (followingFile (crowdedLog before behind) fits).world.1.linesLeft 1 := by
    have whole := (isRecord_crowdedLog before behind).terminated_append []
    rw [List.append_nil] at whole
    change _ ∈ [] ++ terminated 0x0a (crowdedLog before behind)
    rw [whole]
    exact List.mem_cons_self
  have isSome := encodable _ left
  have body : (crowdedLog before behind).dropLast = crowdedLine before behind :=
    List.dropLast_concat
  rw [LogfileSource.lineEvent, body, crowdedLine_isEmpty, if_neg (by decide),
    formatEvent_crowdedLine rfl length far more] at isSome
  cases isSome

/-- The line makes `replaceAll` throw: it is not emitted, and the call does not
return. -/
theorem processEvent_stuck_crowdedLog :
    ∃ service : ServiceImpl (Reader × Unit),
      Reaches (attachedLife namesAsHashes (follow "log") [.hasNextLine])
          service.world.1 .between service.world.1 ∧
        service.world.1.disk.path = some 1 ∧
        service.world.1.disk.files 1 = crowdedLog 400000000 315827881 ∧
        (service.binding 0).sources = [⟨0, 0⟩] ∧
        Still calm ∧
        TargetsSucceed calm (foreignPlugins id : Plugins ForeignCall Unit)
          service.targets (fun _ => True) ∧
        Fairly ReadingSucceeds
          (processEvent (withLogfile namesAsHashes (foreignPlugins id)) 0) calm
          service ∧
        ¬ ∃ count after,
          Finishes (processEvent (withLogfile namesAsHashes (foreignPlugins id)) 0)
              (calm.take count) service ReturnCode.success after ∧
            Drained 0 1 service after := by
  obtain ⟨before, isBefore⟩ : ∃ before, before = 400000000 := ⟨_, rfl⟩
  obtain ⟨behind, isBehind⟩ : ∃ behind, behind = 315827881 := ⟨_, rfl⟩
  rw [← isBefore, ← isBehind]
  have fits := crowdedLog_fits (show before + behind < 2 ^ 32 by omega)
  have reached := followingFile_reached (crowdedLog before behind) fits
  have placed := (attachedLife_placed _ _ _).reaches reached rfl
  refine ⟨followingFile (crowdedLog before behind) fits, reached, rfl, rfl, rfl,
    calm_still, calm_succeeds, calm_reads _, ?_⟩
  rw [finishes_drained_iff (foreignPlugins_causal id) rfl placed rfl calm_still
    calm_succeeds trivial (calm_reads _)]
  exact fun both => not_encodable_crowdedLog fits (by omega) (by omega) (by omega)
    both.1

end Daemon
end EvCollect
