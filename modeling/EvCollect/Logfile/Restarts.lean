import EvCollect.Logfile.CheckpointNames
import EvCollect.Logfile.Durable
import EvCollect.Logfile.Plugin
import EvCollect.Logfile.Polling

/-!
# Clean restarts

A daemon is started and shut down any number of times: the logfile plugin is
attached, its reader is called in any way, and the plugin is detached, which
writes the checkpoint. As long as the checkpoint file is read and written as a
whole and the log file is only appended to, the lines that all these readers
have delivered are the lines of the file up to the checkpoint, each one once and
in order.
-/

namespace EvCollect
namespace Logfile

open Process Text

/-- So far no file has been put at the path or cut down. -/
def Disk.AppendOnly (disk : Disk) : Prop :=
  disk.replaced = false ∧ disk.truncated = false

instance (disk : Disk) : Decidable disk.AppendOnly :=
  inferInstanceAs (Decidable (_ ∧ _))

/-- Where a source that reads the checkpoint file begins in a file. -/
def Disk.resumeAt (disk : Disk) (inode : UInt64) : Nat :=
  if inode = disk.saved.1 then disk.saved.2.toNat else 0

/-- Daemons that are started, used and shut down one after the other, and the
lines that they have delivered altogether. -/
inductive Sessions (setup : PluginSetup) (inode : UInt64) :
    Disk → List Bytes → Prop
  | first
      {disk : Disk}
      (absent : disk.checkpoint = none)
      (atPath : disk.path = some inode)
      (appended : disk.AppendOnly) :
      Sessions setup inode disk []
  /-- Other processes go on between two daemons. -/
  | waits
      {disk disk' : Disk}
      {lines : List Bytes}
      (before : Sessions setup inode disk lines)
      (grows : disk.Grows disk')
      (appended : disk'.AppendOnly) :
      Sessions setup inode disk' lines
  | session
      {disk : Disk}
      {lines : List Bytes}
      {config : PropertyList}
      {started attached used detached : Reader}
      {ops : List Op}
      (before : Sessions setup inode disk lines)
      (onDisk : started.disk = disk)
      (attach : Ends (pluginAttach setup config) started (.ok 0) attached)
      (readWhole : attached.history.synced = true)
      (appended : attached.disk.AppendOnly)
      (run : Ends (runOps ops) attached () used)
      (detach : Ends pluginDetach used () detached)
      (wroteWhole : detached.history.synced = true)
      (stillAppended : detached.disk.AppendOnly) :
      Sessions setup inode detached.disk (lines ++ detached.history.delivered)

/-! ## Detaching -/

variable {reader : Reader}

/-- Where `writeCheckpoint` has written the whole checkpoint, this is the
position of the source. -/
theorem writeCheckpoint_saves (clean : reader.aside.Clean) :
    wp Durable writeCheckpoint
      (fun _ after => after.history.synced = true →
        after.disk.saved =
          (after.source.inode, after.source.consumedOffset)) reader := by
  apply wp_seq (updateCheckpoint_clean clean)
  rintro rc after ⟨cached, cleanAfter⟩
  have saved : after.history.synced = true →
      after.disk.saved = (after.source.inode, after.source.consumedOffset) := by
    intro synced
    rw [← cached.1, ← cached.2]
    exact cleanAfter synced
  refine wp_seq (wp_sysCall saved fun entry synced => ?_)
    fun _ _ kept => wp_pure kept
  exact (saved_of_grows (Disk.grows_react entry after.disk)).trans
    (saved synced)

/-- `pluginDetach` takes no line and writes the position of the source. -/
theorem pluginDetach_spec
    (settled : reader.Settled)
    (clean : reader.aside.Clean) :
    wp (fun _ _ => True) pluginDetach
      (fun _ after => after.Settled ∧
        (after.history.synced = true →
          after.disk.saved =
            (after.source.inode, after.source.consumedOffset))) reader := by
  have inside : Inside reader reader.history.taken reader :=
    ⟨Polling.refl settled, settled.returned, rfl⟩
  refine wp_seq (wp_mono (wp_and (wp_inside writeCheckpoint_inside inside)
    (writeCheckpoint_saves clean)) (fun _ _ _ => trivial)
      fun _ _ kept => kept) ?_
  rintro _ after ⟨⟨polling, returned, taken⟩, saved⟩
  exact wp_pure ⟨⟨returned.trans (congrArg List.length taken.symm),
    polling.written⟩, saved⟩

theorem pluginDetach_tracked
    {origin : Origin}
    (tracked : Tracked origin reader) :
    wp (Held origin) pluginDetach (fun _ after => Tracked origin after)
      reader :=
  wp_seq (writeCheckpoint_tracked tracked) fun _ _ kept => wp_pure kept

/-! ## Attaching -/

/-- The origin of a source that starts from a position, and what is known about
the text before the position in the checkpoint file. -/
def originAt
    (disk : Disk)
    (position : UInt64 × UInt64)
    (known : Bytes → Prop) : Origin where
  first := some disk.saved
  known := known
  base := position
  path := disk.path

/-- A source that has started from the checkpoint file. -/
structure Started (before : Disk) (after : Reader) : Prop where
  grows : before.Grows after.disk
  settled : after.Settled
  clean : after.aside.Clean
  tracked : after.history.synced = true →
    ∀ known, Genuine after.disk after.disk.saved known →
      Tracked (originAt after.disk after.disk.saved known) after

/-- The regular expression has nothing to do with the position. -/
theorem Started.setRegex
    {before : Disk}
    (start : Started before reader)
    (compile : PcreCompile)
    (regex : Bytes) :
    Started before
      (reader.onSource fun _ =>
        (reader.source.setRegex compile regex).2) := by
  obtain ⟨handle, fields, same⟩ :=
    LogfileSource.setRegex_snd compile regex reader.source
  rw [same]
  refine ⟨start.grows, ⟨start.settled.returned, start.settled.written⟩,
    start.clean, fun synced known genuine => ?_⟩
  have tracked := start.tracked synced known genuine
  exact tracked.onSource tracked.buffered rfl rfl rfl rfl

/-- A source that is attached starts from the checkpoint file. -/
theorem pluginAttach_starts (setup : PluginSetup) (config : PropertyList) :
    wp (fun _ _ => True) (pluginAttach setup config)
      (fun rc after => rc = .ok 0 → Started reader.disk after) reader := by
  unfold pluginAttach
  split
  next => exact wp_pure fun ok => by cases ok
  next filename named =>
    have read : wp (fun _ _ => True) readCheckpoint
        (fun _ after => Started reader.disk after)
        (construct (LogfileSource.create setup.sha1 filename setup.spoolDir)
          reader) := by
      apply readCheckpoint_spec (fun _ _ _ _ _ => trivial)
      intro _ after synced position grows found
      have fromSaved : synced = true → position = after.saved := fun whole =>
        found.resolve_right fun partly =>
          absurd (partly.1.symm.trans whole) (by simp)
      refine ⟨grows, ⟨rfl, le_refl _⟩, fun whole => (fromSaved whole).symm, ?_⟩
      intro whole known genuine
      have position_eq := fromSaved whole
      subst position_eq
      exact tracked_startAt (le_refl _) rfl rfl genuine (Or.inl rfl)
    refine wp_bind (wp_modify (wp_seq read fun _ after known => ?_))
    split
    · exact wp_pure fun _ => known
    next regex _ =>
      refine wp_bind (wp_get (wp_bind (wp_modify (wp_pure fun _ => ?_))))
      exact known.setRegex setup.compile regex

/-! ## Between two daemons -/

/-- Without a checkpoint file every source begins at no file. -/
theorem saved_of_absent
    {disk : Disk}
    (absent : disk.checkpoint = none) :
    disk.saved = (0, 0) := by
  rw [Disk.saved, absent]
  rfl

/-- What is known about the text before a position of the checkpoint file: it
is these lines. -/
def Delivered
    (inode : UInt64)
    (raws : List Bytes)
    (position : UInt64 × UInt64)
    (text : Bytes) : Prop :=
  position.1 = inode → text = raws.flatten

/-- The checkpoint file is behind the lines that have been delivered from the
file at the path. -/
structure CaughtUp
    (inode : UInt64)
    (disk : Disk)
    (raws : List Bytes) : Prop where
  atPath : disk.path = some inode
  appended : disk.AppendOnly
  areRecords : ∀ raw ∈ raws, IsRecord 0x0a raw
  genuine : Genuine disk disk.saved (Delivered inode raws disk.saved)
  elsewhere : disk.saved.1 ≠ inode → raws = []

variable {inode : UInt64}
variable {disk : Disk}
variable {raws : List Bytes}

theorem CaughtUp.grows
    {after : Disk}
    (caughtUp : CaughtUp inode disk raws)
    (grows : disk.Grows after)
    (appended : after.AppendOnly) :
    CaughtUp inode after raws := by
  have sameSaved := saved_of_grows grows
  refine ⟨(grows.replaced appended.1).2.trans caughtUp.atPath, appended,
    caughtUp.areRecords, ?_, ?_⟩
  · rw [sameSaved]
    exact caughtUp.genuine.grows grows
  · rw [sameSaved]
    exact caughtUp.elsewhere

/-- The lines are the beginning of the file up to the checkpoint. -/
theorem CaughtUp.content (caughtUp : CaughtUp inode disk raws) :
    Boundary 0x0a (disk.files inode) (disk.resumeAt inode) ∧
      (disk.files inode).take (disk.resumeAt inode) = raws.flatten := by
  unfold Disk.resumeAt
  split
  next here =>
    have trusted : disk.Trusts disk.saved.1 := .inl (here ▸ caughtUp.atPath)
    obtain ⟨boundary, text⟩ := caughtUp.genuine.2 caughtUp.appended.2 trusted
    rw [← here] at boundary text
    exact ⟨boundary, text here.symm⟩
  next elsewhere =>
    rw [caughtUp.elsewhere fun here => elsewhere here.symm]
    exact ⟨⟨Nat.zero_le _, .inl rfl⟩, rfl⟩

/-- What is known where a daemon has shut down: the source has followed the file
from the old checkpoint on, and the new one is where it stands. -/
theorem CaughtUp.session
    {start : Disk}
    (caughtUp : CaughtUp inode start raws)
    (tracked : Tracked (originAt start start.saved
      (Delivered inode raws start.saved)) reader)
    (appended : reader.disk.AppendOnly)
    (saved : reader.disk.saved =
      (reader.source.inode, reader.source.consumedOffset)) :
    CaughtUp inode reader.disk
      (raws ++ reader.history.taken.map Taken.raw) := by
  have atPath : reader.disk.path = some inode :=
    (tracked.path_eq appended.1).trans caughtUp.atPath
  obtain ⟨here, idle⟩ := tracked.steady appended.1
  have all : ∀ line ∈ reader.history.taken, inode = line.inode :=
    fun line present => Option.some.inj (atPath.symm.trans (here line present))
  have taken := linesOf_of_all all
  have before := tracked.genuine start.saved rfl
  have base : reader.history.base = start.saved := tracked.base_eq
  refine ⟨atPath, appended, ?_, ⟨tracked.savedUsed _ rfl, ?_⟩, ?_⟩
  · intro raw present
    rcases List.mem_append.mp present with old | new
    · exact caughtUp.areRecords raw old
    · obtain ⟨line, member, rfl⟩ := List.mem_map.mp new
      exact tracked.takenLines line member
  · rw [saved]
    intro whole trusted
    have cursor := (tracked.follows whole trusted).unbuffered
    have areRecords : ∀ raw ∈ linesOf reader.source.inode
        reader.history.taken, IsRecord 0x0a raw := by
      intro raw present
      obtain ⟨line, member, rfl⟩ := mem_linesOf present
      exact tracked.takenLines line member
    have started : Boundary 0x0a (reader.disk.files reader.source.inode)
        (reader.history.start reader.source.inode) ∧
          (reader.source.inode = inode →
            (reader.disk.files reader.source.inode).take
              (reader.history.start reader.source.inode) = raws.flatten) := by
      rw [ReaderHistory.start, base]
      split
      next same =>
        rw [same] at trusted ⊢
        obtain ⟨boundary, text⟩ := before.2 whole trusted
        exact ⟨boundary, text⟩
      next other =>
        refine ⟨⟨Nat.zero_le _, .inl rfl⟩, fun same => ?_⟩
        rw [caughtUp.elsewhere fun equal => other (same.trans equal.symm)]
        rfl
    have content := cursor.content
    rw [List.flatten_nil, List.append_nil] at content
    refine ⟨started.1.of_take areRecords cursor.inside content
      cursor.consumed_eq, fun same => ?_⟩
    change reader.source.inode = inode at same
    change (reader.disk.files reader.source.inode).take _ = _
    rw [content, started.2 same, same, taken, List.flatten_append]
  · rw [saved]
    intro different
    have away : reader.disk.path ≠ some reader.source.inode := fun current =>
      different (Option.some.inj (current.symm.trans atPath))
    have nothing := (idle away).2.1
    have unseen : start.saved.1 ≠ inode := fun same =>
      different (tracked.current inode atPath (.inr (.inl (base ▸ same.symm))))
    rw [caughtUp.elsewhere unseen, nothing]
    rfl

/-- Between two daemons the checkpoint file is behind the lines that have been
delivered. -/
theorem Sessions.caughtUp
    {setup : PluginSetup}
    {lines : List Bytes}
    (sessions : Sessions setup inode disk lines) :
    ∃ raws : List Bytes, lines = raws.map List.dropLast ∧
      CaughtUp inode disk raws := by
  induction sessions with
  | first absent atPath appended =>
      have saved := saved_of_absent absent
      refine ⟨[], rfl, atPath, appended, by simp, ?_, fun _ => rfl⟩
      rw [saved]
      exact ⟨Disk.zero_used _,
        fun _ _ => ⟨⟨Nat.zero_le _, .inl rfl⟩, fun _ => rfl⟩⟩
  | waits before grows appended inductionHypothesis =>
      obtain ⟨raws, equal, caughtUp⟩ := inductionHypothesis
      exact ⟨raws, equal, caughtUp.grows grows appended⟩
  | @session disk lines config started attached used detached ops before onDisk
      attach readWhole appended run detach wroteWhole stillAppended
      inductionHypothesis =>
      obtain ⟨raws, rfl, caughtUp⟩ := inductionHypothesis
      have start := (pluginAttach_starts setup config).ends attach rfl
      have atStart : CaughtUp inode attached.disk raws :=
        caughtUp.grows (onDisk ▸ start.grows) appended
      have trackedStart := start.tracked readWhole _ atStart.genuine
      have trackedUsed := (runOps_tracked trackedStart ops).ends run
      have settledUsed := (runOps_settled start.settled ops).ends run
      have cleanUsed := (runOps_clean start.clean ops).ends run
      have trackedEnd := (pluginDetach_tracked trackedUsed).ends detach
      obtain ⟨settledEnd, saved⟩ :=
        (pluginDetach_spec settledUsed cleanUsed).ends detach
      refine ⟨raws ++ detached.history.taken.map Taken.raw, ?_,
        atStart.session trackedEnd stillAppended (saved wroteWhole)⟩
      rw [ReaderHistory.delivered, settledEnd.returned, List.take_length,
        List.map_append, List.map_map]
      rfl

/-- However often a daemon is started and shut down, the lines delivered
altogether are the lines of the file up to the position in the checkpoint file,
each one once and in order, and that position is a line boundary. Behind any
calls of a daemon, the next one returns the line it takes. -/
theorem sessions_deliver_once
    {setup : PluginSetup}
    {lines : List Bytes}
    (sessions : Sessions setup inode disk lines) :
    lines = records 0x0a
        ((disk.files inode).take (disk.resumeAt inode)) ∧
      Boundary 0x0a (disk.files inode) (disk.resumeAt inode) ∧
      lines <+: records 0x0a (disk.files inode) ∧
      ∀ config started attached ops before,
        Ends (pluginAttach setup config) started (.ok 0) attached →
        Ends (runOps ops) attached () before → before.Returning := by
  obtain ⟨raws, rfl, caughtUp⟩ := sessions.caughtUp
  obtain ⟨boundary, content⟩ := caughtUp.content
  have upTo := records_flatten_append caughtUp.areRecords []
  rw [List.append_nil] at upTo
  refine ⟨?_, boundary, ?_, fun config started attached ops before attach run =>
    ?_⟩
  · rw [content, upTo]
    exact (List.append_nil _).symm
  · rw [← List.take_append_drop (disk.resumeAt inode) (disk.files inode),
      content, records_flatten_append caughtUp.areRecords]
    exact List.prefix_append _ _
  · have start := (pluginAttach_starts setup config).ends attach rfl
    exact ((runOps_settled start.settled ops).ends run).returning

/-- A setup that hashes file names, without regular expressions. -/
def hashedNames : PluginSetup where
  sha1 := hashText (Vector.replicate 80 0)
  compile := fun _ => .error []
  spoolDir := bytes "spool"

/-- The properties of an event source that reads a log file. -/
def logProperties : PropertyList :=
  { properties := [(bytes "logfile", [bytes "log"])] }

/-- A log reader that a daemon attaches on a disk. -/
def attachedOn (disk : Disk) : Reader :=
  (pluginAttach hashedNames logProperties (List.replicate 3 ({} : Entry))
    { disk := disk, source := freshSource }).state

/-- The log reader behind some calls. -/
def usedOn (disk : Disk) (ops : List Op) : Reader :=
  (runOps ops (List.replicate 30 ({} : Entry)) (attachedOn disk)).state

/-- The log reader that the daemon has shut down. -/
def detachedOn (disk : Disk) (ops : List Op) : Reader :=
  (pluginDetach (List.replicate 4 ({} : Entry)) (usedOn disk ops)).state

/-- The first daemon delivers a line. -/
def afterFirst : Reader :=
  detachedOn (oneFile (bytes "a\nb\nc") (by decide)) [.getNextLine]

/-- The log file grows, and the second daemon delivers two lines. -/
def afterSecond : Reader :=
  detachedOn (afterFirst.disk.append 1 (bytes "d\n"))
    [.getNextEvent, .hasNextLine, .getNextLine]

/-- One more daemon on a disk, whose log reader is called in some way. -/
theorem Sessions.next
    {disk : Disk}
    {lines : List Bytes}
    (before : Sessions hashedNames 1 disk lines)
    (ops : List Op)
    (attach : (pluginAttach hashedNames logProperties
      (List.replicate 3 ({} : Entry))
      { disk := disk, source := freshSource }).value = some (.ok 0))
    (run : (runOps ops (List.replicate 30 ({} : Entry))
      (attachedOn disk)).value = some ())
    (detach : (pluginDetach (List.replicate 4 ({} : Entry))
      (usedOn disk ops)).value = some ())
    (whole : (attachedOn disk).history.synced = true ∧
      (detachedOn disk ops).history.synced = true)
    (appended : (attachedOn disk).disk.AppendOnly ∧
      (detachedOn disk ops).disk.AppendOnly) :
    Sessions hashedNames 1 (detachedOn disk ops).disk
      (lines ++ (detachedOn disk ops).history.delivered) :=
  .session before rfl (ends_of_value _ _ _ attach) whole.1 appended.1
    (ends_of_value _ _ _ run) (ends_of_value _ _ _ detach) whole.2 appended.2

theorem sessions_deliver_once_two :
    Sessions hashedNames 1 afterSecond.disk
        [bytes "a", bytes "b", bytes "cd"] ∧
      [bytes "a", bytes "b", bytes "cd"] = records 0x0a
        ((afterSecond.disk.files 1).take (afterSecond.disk.resumeAt 1)) := by
  have first : Sessions hashedNames 1 afterFirst.disk ([] ++ [bytes "a"]) :=
    Sessions.next (.first rfl rfl ⟨rfl, rfl⟩) [.getNextLine] rfl rfl rfl
      (by decide) (by decide)
  have grown : Sessions hashedNames 1
      (afterFirst.disk.append 1 (bytes "d\n")) [bytes "a"] :=
    .waits first (Disk.grows_append _ _ _) (by decide)
  have second := grown.next [.getNextEvent, .hasNextLine, .getNextLine]
    rfl rfl rfl (by decide) (by decide)
  exact ⟨second, (sessions_deliver_once second).1⟩

end Logfile
end EvCollect
