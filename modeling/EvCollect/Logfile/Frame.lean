import EvCollect.Logfile.Reader
import EvCollect.Process.Compositional

/-!
# What the reader leaves alone

The functions that fill the line buffer take no line, do not touch the
checkpoint file or what the source remembers about it, and do not change how
lines become events. No function changes the names of the files. The functions
are gone through once, for any property that composes.
-/

namespace EvCollect
namespace Logfile

open Process

/-- The parts of a reader that have nothing to do with reading. -/
structure Aside where
  history : ReaderHistory
  checkpoint : Option Bytes
  checkpointInode : UInt64
  checkpointOffset : UInt64
  pcreHandle : Option Pcre
  pcreFields : List Bytes

def Reader.aside (reader : Reader) : Aside :=
  { history := reader.history
    checkpoint := reader.disk.checkpoint
    checkpointInode := reader.source.checkpointInode
    checkpointOffset := reader.source.checkpointOffset
    pcreHandle := reader.source.pcreHandle
    pcreFields := reader.source.pcreFields }

/-- The names with which a source was constructed. -/
def LogfileSource.names (source : LogfileSource) : Bytes × Bytes :=
  (source.filename, source.checkpointFilename)

/-- The program points of the functions that fill the line buffer. -/
def LogPoint.Reading : LogPoint → Prop
  | .stat => True
  | .openLog => True
  | .seek => True
  | .seekFailed => True
  | .lineLoop => True
  | .byteLoop => True
  | .read => True
  | .closeLog => True
  | _ => False

/-- A process that only reads lines. -/
def ReadsOnly (process : ReaderProc α) : Prop :=
  ∀ holds : Aside → Prop,
    Preserves LogPoint.Reading (fun reader => holds reader.aside) process

/-- A process that goes on with the same log file and checkpoint file. -/
def KeepsNames (process : ReaderProc α) : Prop :=
  ∀ names, Preserves (fun _ => True)
    (fun reader => reader.source.names = names) process

/-- The names are as they were. -/
def SameNames (before after : Reader) : Prop :=
  after.source.names = before.source.names

/-- A step of the functions that fill the line buffer. -/
def ReadStep (before after : Reader) : Prop :=
  after.aside = before.aside ∧ SameNames before after

@[simp] theorem aside_react (entry : Entry) (reader : Reader) :
    (World.react entry reader).aside = reader.aside := by
  have same := (Disk.grows_react entry reader.disk).checkpoint
  change Aside.mk _ (reader.disk.react entry).checkpoint _ _ _ _ = _
  rw [same]
  rfl

theorem ReadStep.react (entry : Entry) (reader : Reader) :
    ReadStep reader (World.react entry reader) :=
  ⟨aside_react entry reader, rfl⟩

/-! ## Filling the line buffer -/

section Reading

variable {good : ∀ {α : Type}, ReaderProc α → Prop}
variable (rules : Compositional LogPoint.Reading ReadStep good)

include rules

theorem sysCall_reading
    {point : LogPoint}
    {effect : Entry → Reader → α × Reader}
    (allowed : point.Reading)
    (same : ∀ entry reader, ReadStep reader (effect entry reader).2) :
    good (sysCall point effect) := by
  apply rules.call allowed
  intro entry reader
  obtain ⟨sameAside, sameNames⟩ := same entry (World.react entry reader)
  exact ⟨sameAside.trans (aside_react entry reader), sameNames⟩

theorem onSource_reading
    {step : LogfileSource → LogfileSource}
    (same : ∀ reader, ReadStep reader (reader.onSource step)) :
    good (Proc.modify (Reader.onSource step)) :=
  rules.modify same

theorem stat_reading : good stat :=
  sysCall_reading rules trivial fun _ _ => ⟨rfl, rfl⟩

theorem openLog_reading : good openLog := by
  refine sysCall_reading rules trivial fun entry reader => ?_
  split
  · exact ⟨rfl, rfl⟩
  · split <;> exact ⟨rfl, rfl⟩

theorem lseek_reading (offset : UInt64) : good (lseek offset) := by
  refine sysCall_reading rules trivial fun entry reader => ?_
  split <;> exact ⟨rfl, rfl⟩

theorem readLog_reading : good readLog := by
  refine sysCall_reading rules trivial fun entry reader => ?_
  split <;> exact ⟨rfl, rfl⟩

theorem closeLog_reading
    {point : LogPoint}
    (allowed : point.Reading) :
    good (closeLog point) :=
  sysCall_reading rules allowed fun _ _ => ⟨rfl, rfl⟩

theorem fillBuf_reading : good fillBuf := by
  apply rules.bind (readLog_reading rules)
  intro data
  apply rules.ite (rules.pure _)
  exact rules.bind (onSource_reading rules fun _ => ⟨rfl, rfl⟩)
    fun _ => rules.pure _

theorem takeByte_reading : good takeByte := by
  apply rules.bind rules.get
  intro reader
  refine rules.ite ?_ (rules.pure _)
  exact rules.bind (onSource_reading rules fun _ => ⟨rfl, rfl⟩)
    fun _ => rules.pure _

theorem readNextByte_reading : good readNextByte := by
  apply rules.bind rules.get
  intro reader
  refine rules.ite ?_ (takeByte_reading rules)
  apply rules.bind (fillBuf_reading rules)
  intro filled
  cases filled with
  | false => exact rules.pure _
  | true => exact takeByte_reading rules

theorem readLinePass_reading (line : Bytes) : good (readLinePass line) := by
  apply rules.bind (readNextByte_reading rules)
  intro byte
  cases byte with
  | none => exact rules.pure _
  | some byte => exact rules.ite (rules.pure _) (rules.pure _)

theorem readLine_reading : good readLine :=
  rules.iterate .byteLoop trivial ReadStep.react (readLinePass_reading rules)

theorem readLinesPass_reading : good readLinesPass := by
  apply rules.bind (readLine_reading rules)
  intro line
  cases line with
  | none => exact rules.pure _
  | some line =>
      apply rules.bind rules.get
      intro reader
      refine rules.ite ?_ (rules.pure _)
      exact rules.bind (onSource_reading rules fun _ => ⟨rfl, rfl⟩)
        fun _ => rules.pure _

theorem readOpened_reading (descriptor : Nat) :
    good (readOpened descriptor) := by
  apply rules.bind rules.get
  intro reader
  apply rules.bind (lseek_reading rules _)
  intro moved
  cases moved with
  | false =>
      exact rules.bind (closeLog_reading rules trivial) fun _ => rules.pure _
  | true =>
      refine rules.bind (onSource_reading rules fun _ => ?_) fun _ => ?_
      · exact ⟨rfl, rfl⟩
      apply rules.bind (rules.iterate .lineLoop trivial ReadStep.react
        fun _ => readLinesPass_reading rules)
      intro _
      exact rules.bind (closeLog_reading rules trivial) fun _ => rules.pure _

theorem locate_reading : good locate := by
  apply rules.bind (stat_reading rules)
  intro found
  cases found with
  | none => exact rules.pure _
  | some stat =>
      refine rules.bind (onSource_reading rules fun reader => ?_)
        fun _ => rules.pure _
      unfold Reader.onSource LogfileSource.resetFor
      split <;> exact ⟨rfl, rfl⟩

theorem readLines_reading : good readLines := by
  apply rules.bind (locate_reading rules)
  intro found
  cases found with
  | none => exact rules.bind rules.get fun _ => rules.pure _
  | some stat =>
      apply rules.bind rules.get
      intro reader
      apply rules.ite (rules.pure _)
      apply rules.bind (openLog_reading rules)
      intro opened
      cases opened with
      | none => exact rules.pure _
      | some descriptor => exact readOpened_reading rules descriptor

theorem fillLineBuf_reading : good fillLineBuf := by
  apply rules.bind rules.get
  intro reader
  exact rules.ite (readLines_reading rules) (rules.pure _)

theorem hasNextLine_reading : good hasNextLine := by
  apply rules.bind (fillLineBuf_reading rules)
  intro _
  exact rules.bind rules.get fun _ => rules.pure _

end Reading

theorem readsOnly_compositional :
    Compositional LogPoint.Reading ReadStep ReadsOnly :=
  Preserves.compositional fun holds _ _ step before =>
    Eq.mp (congrArg holds step.1.symm) before

/-- Filling the line buffer only reads lines. -/
theorem fillLineBuf_readsOnly : ReadsOnly fillLineBuf :=
  fillLineBuf_reading readsOnly_compositional

theorem hasNextLine_readsOnly : ReadsOnly hasNextLine :=
  hasNextLine_reading readsOnly_compositional

/-! ## All functions -/

section Calls

variable {good : ∀ {α : Type}, ReaderProc α → Prop}
variable (rules : Compositional (fun _ => True) SameNames good)

include rules

/-- What holds of all functions holds of those that only read lines. -/
theorem reading_compositional :
    Compositional LogPoint.Reading ReadStep good :=
  rules.mono (fun _ _ => trivial) fun _ _ step => step.2

theorem sysCall_keeping
    {point : LogPoint}
    {effect : Entry → Reader → α × Reader}
    (same : ∀ entry reader, SameNames reader (effect entry reader).2) :
    good (sysCall point effect) :=
  rules.call trivial fun entry reader => same entry (World.react entry reader)

theorem openCheckpoint_keeping : good openCheckpoint := by
  refine sysCall_keeping rules fun entry reader => ?_
  split <;> rfl

theorem writeSaved_keeping (data : Bytes) : good (writeSaved data) := by
  refine sysCall_keeping rules fun entry reader => ?_
  split <;> rfl

theorem pause_keeping (point : LogPoint) : good (pause point) :=
  sysCall_keeping rules fun _ _ => rfl

theorem unixMicros_keeping (point : LogPoint) : good (unixMicros point) :=
  sysCall_keeping rules fun _ _ => rfl

theorem storeCheckpoint_keeping : good storeCheckpoint := by
  apply rules.bind rules.get
  intro reader
  apply rules.bind (openCheckpoint_keeping rules)
  intro opened
  cases opened with
  | false => exact rules.pure _
  | true =>
      apply rules.bind (writeSaved_keeping rules _)
      intro written
      cases written with
      | false => exact rules.pure _
      | true => exact rules.bind (pause_keeping rules _) fun _ => rules.pure _

theorem writeCheckpoint_keeping : good writeCheckpoint := by
  refine rules.bind ?_ fun rc =>
    rules.bind (pause_keeping rules _) fun _ => rules.pure _
  apply rules.bind rules.get
  intro reader
  apply rules.ite (rules.pure _)
  exact rules.bind (rules.modify fun _ => rfl)
    fun _ => storeCheckpoint_keeping rules

theorem takeLine_keeping (line : Bytes) : good (takeLine line) := by
  apply rules.bind rules.get
  intro reader
  split
  · exact rules.pure _
  · exact rules.bind (rules.modify fun _ => rfl) fun _ => rules.pure _

theorem checkpointIfDue_keeping : good checkpointIfDue := by
  apply rules.bind (unixMicros_keeping rules _)
  intro now
  apply rules.bind rules.get
  intro reader
  refine rules.ite ?_ (rules.pure _)
  apply rules.bind (writeCheckpoint_keeping rules)
  intro _
  apply rules.bind (unixMicros_keeping rules _)
  exact fun _ => rules.modify fun _ => rfl

theorem getNextLine_keeping (line : Bytes) : good (getNextLine line) := by
  apply rules.bind (fillLineBuf_reading (reading_compositional rules))
  intro rc
  cases rc with
  | error failure => exact rules.pure _
  | ok _ =>
      apply rules.bind (takeLine_keeping rules line)
      intro taken
      apply rules.bind (checkpointIfDue_keeping rules)
      intro _
      exact rules.bind (rules.modify fun _ => rfl) fun _ => rules.pure _

theorem getNextEvent_keeping (eventJson : Bytes) :
    good (getNextEvent eventJson) := by
  apply rules.bind (getNextLine_keeping rules [])
  intro rc
  cases rc with
  | error failure => exact rules.pure _
  | ok rawLine =>
      apply rules.ite (rules.pure _)
      apply rules.bind rules.get
      intro reader
      split
      · exact rules.halt trivial
      · exact rules.pure _

theorem runOp_keeping (op : Op) : good (runOp op) := by
  cases op with
  | hasNextLine =>
      exact rules.bind (hasNextLine_reading (reading_compositional rules))
        fun _ => rules.pure _
  | getNextLine =>
      exact rules.bind (getNextLine_keeping rules []) fun _ => rules.pure _
  | getNextEvent =>
      exact rules.bind (getNextEvent_keeping rules []) fun _ => rules.pure _
  | writeCheckpoint =>
      exact rules.bind (writeCheckpoint_keeping rules) fun _ => rules.pure _

end Calls

theorem keepsNames_compositional :
    Compositional (fun _ => True) SameNames KeepsNames :=
  Preserves.compositional fun _ _ _ step before => step.trans before

theorem runOp_keepsNames (op : Op) : KeepsNames (runOp op) :=
  runOp_keeping keepsNames_compositional op

theorem writeCheckpoint_keepsNames : KeepsNames writeCheckpoint :=
  writeCheckpoint_keeping keepsNames_compositional

/-- What is known at the end, and that the names are the same. -/
theorem KeepsNames.wp_and
    {process : ReaderProc α}
    {post : α → Reader → Prop}
    {reader : Reader}
    (keeps : KeepsNames process)
    (valid : wp (fun _ _ => True) process post reader) :
    wp (fun _ _ => True) process
      (fun value after => after.source.names = reader.source.names ∧
        post value after) reader :=
  wp_mono (Process.wp_and (keeps _ reader rfl) valid) (fun _ _ _ => trivial)
    fun _ _ known => known

/-- The functions of the reader do not look ahead. -/
theorem getNextEvent_causal (eventJson : Bytes) :
    Causal (getNextEvent eventJson) :=
  getNextEvent_keeping (Causal.compositional) eventJson

theorem hasNextLine_causal : Causal hasNextLine :=
  hasNextLine_reading (Causal.compositional)

end Logfile
end EvCollect
