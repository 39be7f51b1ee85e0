import EvCollect.Logfile.Durable
import EvCollect.Logfile.Plugin

/-!
# What a call does to the checkpoint file

Several sources can share a checkpoint file. So what matters of a call is
whether it leaves that file and what the source remembers about it as they were,
or is the last one to access it.
-/

namespace EvCollect
namespace Logfile

open Process Service

/-! ## Accesses to the checkpoint file -/

/-- The contents of the checkpoint file, and what the source knows of them. -/
structure Traces where
  checkpoint : Option Bytes
  checkpointInode : UInt64
  checkpointOffset : UInt64
  synced : Bool

def Aside.traces (aside : Aside) : Traces :=
  { checkpoint := aside.checkpoint
    checkpointInode := aside.checkpointInode
    checkpointOffset := aside.checkpointOffset
    synced := aside.history.synced }

/-- Nothing has happened to the checkpoint file, or the source was the last to
access it. -/
def Aside.Touched (traces : Traces) (aside : Aside) : Prop :=
  aside.traces = traces ∨ aside.Clean

/-- The position of a source: its file, and the end of the lines taken. -/
def LogfileSource.position (source : LogfileSource) : UInt64 × UInt64 :=
  (source.inode, source.consumedOffset)

variable {reader : Reader}
variable {traces : Traces}

/-- A call that keeps `Aside.Touched` at its end. -/
abbrev Touches (process : ReaderProc α) : Prop :=
  ∀ traces, Keeps (fun reader => reader.aside.Touched traces) process

theorem ReadsOnly.touches
    {process : ReaderProc α}
    (readsOnly : ReadsOnly process) :
    Touches process :=
  fun traces state before => wp_mono
    (readsOnly (Aside.Touched traces) state before)
    (fun _ _ _ => trivial) fun _ _ kept => kept

/-- A checkpoint is written, or was before. The position stays as it is. -/
theorem writeCheckpoint_touches
    (touched : reader.aside.Touched traces) :
    wp (fun _ _ => True) writeCheckpoint
      (fun _ after => after.aside.Touched traces ∧ Cached after.source ∧
        after.source.position = reader.source.position) reader := by
  have updated : wp (fun _ _ => True) updateCheckpoint
      (fun _ after => after.aside.Touched traces ∧ Cached after.source ∧
        after.source.position = reader.source.position) reader := by
    refine wp_bind (wp_get ?_)
    split
    next noted => exact wp_pure ⟨touched, noted, rfl⟩
    next =>
      refine wp_bind (wp_modify (wp_mono storeCheckpoint_clean
        (fun _ _ _ => trivial) ?_))
      rintro _ after ⟨sameSource, clean⟩
      rw [sameSource]
      exact ⟨Or.inr clean, ⟨rfl, rfl⟩, rfl⟩
  refine wp_seq updated fun rc after kept => ?_
  refine wp_seq (wp_sysCall trivial fun entry => ?_) fun _ _ kept => wp_pure kept
  rw [aside_react]
  exact kept

theorem checkpointIfDue_touches : Touches checkpointIfDue := by
  intro traces state touched
  refine wp_bind (wp_sysCall trivial fun entry => wp_bind (wp_get ?_))
  have reacted : (World.react entry state : Reader).aside.Touched traces := by
    rw [aside_react]
    exact touched
  split
  · refine wp_seq (writeCheckpoint_touches reacted) fun _ written kept => ?_
    refine wp_bind (wp_sysCall trivial fun last => wp_modify ?_)
    have noted := kept.1
    rw [← aside_react last] at noted
    exact noted
  · exact wp_pure reacted

theorem getNextLine_touches (line : Bytes) : Touches (getNextLine line) := by
  intro traces state touched
  refine wp_seq (fillLineBuf_readsOnly.touches _ state touched)
    fun rc after kept => ?_
  cases rc with
  | error failure => exact wp_pure kept
  | ok _ =>
      have taken : wp (fun _ _ => True) (takeLine line)
          (fun _ popped => popped.aside.Touched traces) after := by
        refine wp_bind (wp_get ?_)
        split
        · exact wp_pure kept
        · exact wp_bind (wp_modify (wp_pure kept))
      refine wp_seq taken fun _ popped held => ?_
      refine wp_seq (checkpointIfDue_touches _ popped held) fun _ last noted => ?_
      exact wp_bind (wp_modify (wp_pure noted))

theorem runOp_touches (op : Op) : Touches (runOp op) := by
  intro traces state touched
  cases op with
  | hasNextLine =>
      exact wp_seq (hasNextLine_readsOnly.touches _ state touched)
        fun _ _ kept => wp_pure kept
  | getNextLine =>
      exact wp_seq (getNextLine_touches _ _ state touched)
        fun _ _ kept => wp_pure kept
  | getNextEvent =>
      exact wp_seq (wp_getNextEvent (fun _ _ => trivial)
        (getNextLine_touches _ _ state touched) []) fun _ _ kept => wp_pure kept
  | writeCheckpoint =>
      exact wp_seq (writeCheckpoint_touches touched)
        fun _ _ kept => wp_pure kept.1

/-- A source that is attached has read its position from the checkpoint file,
or has not read all of it, and leaves that file alone. -/
theorem pluginAttach_reads
    {setup : PluginSetup}
    {config : PropertyList}
    {filename : Bytes}
    (named : config.get (bytes "logfile") = some filename) :
    wp (fun _ _ => True) (pluginAttach setup config)
      (fun _ after =>
        after.source.names = (LogfileSource.create setup.sha1 filename
          setup.spoolDir).names ∧
        after.disk.checkpoint = reader.disk.checkpoint ∧
        Cached after.source ∧
        (after.history.synced = true →
          after.source.position = reader.disk.saved)) reader := by
  have read : wp (fun _ _ => True) readCheckpoint
      (fun _ after =>
        after.source.names = (LogfileSource.create setup.sha1 filename
          setup.spoolDir).names ∧
        after.disk.checkpoint = reader.disk.checkpoint ∧
        Cached after.source ∧
        (after.history.synced = true →
          after.source.position = reader.disk.saved))
      (construct (LogfileSource.create setup.sha1 filename setup.spoolDir)
        reader) := by
    apply readCheckpoint_spec (fun _ _ _ _ _ => trivial)
    intro _ after synced position grows found
    refine ⟨rfl, grows.checkpoint, ⟨rfl, rfl⟩, fun whole => ?_⟩
    have same := found.resolve_right fun partly =>
      absurd (partly.1.symm.trans whole) (by simp)
    exact same.trans (saved_of_grows grows)
  unfold pluginAttach
  rw [named]
  refine wp_bind (wp_modify (wp_seq read fun _ after known => ?_))
  split
  · exact wp_pure known
  next regex _ =>
    refine wp_bind (wp_get (wp_bind (wp_modify (wp_pure ?_))))
    obtain ⟨handle, fields, same⟩ :=
      LogfileSource.setRegex_snd setup.compile regex after.source
    rw [Reader.onSource, same]
    exact known

end Logfile
end EvCollect
