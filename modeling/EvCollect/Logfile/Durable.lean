import EvCollect.Logfile.Frame
import EvCollect.Logfile.Recovery

/-!
# When a reported checkpoint is on the disk

A source remembers the position it last tried to write, and reports success
without another attempt where it still stands there. The remembered position is
the one in the checkpoint file as long as the last access to that file was
complete.
-/

namespace EvCollect
namespace Logfile

open Process

/-- If the last access to the checkpoint file was complete, the file holds the
position that the source remembers. -/
def Aside.Clean (aside : Aside) : Prop :=
  aside.history.synced = true →
    LogfileSource.decodeCheckpoint ((aside.checkpoint.getD []).take 16) =
      (aside.checkpointInode, aside.checkpointOffset)

/-- What is known where `writeCheckpoint` returns. -/
def Durable : LogPoint → Reader → Prop
  | .checkpointDone _, reader =>
      reader.history.synced = true →
        reader.disk.saved =
          (reader.source.inode, reader.source.consumedOffset)
  | _, _ => True

variable {reader : Reader}

theorem ReadsOnly.clean
    {process : ReaderProc α}
    (readsOnly : ReadsOnly process)
    (clean : reader.aside.Clean) :
    wp Durable process (fun _ after => after.aside.Clean) reader := by
  refine wp_mono (readsOnly Aside.Clean reader clean) ?_ fun _ _ kept => kept
  intro point state kept
  cases point <;> first | trivial | exact absurd kept.1 id

/-- A system call that is no return of `writeCheckpoint`. -/
theorem wp_unreported
    {point : LogPoint}
    {effect : Entry → Reader → α × Reader}
    {post : α → Reader → Prop}
    (unreported : ∀ success, point ≠ .checkpointDone success)
    (after : ∀ entry,
      post (effect entry (World.react entry reader)).1
        (effect entry (World.react entry reader)).2) :
    wp Durable (sysCall point effect) post reader := by
  refine wp_sysCall ?_ after
  cases point <;> first | trivial | exact absurd rfl (unreported _)

/-! ## Writing a checkpoint -/

theorem openCheckpoint_unsynced :
    wp Durable openCheckpoint
      (fun _ after => after.source = reader.source ∧
        after.history.synced = false) reader := by
  refine wp_unreported (by simp) fun entry => ?_
  split <;> exact ⟨rfl, rfl⟩

/-- A `write` to a file that was opened before, and so truncated: if it is
complete, the file holds what was written. -/
theorem writeSaved_clean
    (unsynced : reader.history.synced = false) :
    wp Durable
      (writeSaved (LogfileSource.encodeCheckpoint
        reader.source.checkpointInode reader.source.checkpointOffset))
      (fun _ after => after.source = reader.source ∧ after.aside.Clean)
      reader := by
  refine wp_unreported (by simp) fun entry => ?_
  split
  · refine ⟨rfl, fun synced => ?_⟩
    exact absurd (unsynced.symm.trans synced) (by simp)
  · refine ⟨rfl, fun synced => ?_⟩
    split at synced
    next complete =>
      have stored := saved_of_complete (World.react entry reader).disk
        reader.source.checkpointInode reader.source.checkpointOffset
      rw [← List.take_of_length_le complete] at stored
      exact stored
    next => exact absurd (unsynced.symm.trans synced) (by simp)

theorem storeCheckpoint_clean :
    wp Durable storeCheckpoint
      (fun _ after => after.source = reader.source ∧ after.aside.Clean)
      reader := by
  refine wp_bind (wp_get ?_)
  apply wp_seq openCheckpoint_unsynced
  rintro opened after ⟨sameSource, unsynced⟩
  have unsyncedClean : after.aside.Clean := fun synced =>
    absurd (unsynced.symm.trans synced) (by simp)
  cases opened with
  | false => exact wp_pure ⟨sameSource, unsyncedClean⟩
  | true =>
      rw [← sameSource]
      apply wp_seq (writeSaved_clean unsynced)
      rintro written state ⟨same, clean⟩
      cases written with
      | false => exact wp_pure ⟨same, clean⟩
      | true =>
          refine wp_seq (wp_unreported (by simp) fun entry => ?_)
            fun _ _ kept => wp_pure kept
          refine ⟨same, ?_⟩
          rw [aside_react]
          exact clean

theorem updateCheckpoint_clean
    (clean : reader.aside.Clean) :
    wp Durable updateCheckpoint
      (fun _ after => Cached after.source ∧ after.aside.Clean) reader := by
  refine wp_bind (wp_get ?_)
  split
  next noted => exact wp_pure ⟨noted, clean⟩
  next =>
    refine wp_bind (wp_modify (wp_mono storeCheckpoint_clean
      (fun _ _ known => known) ?_))
    rintro _ after ⟨sameSource, cleanAfter⟩
    rw [sameSource]
    exact ⟨⟨rfl, rfl⟩, cleanAfter⟩

/-- Where `writeCheckpoint` returns, the remembered position is the current
one. -/
theorem writeCheckpoint_clean
    (clean : reader.aside.Clean) :
    wp Durable writeCheckpoint (fun _ after => after.aside.Clean) reader := by
  apply wp_seq (updateCheckpoint_clean clean)
  rintro rc after ⟨cached, cleanAfter⟩
  have known : Durable (.checkpointDone (ReturnCode.isSuccess rc)) after := by
    intro synced
    rw [← cached.1, ← cached.2]
    exact cleanAfter synced
  refine wp_seq (wp_sysCall known fun entry => ?_) fun _ _ kept => wp_pure kept
  rw [aside_react]
  exact cleanAfter

theorem checkpointIfDue_clean
    (clean : reader.aside.Clean) :
    wp Durable checkpointIfDue (fun _ after => after.aside.Clean) reader := by
  have clock : ∀ {point : LogPoint} {state : Reader},
      (∀ success, point ≠ .checkpointDone success) → state.aside.Clean →
      wp Durable (unixMicros point) (fun _ after => after.aside.Clean) state := by
    intro point state unreported kept
    refine wp_unreported unreported fun entry => ?_
    rw [aside_react]
    exact kept
  refine wp_seq (clock (by simp) clean) fun now after kept => ?_
  refine wp_bind (wp_get ?_)
  split
  · refine wp_seq (writeCheckpoint_clean kept) fun _ state held => ?_
    refine wp_seq (clock (by simp) held) fun _ last noted => ?_
    exact wp_modify noted
  · exact wp_pure kept

/-! ## Runs -/

theorem getNextLine_clean
    (clean : reader.aside.Clean)
    (line : Bytes) :
    wp Durable (getNextLine line) (fun _ after => after.aside.Clean)
      reader := by
  refine wp_seq (fillLineBuf_readsOnly.clean clean) fun rc after kept => ?_
  cases rc with
  | error failure => exact wp_pure kept
  | ok _ =>
      have taken : wp Durable (takeLine line)
          (fun _ state => state.aside.Clean) after := by
        refine wp_bind (wp_get ?_)
        split
        · exact wp_pure kept
        · exact wp_bind (wp_modify (wp_pure kept))
      refine wp_seq taken fun _ state held => ?_
      refine wp_seq (checkpointIfDue_clean held) fun _ last noted => ?_
      exact wp_bind (wp_modify (wp_pure noted))

theorem runOp_clean
    (clean : reader.aside.Clean)
    (op : Op) :
    wp Durable (runOp op) (fun _ after => after.aside.Clean) reader := by
  cases op with
  | hasNextLine =>
      exact wp_seq (hasNextLine_readsOnly.clean clean) fun _ _ kept =>
        wp_pure kept
  | getNextLine =>
      exact wp_seq (getNextLine_clean clean []) fun _ _ kept => wp_pure kept
  | getNextEvent =>
      exact wp_seq (wp_getNextEvent (fun _ _ => trivial)
        (getNextLine_clean clean []) []) fun _ _ kept => wp_pure kept
  | writeCheckpoint =>
      exact wp_seq (writeCheckpoint_clean clean) fun _ _ kept => wp_pure kept

theorem runOps_clean
    (clean : reader.aside.Clean)
    (ops : List Op) :
    wp Durable (runOps ops) (fun _ after => after.aside.Clean) reader := by
  refine wp_forM (fun op _ state kept => ?_) clean
  refine wp_seq (wp_unreported (by simp) fun entry => ?_)
    fun _ _ held => runOp_clean held op
  rw [aside_react]
  exact kept

/-- A complete read of the checkpoint file restores the position in it. -/
theorem readCheckpoint_restores (reader : Reader) :
    wp (fun _ _ => True) readCheckpoint
      (fun _ after => after.history.synced = true →
        (after.source.inode, after.source.consumedOffset) =
          reader.disk.saved) reader := by
  apply readCheckpoint_spec (fun _ _ _ _ _ => trivial)
  intro _ after synced position grows found complete
  have same := found.resolve_right fun partly =>
    absurd (partly.1.symm.trans complete) (by simp)
  rw [← saved_of_grows grows, ← same]
  rfl

/-- Whatever the life of a source, where `writeCheckpoint` returns and the last
access to the checkpoint file was complete, the file holds the current
position, and a new source that reads the file restores it. -/
theorem success_durable
    {ops : List Op}
    {start after : Reader}
    {fresh : LogfileSource}
    {rc : ReturnCode}
    (reached : Reaches (readerLife ops) start (.checkpointDone true) reader)
    (complete : reader.history.synced = true)
    (ended : Ends readCheckpoint { disk := reader.disk, source := fresh } rc
      after)
    (readWhole : after.history.synced = true) :
    (after.source.inode, after.source.consumedOffset) =
      (reader.source.inode, reader.source.consumedOffset) := by
  have lifeDurable : wp Durable (readerLife ops)
      (fun _ state => state.aside.Clean) start := by
    refine wp_bind (readCheckpoint_spec ?_ ?_)
    · rintro point _ _ _ (rfl | rfl | rfl) <;> trivial
    · intro _ started synced position _ found
      refine runOps_clean (fun whole => ?_) ops
      have same := found.resolve_right fun partly =>
        absurd (partly.1.symm.trans whole) (by simp)
      exact same.symm
  calc (after.source.inode, after.source.consumedOffset)
      = reader.disk.saved :=
        (readCheckpoint_restores
          { disk := reader.disk, source := fresh }).ends ended readWhole
    _ = (reader.source.inode, reader.source.consumedOffset) :=
        lifeDurable.reaches reached complete

/-- A source that has returned a line and writes a checkpoint behind it. -/
def reported : Reader :=
  (readerLife [.getNextLine, .writeCheckpoint] (List.replicate 21 ({} : Entry))
    atTwoLines).state

theorem success_durable_secondLine :
    ∃ after : Reader,
      Ends readCheckpoint { disk := reported.disk, source := freshSource }
          ReturnCode.success after ∧
        (after.source.inode, after.source.consumedOffset) = (1, 2) := by
  have reached : Reaches (readerLife [.getNextLine, .writeCheckpoint])
      atTwoLines (.checkpointDone true) reported :=
    reaches_of_point _ _ _ (by decide)
  have ended : Ends readCheckpoint
      { disk := reported.disk, source := freshSource } ReturnCode.success _ :=
    ends_of_value _ _ (List.replicate 3 ({} : Entry)) rfl
  have restored := success_durable reached (by decide) ended (by decide)
  exact ⟨_, ended, restored.trans (by decide)⟩

/-- The same source, whose `write` fails, and that is asked to write a
checkpoint once more. -/
def reportedAgain : Reader :=
  (readerLife [.getNextLine, .writeCheckpoint, .writeCheckpoint]
    (List.replicate 19 ({} : Entry) ++ { result := -1 } ::
      List.replicate 2 ({} : Entry)) atTwoLines).state

/-- The second call reports success, but there is no checkpoint on the disk. -/
theorem success_not_durable :
    Reaches (readerLife [.getNextLine, .writeCheckpoint, .writeCheckpoint])
        atTwoLines (.checkpointDone true) reportedAgain ∧
      (reportedAgain.source.inode,
        reportedAgain.source.consumedOffset) = (1, 2) ∧
      ∃ after : Reader,
        Ends readCheckpoint
            { disk := reportedAgain.disk, source := freshSource }
            ReturnCode.success after ∧
          after.history.synced = true ∧
          (after.source.inode, after.source.consumedOffset) = (0, 0) := by
  refine ⟨reaches_of_point _ _ _ (by decide), by decide, _,
    ends_of_value _ _ (List.replicate 3 ({} : Entry)) rfl, ?_, ?_⟩
  · decide
  · decide

end Logfile
end EvCollect
