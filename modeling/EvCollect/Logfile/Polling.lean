import EvCollect.Logfile.Plugin
import EvCollect.Logfile.Run

/-!
# What a call of the log reader takes and returns

A call of `getNextEvent` takes at most one line and returns the event of that
line. It may complete a checkpoint that covers the line before it returns; no
other call can.
-/

namespace EvCollect
namespace Logfile

open Process

/-- What `getNextEvent` leaves in an empty event buffer for a line, newline
included, or `none` where it throws. -/
def LogfileSource.lineEvent
    (source : LogfileSource)
    (raw : Bytes) : Option Bytes :=
  if raw.dropLast.isEmpty then some []
  else source.formatEvent raw.dropLast []

/-- Between two calls all lines taken have been returned. -/
structure Reader.Settled (reader : Reader) : Prop where
  returned : reader.history.returned = reader.history.taken.length
  written : reader.history.written ≤ reader.history.taken.length

/-- How a reader can come from an earlier one by a part of a call: it has taken
one line at most, and a checkpoint covers that line only if it was written in
this call. -/
structure Polling (before after : Reader) : Prop where
  pcreHandle : after.source.pcreHandle = before.source.pcreHandle
  pcreFields : after.source.pcreFields = before.source.pcreFields
  taken : after.history.taken = before.history.taken ∨
    ∃ line, after.history.taken = before.history.taken ++ [line]
  written : after.history.written ≤ after.history.taken.length
  early : after.history.written ≤ before.history.taken.length ∨
    before.history.taken.length ∈ after.history.early

/-- The events of lines depend on the regular expression only. -/
theorem lineEvent_congr
    {first second : LogfileSource}
    (sameHandle : second.pcreHandle = first.pcreHandle)
    (sameFields : second.pcreFields = first.pcreFields)
    (raw : Bytes) :
    second.lineEvent raw = first.lineEvent raw := by
  unfold LogfileSource.lineEvent LogfileSource.formatEvent
  rw [sameHandle, sameFields]

variable {before reader : Reader}

theorem Polling.refl (settled : reader.Settled) : Polling reader reader where
  pcreHandle := rfl
  pcreFields := rfl
  taken := Or.inl rfl
  written := settled.written
  early := Or.inl settled.written

theorem Polling.react
    (polling : Polling before reader)
    (entry : Entry) :
    Polling before (World.react entry reader) where
  pcreHandle := polling.pcreHandle
  pcreFields := polling.pcreFields
  taken := polling.taken
  written := polling.written
  early := polling.early

/-- A complete checkpoint covers all lines taken so far, and is noted as an
early one if the last of them has not been returned. -/
theorem Polling.noteWritten
    (polling : Polling before reader)
    (returned : reader.history.returned = before.history.taken.length)
    (disk : Disk) :
    Polling before
      { reader with
        disk := disk
        history := noteWritten reader.history } := by
  refine
    { pcreHandle := polling.pcreHandle
      pcreFields := polling.pcreFields
      taken := polling.taken
      written := le_refl _
      early := ?_ }
  by_cases inside : reader.history.returned < reader.history.taken.length
  · right
    rw [returned] at inside
    simp [Logfile.noteWritten, inside, returned]
  · left
    rw [← returned]
    exact not_lt.mp inside

/-! ## Checkpoints -/

/-- Inside of a call: its line has been taken, or will not be, and it has not
returned. -/
def Inside (before : Reader) (taken : List Taken) (reader : Reader) : Prop :=
  Polling before reader ∧
    reader.history.returned = before.history.taken.length ∧
    reader.history.taken = taken

variable {taken : List Taken}

theorem sysCall_inside
    {point : LogPoint}
    {effect : Entry → Reader → α × Reader}
    (kept : ∀ entry reader, Inside before taken reader →
      Inside before taken (effect entry reader).2) :
    Preserves (fun _ => True) (Inside before taken) (sysCall point effect) :=
  Preserves.call trivial fun entry _ inside =>
    kept entry _ ⟨inside.1.react entry, inside.2⟩

theorem pause_inside
    (point : LogPoint) :
    Preserves (fun _ => True) (Inside before taken) (pause point) :=
  sysCall_inside fun _ _ inside => inside

theorem openCheckpoint_inside :
    Preserves (fun _ => True) (Inside before taken) openCheckpoint := by
  refine sysCall_inside fun entry reader ⟨polling, returned, same⟩ => ?_
  split
  · exact ⟨⟨polling.1, polling.2, polling.3, polling.4, polling.5⟩, returned,
      same⟩
  · exact ⟨⟨polling.1, polling.2, polling.3, polling.4, polling.5⟩, returned,
      same⟩

theorem writeSaved_inside (data : Bytes) :
    Preserves (fun _ => True) (Inside before taken) (writeSaved data) := by
  refine sysCall_inside fun entry reader ⟨polling, returned, same⟩ => ?_
  split
  · exact ⟨polling, returned, same⟩
  · split
    · exact ⟨polling.noteWritten returned _, returned, same⟩
    · exact ⟨⟨polling.1, polling.2, polling.3, polling.4, polling.5⟩, returned,
        same⟩

theorem storeCheckpoint_inside :
    Preserves (fun _ => True) (Inside before taken) storeCheckpoint := by
  refine Preserves.bind Preserves.get fun reader => ?_
  refine Preserves.bind openCheckpoint_inside fun opened => ?_
  cases opened with
  | false => exact Preserves.pure _
  | true =>
      refine Preserves.bind (writeSaved_inside _) fun written => ?_
      cases written with
      | false => exact Preserves.pure _
      | true =>
          exact Preserves.bind (pause_inside _) fun _ => Preserves.pure _

theorem onSource_inside
    {step : LogfileSource → LogfileSource}
    (sameHandle : ∀ source, (step source).pcreHandle = source.pcreHandle)
    (sameFields : ∀ source, (step source).pcreFields = source.pcreFields) :
    Preserves (fun _ => True) (Inside before taken)
      (Proc.modify (Reader.onSource step) : ReaderProc Unit) := by
  refine Preserves.modify fun reader ⟨polling, returned, same⟩ =>
    ⟨⟨?_, ?_, polling.3, polling.4, polling.5⟩, returned, same⟩
  · exact (sameHandle _).trans polling.pcreHandle
  · exact (sameFields _).trans polling.pcreFields

theorem writeCheckpoint_inside :
    Preserves (fun _ => True) (Inside before taken) writeCheckpoint := by
  refine Preserves.bind ?_ fun rc =>
    Preserves.bind (pause_inside _) fun _ => Preserves.pure _
  refine Preserves.bind Preserves.get fun reader =>
    Preserves.composes.ite (Preserves.pure _) ?_
  exact Preserves.bind (onSource_inside (fun _ => rfl) fun _ => rfl)
    fun _ => storeCheckpoint_inside

theorem checkpointIfDue_inside :
    Preserves (fun _ => True) (Inside before taken) checkpointIfDue := by
  refine Preserves.bind (sysCall_inside fun _ _ inside => inside) fun now => ?_
  refine Preserves.bind Preserves.get fun reader =>
    Preserves.composes.ite ?_ (Preserves.pure _)
  refine Preserves.bind writeCheckpoint_inside fun rc => ?_
  refine Preserves.bind (sysCall_inside fun _ _ inside => inside) fun now => ?_
  exact onSource_inside (fun _ => rfl) fun _ => rfl

/-! ## Calls -/

/-- What holds at the program points of a call. -/
def PollingAt (before : Reader) : LogPoint → Reader → Prop :=
  fun _ reader => Polling before reader

theorem wp_inside
    {process : ReaderProc α}
    (preserves : Preserves (fun _ => True) (Inside before taken) process)
    (inside : Inside before taken reader) :
    wp (PollingAt before) process (fun _ after => Inside before taken after)
      reader :=
  wp_mono (preserves reader inside) (fun _ _ kept => kept.2.1)
    fun _ _ kept => kept

/-- Reading lines takes none of them. -/
theorem ReadsOnly.wp_inside
    {process : ReaderProc α}
    (readsOnly : ReadsOnly process)
    (settled : reader.Settled) :
    wp (PollingAt reader) process
      (fun _ after => Inside reader reader.history.taken after ∧
        after.Settled) reader := by
  have same := readsOnly (fun aside => aside = reader.aside) reader rfl
  have inside : ∀ after : Reader, after.aside = reader.aside →
      Inside reader reader.history.taken after ∧ after.Settled := by
    intro after equal
    have sameHistory : after.history = reader.history :=
      congrArg Aside.history equal
    have polling : Polling reader after := by
      refine
        { pcreHandle := congrArg Aside.pcreHandle equal
          pcreFields := congrArg Aside.pcreFields equal
          taken := ?_
          written := ?_
          early := ?_ }
      · rw [sameHistory]
        exact Or.inl rfl
      · rw [sameHistory]
        exact settled.written
      · rw [sameHistory]
        exact Or.inl settled.written
    refine ⟨⟨polling, ?_, ?_⟩, ⟨?_, ?_⟩⟩
    · rw [sameHistory, settled.returned]
    · rw [sameHistory]
    · rw [sameHistory, settled.returned]
    · rw [sameHistory]
      exact settled.written
  exact wp_mono same (fun _ after kept => (inside after kept.2).1.1)
    fun _ after kept => inside after kept

theorem takeLine_inside
    (inside : Inside before before.history.taken reader) :
    wp (PollingAt before) (takeLine [])
      (fun raw after => ∃ taken, Inside before taken after ∧
        (taken = before.history.taken ∧ raw = [] ∨
          ∃ line, taken = before.history.taken ++ [line] ∧
            raw = line.raw.dropLast)) reader := by
  obtain ⟨polling, returned, same⟩ := inside
  refine wp_bind (wp_get ?_)
  split
  · exact wp_pure ⟨_, ⟨polling, returned, same⟩, Or.inl ⟨rfl, rfl⟩⟩
  next raw rest split =>
    refine wp_bind (wp_modify (wp_pure ⟨_, ⟨?_, returned, rfl⟩, Or.inr
      ⟨{ inode := reader.source.inode, raw := raw }, ?_, rfl⟩⟩))
    · refine ⟨polling.1, polling.2, Or.inr
        ⟨{ inode := reader.source.inode, raw := raw }, ?_⟩, ?_, polling.5⟩
      · rw [← same]
        rfl
      · have written := polling.written
        simp only [popLine, List.length_append]
        omega
    · rw [← same]
      rfl

/-- What a call has taken, and its value: nothing, or a line. -/
def Takes
    (before after : Reader)
    (ofNone : Prop)
    (ofLine : Taken → Prop) : Prop :=
  after.history.taken = before.history.taken ∧ ofNone ∨
    ∃ line, after.history.taken = before.history.taken ++ [line] ∧ ofLine line

/-- A call of `getNextLine` that succeeds returns the line it has taken, or an
empty one. -/
theorem getNextLine_polls
    (settled : reader.Settled) :
    wp (PollingAt reader) (getNextLine [])
      (fun result after => Polling reader after ∧ after.Settled ∧
        match result with
        | .error _ => after.history.taken = reader.history.taken
        | .ok raw => Takes reader after (raw = []) fun line =>
            raw = line.raw.dropLast) reader := by
  apply wp_seq (fillLineBuf_readsOnly.wp_inside settled)
  rintro rc after ⟨inside, settledAfter⟩
  cases rc with
  | error failure => exact wp_pure ⟨inside.1, settledAfter, inside.2.2⟩
  | ok _ =>
      apply wp_seq (takeLine_inside inside)
      rintro raw state ⟨taken, insideTaken, value⟩
      apply wp_seq (wp_inside checkpointIfDue_inside insideTaken)
      rintro _ last ⟨polling, returned, same⟩
      refine wp_bind (wp_modify (wp_pure ⟨?_, ⟨rfl, polling.written⟩, ?_⟩))
      · exact ⟨polling.1, polling.2, polling.3, polling.4, polling.5⟩
      · unfold Takes
        rw [← same] at value
        exact value

/-- A call of `getNextEvent` that succeeds returns the event of the line it has
taken, or an empty one. -/
theorem getNextEvent_polls
    (settled : reader.Settled) :
    wp (PollingAt reader) (getNextEvent [])
      (fun result after => Polling reader after ∧ after.Settled ∧
        match result with
        | .error _ => after.history.taken = reader.history.taken
        | .ok event => Takes reader after (event = []) fun line =>
            after.source.lineEvent line.raw = some event) reader := by
  apply wp_seq (getNextLine_polls settled)
  rintro result after ⟨polling, settledAfter, value⟩
  cases result with
  | error failure => exact wp_pure ⟨polling, settledAfter, value⟩
  | ok raw =>
      dsimp only at value ⊢
      split
      next isEmpty =>
        refine wp_pure ⟨polling, settledAfter, ?_⟩
        apply value.imp (fun none => ⟨none.1, rfl⟩)
        rintro ⟨line, same, rfl⟩
        exact ⟨line, same, if_pos isEmpty⟩
      next notEmpty =>
        refine wp_bind (wp_get ?_)
        split
        · exact wp_halt polling
        next event formatted =>
          refine wp_pure ⟨polling, settledAfter, Or.inr ?_⟩
          rcases value with ⟨_, rfl⟩ | ⟨line, same, rfl⟩
          · exact absurd rfl notEmpty
          · exact ⟨line, same, (if_neg notEmpty).trans formatted⟩

/-- Behind every call all lines taken have been returned. -/
theorem runOp_settled
    (settled : reader.Settled)
    (op : Op) :
    wp (fun _ _ => True) (runOp op) (fun _ after => after.Settled) reader := by
  cases op with
  | hasNextLine =>
      refine wp_seq (wp_mono (hasNextLine_readsOnly.wp_inside settled)
        (fun _ _ _ => trivial) fun _ _ kept => kept.2) fun _ _ kept => ?_
      exact wp_pure kept
  | getNextLine =>
      refine wp_seq (wp_mono (getNextLine_polls settled)
        (fun _ _ _ => trivial) fun _ _ kept => kept.2.1) fun _ _ kept => ?_
      exact wp_pure kept
  | getNextEvent =>
      refine wp_seq (wp_mono (getNextEvent_polls settled)
        (fun _ _ _ => trivial) fun _ _ kept => kept.2.1) fun _ _ kept => ?_
      exact wp_pure kept
  | writeCheckpoint =>
      have inside : Inside reader reader.history.taken reader :=
        ⟨Polling.refl settled, settled.returned, rfl⟩
      refine wp_seq (wp_mono (wp_inside writeCheckpoint_inside inside)
        (fun _ _ _ => trivial) fun _ _ kept => kept) fun _ after kept => ?_
      obtain ⟨polling, returned, taken⟩ := kept
      exact wp_pure ⟨returned.trans (congrArg List.length taken.symm),
        polling.written⟩

theorem runOps_settled
    (settled : reader.Settled)
    (ops : List Op) :
    wp (fun _ _ => True) (runOps ops) (fun _ after => after.Settled)
      reader := by
  refine wp_forM (fun op _ state kept => ?_) settled
  refine wp_seq (wp_sysCall trivial fun entry => ?_)
    fun _ _ held => runOp_settled held op
  exact ⟨kept.returned, kept.written⟩

/-- The next call returns the line it takes, without its newline, or the event of
that line; and nothing if it takes none. -/
structure Reader.Returning (before : Reader) : Prop where
  line : ∀ result after, Ends (getNextLine []) before result after →
    match result with
    | .error _ => after.history.taken = before.history.taken
    | .ok raw => Takes before after (raw = []) fun line =>
        raw = line.raw.dropLast
  event : ∀ result after, Ends (getNextEvent []) before result after →
    match result with
    | .error _ => after.history.taken = before.history.taken
    | .ok event => Takes before after (event = []) fun line =>
        after.source.lineEvent line.raw = some event

theorem Reader.Settled.returning (settled : reader.Settled) :
    reader.Returning where
  line := fun _ _ ended => ((getNextLine_polls settled).ends ended).2.2
  event := fun _ _ ended => ((getNextEvent_polls settled).ends ended).2.2

/-- Detaching a settled reader takes no line. -/
theorem pluginDetach_inside
    (settled : reader.Settled) :
    wp (PollingAt reader) pluginDetach
      (fun _ after => Inside reader reader.history.taken after) reader :=
  wp_seq (wp_inside writeCheckpoint_inside
    ⟨Polling.refl settled, settled.returned, rfl⟩) fun _ _ kept => wp_pure kept

end Logfile
end EvCollect
