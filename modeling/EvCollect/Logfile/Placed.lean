import EvCollect.Logfile.Run
import EvCollect.Process.Compositional

/-!
# Positions in any environment

Whatever other processes do to the log file, and whatever is in the checkpoint
file: the line buffer holds lines, and they are what lies between the two offsets
of the reader.
-/

namespace EvCollect
namespace Logfile

open Process Text

/-- The line buffer holds the lines between the two offsets. -/
structure Placed (source : LogfileSource) : Prop where
  lines : ∀ raw ∈ source.lineBuf, IsRecord 0x0a raw
  offset : source.offset =
    source.consumedOffset + UInt64.ofNat source.lineBuf.flatten.length
  capacity : 0 < source.lineBufMaxsize

/-- The lines of the buffer stay between the offsets. -/
abbrev Places (process : ReaderProc α) : Prop :=
  Preserves (fun _ => True) (fun reader => Placed reader.source) process

variable {source : LogfileSource}
variable {reader : Reader}

/-- With an empty line buffer the offsets are the same. -/
theorem Placed.offset_of_empty
    (placed : Placed source)
    (empty : source.lineBuf = []) :
    source.offset = source.consumedOffset := by
  rw [placed.offset, empty]
  exact UInt64.add_zero _

/-! ## Steps -/

theorem Placed.resetFor
    (placed : Placed source)
    (stat : Stat) :
    Placed (source.resetFor stat) := by
  unfold LogfileSource.resetFor
  split
  · exact ⟨List.forall_mem_nil _, rfl, placed.capacity⟩
  · exact placed

theorem Placed.pushLine
    (placed : Placed source)
    {line : Bytes}
    (isRecord : IsRecord 0x0a line) :
    Placed (source.pushLine line) where
  lines := by
    intro raw present
    rcases List.mem_append.mp present with old | new
    · exact placed.lines raw old
    · rwa [List.mem_singleton.mp new]
  offset := by
    change source.offset + UInt64.ofNat line.length = source.consumedOffset +
      UInt64.ofNat (source.lineBuf ++ [line]).flatten.length
    rw [placed.offset, List.flatten_append, List.flatten_singleton,
      List.length_append, UInt64.ofNat_add, UInt64.add_assoc]
  capacity := placed.capacity

theorem Placed.popLine
    (placed : Placed source)
    {raw : Bytes}
    {rest : List Bytes}
    (buffered : source.lineBuf = raw :: rest) :
    Placed (source.popLine raw) where
  lines := fun other present =>
    placed.lines other (List.mem_of_mem_tail present)
  offset := by
    change source.offset = source.consumedOffset + UInt64.ofNat raw.length +
      UInt64.ofNat source.lineBuf.tail.flatten.length
    rw [placed.offset, buffered, List.flatten_cons, List.length_append,
      UInt64.ofNat_add, UInt64.add_assoc]
    rfl
  capacity := placed.capacity

theorem sysCall_places
    {point : LogPoint}
    {effect : Entry → Reader → α × Reader}
    (kept : ∀ entry reader, Placed reader.source →
      Placed (effect entry reader).2.source) :
    Places (sysCall point effect) :=
  Preserves.call trivial fun entry _ placed => kept entry _ placed

theorem onSource_places
    {step : LogfileSource → LogfileSource}
    (kept : ∀ source, Placed source → Placed (step source)) :
    Places (Proc.modify (Reader.onSource step) : ReaderProc Unit) :=
  Preserves.modify fun reader => kept reader.source

/-! ## Reading lines -/

theorem takeByte_places : Places takeByte := by
  refine Preserves.bind Preserves.get fun reader =>
    Preserves.composes.ite ?_ (Preserves.pure _)
  exact Preserves.bind (onSource_places fun _ placed => ⟨placed.1, placed.2,
    placed.3⟩) fun _ => Preserves.pure _

theorem readNextByte_places : Places readNextByte := by
  refine Preserves.bind Preserves.get fun reader =>
    Preserves.composes.ite ?_ takeByte_places
  refine Preserves.bind ?_ fun filled => ?_
  · refine Preserves.bind (sysCall_places fun entry reader placed => ?_)
      fun data => Preserves.composes.ite (Preserves.pure _) ?_
    · split <;> exact placed
    · exact Preserves.bind (onSource_places fun _ placed => ⟨placed.1, placed.2,
        placed.3⟩) fun _ => Preserves.pure _
  · cases filled with
    | false => exact Preserves.pure _
    | true => exact takeByte_places

/-- What is read as a line is one. -/
theorem readLine_placed
    (placed : Placed reader.source) :
    wp (fun _ state => True ∧ Placed state.source) readLine
      (fun line after => Placed after.source ∧
        ∀ raw ∈ line, IsRecord 0x0a raw) reader := by
  refine wp_iterate
    (fun line state => Placed state.source ∧ (0x0a : UInt8) ∉ line)
    ⟨placed, List.not_mem_nil⟩ (fun _ _ held => ⟨trivial, held.1⟩) ?_
  rintro line state entry ⟨kept, absent⟩
  apply wp_seq (readNextByte_places (World.react entry state) kept)
  intro byte after held
  cases byte with
  | none => exact wp_pure ⟨held, by simp⟩
  | some byte =>
      dsimp only
      split
      next isNewline =>
        refine wp_pure ⟨held, ?_⟩
        intro raw known
        obtain rfl := Option.mem_some.mp known
        exact ⟨line, by rw [isNewline], absent⟩
      next notNewline =>
        refine wp_pure ⟨held, ?_⟩
        rw [List.mem_append, List.mem_singleton, not_or]
        exact ⟨absent, Ne.symm notNewline⟩

theorem readLinesPass_places : Places readLinesPass := by
  intro reader placed
  apply wp_seq (readLine_placed placed)
  rintro line after ⟨kept, isRecord⟩
  cases line with
  | none => exact wp_pure kept
  | some raw =>
      refine wp_bind (wp_get ?_)
      split
      · exact wp_bind (wp_modify (wp_pure (kept.pushLine (isRecord raw rfl))))
      · exact wp_pure kept

theorem readOpened_places (descriptor : Nat) :
    Places (readOpened descriptor) := by
  refine Preserves.bind Preserves.get fun reader => ?_
  refine Preserves.bind (sysCall_places fun entry reader placed => ?_)
    fun moved => ?_
  · split <;> exact placed
  have close (point : LogPoint) : Places (closeLog point) :=
    sysCall_places fun _ _ placed => placed
  cases moved with
  | false => exact Preserves.bind (close _) fun _ => Preserves.pure _
  | true =>
      refine Preserves.bind (onSource_places fun _ placed => ⟨placed.1,
        placed.2, placed.3⟩) fun _ => ?_
      refine Preserves.bind (Preserves.iterate trivial
        (fun _ _ placed => placed) fun _ => readLinesPass_places) fun _ => ?_
      exact Preserves.bind (close _) fun _ => Preserves.pure _

theorem readLines_places : Places readLines := by
  refine Preserves.bind ?_ fun found => ?_
  · refine Preserves.bind (sysCall_places fun _ _ placed => placed)
      fun found => ?_
    cases found with
    | none => exact Preserves.pure _
    | some stat =>
        exact Preserves.bind (onSource_places fun _ placed =>
          placed.resetFor stat) fun _ => Preserves.pure _
  · cases found with
    | none => exact Preserves.bind Preserves.get fun _ => Preserves.pure _
    | some stat =>
        refine Preserves.bind Preserves.get fun reader =>
          Preserves.composes.ite (Preserves.pure _) ?_
        refine Preserves.bind (sysCall_places fun entry reader placed => ?_)
          fun opened => ?_
        · split
          · exact placed
          · split <;> exact placed
        · cases opened with
          | none => exact Preserves.pure _
          | some descriptor => exact readOpened_places descriptor

theorem fillLineBuf_places : Places fillLineBuf :=
  Preserves.bind Preserves.get fun _ =>
    Preserves.composes.ite readLines_places (Preserves.pure _)

/-! ## Writing checkpoints -/

theorem storeCheckpoint_places : Places storeCheckpoint := by
  refine Preserves.bind Preserves.get fun reader => ?_
  refine Preserves.bind (sysCall_places fun entry reader placed => ?_)
    fun opened => ?_
  · split <;> exact placed
  cases opened with
  | false => exact Preserves.pure _
  | true =>
      refine Preserves.bind (sysCall_places fun entry reader placed => ?_)
        fun written => ?_
      · split <;> exact placed
      cases written with
      | false => exact Preserves.pure _
      | true =>
          exact Preserves.bind (sysCall_places fun _ _ placed => placed)
            fun _ => Preserves.pure _

theorem writeCheckpoint_places : Places writeCheckpoint := by
  refine Preserves.bind ?_ fun rc => Preserves.bind
    (sysCall_places fun _ _ placed => placed) fun _ => Preserves.pure _
  refine Preserves.bind Preserves.get fun reader =>
    Preserves.composes.ite (Preserves.pure _) ?_
  exact Preserves.bind (onSource_places fun _ placed => ⟨placed.1, placed.2,
    placed.3⟩) fun _ => storeCheckpoint_places

theorem checkpointIfDue_places : Places checkpointIfDue := by
  have clock (point : LogPoint) : Places (unixMicros point) :=
    sysCall_places fun _ _ placed => placed
  refine Preserves.bind (clock _) fun now => Preserves.bind Preserves.get
    fun reader => Preserves.composes.ite ?_ (Preserves.pure _)
  refine Preserves.bind writeCheckpoint_places fun rc =>
    Preserves.bind (clock _) fun later => ?_
  exact onSource_places fun _ placed => ⟨placed.1, placed.2, placed.3⟩

/-! ## Calls -/

theorem takeLine_places (line : Bytes) : Places (takeLine line) := by
  intro reader placed
  refine wp_bind (wp_get ?_)
  split
  · exact wp_pure placed
  next raw rest buffered =>
    exact wp_bind (wp_modify (wp_pure (placed.popLine buffered)))

theorem getNextLine_places (line : Bytes) : Places (getNextLine line) := by
  refine Preserves.bind fillLineBuf_places fun rc => ?_
  cases rc with
  | error failure => exact Preserves.pure _
  | ok _ =>
      refine Preserves.bind (takeLine_places line) fun taken => ?_
      refine Preserves.bind checkpointIfDue_places fun _ => ?_
      exact Preserves.bind (Preserves.modify fun _ placed => placed)
        fun _ => Preserves.pure _

theorem getNextEvent_places (eventJson : Bytes) :
    Places (getNextEvent eventJson) := by
  refine Preserves.bind (getNextLine_places []) fun result => ?_
  cases result with
  | error failure => exact Preserves.pure _
  | ok rawLine =>
      refine Preserves.composes.ite (Preserves.pure _) ?_
      refine Preserves.bind Preserves.get fun reader => ?_
      cases reader.source.formatEvent rawLine eventJson with
      | none => exact fun _ placed => wp_halt ⟨trivial, placed⟩
      | some event => exact Preserves.pure _

theorem runOps_places (ops : List Op) : Places (runOps ops) := by
  refine Preserves.composes.forM fun op _ => Preserves.bind
    (sysCall_places fun _ _ placed => placed) fun _ => ?_
  cases op with
  | hasNextLine =>
      refine Preserves.bind (Preserves.bind fillLineBuf_places fun _ =>
        Preserves.bind Preserves.get fun _ => Preserves.pure _)
        fun _ => Preserves.pure _
  | getNextLine =>
      exact Preserves.bind (getNextLine_places []) fun _ => Preserves.pure _
  | getNextEvent =>
      exact Preserves.bind (getNextEvent_places []) fun _ => Preserves.pure _
  | writeCheckpoint =>
      exact Preserves.bind writeCheckpoint_places fun _ => Preserves.pure _

end Logfile
end EvCollect
