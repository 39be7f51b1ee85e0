import EvCollect.Logfile.Invariant

/-!
# Log readers keep their invariant

Every function of a log reader keeps the invariant at each of its program
points, whatever other processes do and whatever the system calls return. So it
holds in every state in which the reader can be observed, or crash.
-/

namespace EvCollect
namespace Logfile

open Process Text

variable {origin : Origin}
variable {reader : Reader}

/-- The assertion at all program points. -/
def Held (origin : Origin) : LogPoint → Reader → Prop :=
  fun _ reader => Tracked origin reader

theorem wp_sysCall
    {inv : LogPoint → Reader → Prop}
    {post : α → Reader → Prop}
    {point : LogPoint}
    {effect : Entry → Reader → α × Reader}
    (before : inv point reader)
    (after : ∀ entry,
      post (effect entry (World.react entry reader)).1
        (effect entry (World.react entry reader)).2) :
    wp inv (sysCall point effect) post reader :=
  wp_call before after

theorem pause_tracked
    {point : LogPoint}
    (tracked : Tracked origin reader) :
    wp (Held origin) (pause point) (fun _ after => Tracked origin after)
      reader :=
  wp_sysCall tracked fun entry => tracked.react entry

theorem closeLog_tracked
    {point : LogPoint}
    (tracked : Tracked origin reader) :
    wp (Held origin) (closeLog point) (fun _ after => Tracked origin after)
      reader :=
  wp_sysCall tracked fun entry => (tracked.react entry).setDescriptor

theorem unixMicros_tracked
    {point : LogPoint}
    (tracked : Tracked origin reader) :
    wp (Held origin) (unixMicros point) (fun _ after => Tracked origin after)
      reader :=
  wp_sysCall tracked fun entry => tracked.react entry

/-! ## Opening the log file -/

theorem stat_tracked
    (tracked : Tracked origin reader) :
    wp (Held origin) stat
      (fun found after => Tracked origin after ∧
        ∀ stat ∈ found, after.disk.path = some stat.inode ∧
          stat = { inode := stat.inode, size := after.disk.size stat.inode })
      reader := by
  refine wp_sysCall tracked fun entry => ⟨tracked.react entry, ?_⟩
  intro stat isFound
  split at isFound
  · cases isFound
  · obtain ⟨inode, current, rfl⟩ := Option.map_eq_some_iff.mp isFound
    exact ⟨current, rfl⟩

/-- The open file is the one that the reader follows, if what it reads as that
file is from that file. -/
def Opened (position : Option Nat) (reader : Reader) : Prop :=
  reader.disk.Trusts reader.source.inode →
    ∃ descriptor, reader.descriptor = some descriptor ∧
      descriptor.inode = reader.source.inode ∧
      ∀ known ∈ position, descriptor.position = known

theorem Opened.react
    {position : Option Nat}
    (opened : Opened position reader)
    (tracked : Tracked origin reader)
    (entry : Entry) :
    Opened position (World.react entry reader) := by
  intro trusted
  exact opened ((Disk.grows_react entry reader.disk).trusts
    (tracked.used _ (Or.inl rfl)) trusted)

theorem openLog_tracked
    (tracked : Tracked origin reader)
    (arrived : Arrived reader) :
    wp (Held origin) openLog
      (fun number after => Tracked origin after ∧ Arrived after ∧
        (number.isSome → Opened none after)) reader := by
  refine wp_sysCall tracked fun entry => ?_
  have reacted := tracked.react entry
  have there := arrived.react entry
  split
  · exact ⟨reacted, there, by simp⟩
  next inode current =>
    split
    · exact ⟨reacted, there, by simp⟩
    · have noted := reacted.grows (Disk.grows_noteOpened inode
        (World.react entry reader).source.inode _)
      refine ⟨noted.setDescriptor, there, fun _ trusted => ?_⟩
      refine ⟨_, rfl, ?_, by simp⟩
      rcases trusted with followed | straight
      · exact Option.some.inj (current.symm.trans followed)
      · exact of_not_not (of_decide_eq_false
          (Bool.or_eq_false_iff.mp straight).2)

theorem lseek_tracked
    (tracked : Tracked origin reader)
    (arrived : Arrived reader)
    (opened : Opened none reader)
    (offset : UInt64) :
    wp (Held origin) (lseek offset)
      (fun moved after => Tracked origin after ∧ Arrived after ∧
        after.source = reader.source ∧
        (moved = true → Opened (some offset.toNat) after)) reader := by
  refine wp_sysCall tracked fun entry => ?_
  have reacted := tracked.react entry
  have there := arrived.react entry
  split
  · exact ⟨reacted, there, rfl, by simp⟩
  · refine ⟨reacted.setDescriptor, there, rfl, fun _ followed => ?_⟩
    obtain ⟨descriptor, isOpen, same, _⟩ :=
      opened.react tracked entry followed
    exact ⟨{ descriptor with position := offset.toNat },
      by simp [isOpen], same, by simp⟩

/-- Behind `lseek` the reader is at the beginning of a line. -/
theorem Opened.streams
    (tracked : Tracked origin reader)
    (arrived : Arrived reader)
    (opened : Opened (some reader.source.offset.toNat) reader)
    (empty : reader.source.unread = []) :
    Streams [] reader := by
  refine ⟨arrived, ?_⟩
  intro whole trusted
  obtain ⟨descriptor, isOpen, same, known⟩ := opened trusted
  have position := known _ rfl
  refine ⟨descriptor, isOpen, same, ?_, ?_⟩
  · rw [position]
    exact (tracked.follows whole trusted).inside
  · rw [position, empty]
    simp

/-! ## Reading a line -/

/-- What a `read` returns comes next in the file. -/
theorem take_add_readable
    (disk : Disk)
    (limit : Nat)
    (result : Int)
    (descriptor : Descriptor) :
    (disk.files descriptor.inode).take
        (descriptor.position +
          (readable disk limit result descriptor).length) =
      (disk.files descriptor.inode).take descriptor.position ++
        readable disk limit result descriptor := by
  unfold readable
  split
  · simp
  · rw [List.take_add, List.length_take, ← List.take_eq_take_min]

theorem readable_inside
    {disk : Disk}
    {limit : Nat}
    {result : Int}
    {descriptor : Descriptor}
    (inside : descriptor.position ≤
      (disk.files descriptor.inode).length) :
    descriptor.position + (readable disk limit result descriptor).length ≤
      (disk.files descriptor.inode).length := by
  unfold readable
  split
  · simpa using inside
  · simp only [List.length_take, List.length_drop]
    omega

/-- The bytes of a `read` come behind the line so far, if the read buffer was
used up. -/
theorem readLog_tracked
    {line : Bytes}
    (tracked : Tracked origin reader)
    (streams : Streams line reader)
    (usedUp : reader.source.unread = []) :
    wp (Held origin) readLog
      (fun data after => Tracked origin after ∧
        ∀ source : LogfileSource, source.inode = after.source.inode →
          source.offset = after.source.offset → source.unread = data →
          Streams line { after with source := source }) reader := by
  refine wp_sysCall tracked fun entry => ?_
  have reacted := tracked.react entry
  have streaming := streams.react tracked entry
  have arrived : ∀ source : LogfileSource,
      source.inode = (World.react entry reader).source.inode →
        Arrived { World.react entry reader with source := source } :=
    fun source same kept => same ▸ streaming.arrived kept
  split
  next isClosed =>
    refine ⟨reacted, fun source sameInode sameOffset sameData => ?_⟩
    refine ⟨arrived source sameInode, ?_⟩
    intro whole trusted
    rw [sameInode] at trusted
    obtain ⟨descriptor, isOpen, _⟩ := streaming.position whole trusted
    rw [isClosed] at isOpen
    cases isOpen
  next descriptor isOpen =>
    refine ⟨reacted.setDescriptor, fun source sameInode sameOffset
      sameData => ?_⟩
    refine ⟨arrived source sameInode, ?_⟩
    intro whole trusted
    rw [sameInode] at trusted
    obtain ⟨other, otherOpen, same, inside, content⟩ :=
      streaming.position whole trusted
    obtain rfl := Option.some.inj (isOpen.symm.trans otherOpen)
    refine ⟨_, rfl, same.trans sameInode.symm, ?_, ?_⟩
    · change _ ≤ ((World.react entry reader).disk.files source.inode).length
      rw [sameInode, ← same] at *
      exact readable_inside inside
    · have nothing : (World.react entry reader).source.unread = [] := usedUp
      have more := take_add_readable (World.react entry reader).disk 8192
        entry.result descriptor
      rw [same, content, nothing, List.append_nil] at more
      change ((World.react entry reader).disk.files source.inode).take _ =
        ((World.react entry reader).disk.files source.inode).take
          source.offset.toNat ++ line ++ source.unread
      rw [sameInode, sameOffset, sameData]
      exact more

/-- An empty read buffer is filled, or there is nothing more to read. -/
theorem fillBuf_tracked
    {line : Bytes}
    (tracked : Tracked origin reader)
    (streams : Streams line reader)
    (usedUp : reader.source.unread = []) :
    wp (Held origin) fillBuf
      (fun filled after => Tracked origin after ∧
        (filled = true → Streams line after)) reader := by
  apply wp_seq (readLog_tracked tracked streams usedUp)
  rintro data after ⟨kept, streaming⟩
  split
  · exact wp_pure ⟨kept, by simp⟩
  · refine wp_bind (wp_modify (wp_pure ⟨?_, fun _ => ?_⟩))
    · exact kept.onSource (le_refl _) rfl rfl rfl rfl
    · exact streaming _ rfl rfl (by simp [LogfileSource.unread])

/-- The read buffer begins with the byte at its position. -/
theorem unread_eq_cons
    {source : LogfileSource}
    (buffered : source.bufLen ≤ source.buf.length)
    (left : source.bufPos < source.bufLen) :
    source.unread =
      source.buf.getD source.bufPos 0 ::
        (source.buf.take source.bufLen).drop (source.bufPos + 1) := by
  have inside : source.bufPos < source.buf.length := left.trans_le buffered
  rw [LogfileSource.unread, List.drop_eq_getElem_cons
    (by rw [List.length_take]; omega)]
  simp [List.getD_eq_getElem?_getD, inside]

theorem unread_eq_nil
    {source : LogfileSource}
    (usedUp : source.bufLen ≤ source.bufPos) :
    source.unread = [] := by
  rw [LogfileSource.unread, List.drop_eq_nil_iff, List.length_take]
  omega

/-- The next byte of the read buffer belongs to the line. -/
theorem Streams.next
    {line : Bytes}
    (streams : Streams line reader)
    (tracked : Tracked origin reader)
    (left : reader.source.bufPos < reader.source.bufLen) :
    Streams (line ++ [reader.source.buf.getD reader.source.bufPos 0])
      (reader.onSource fun source =>
        { source with bufPos := source.bufPos + 1 }) := by
  have unread := unread_eq_cons tracked.buffered left
  refine ⟨streams.arrived, ?_⟩
  intro whole trusted
  obtain ⟨descriptor, isOpen, same, bound, content⟩ :=
    streams.position whole trusted
  refine ⟨descriptor, isOpen, same, bound, ?_⟩
  rw [unread] at content
  change (reader.disk.files reader.source.inode).take descriptor.position = _
  rw [content]
  simp [Reader.onSource, LogfileSource.unread]

theorem takeByte_tracked
    {line : Bytes}
    (tracked : Tracked origin reader)
    (streams : Streams line reader) :
    wp (Held origin) takeByte
      (fun byte after => Tracked origin after ∧
        ∀ next ∈ byte, Streams (line ++ [next]) after) reader := by
  refine wp_bind (wp_get ?_)
  split
  next left =>
    refine wp_bind (wp_modify (wp_pure ⟨?_, ?_⟩))
    · exact tracked.onSource tracked.buffered rfl rfl rfl rfl
    · intro next known
      obtain rfl := Option.mem_some.mp known
      exact streams.next tracked left
  next => exact wp_pure ⟨tracked, by simp⟩

theorem readNextByte_tracked
    {line : Bytes}
    (tracked : Tracked origin reader)
    (streams : Streams line reader) :
    wp (Held origin) readNextByte
      (fun byte after => Tracked origin after ∧
        ∀ next ∈ byte, Streams (line ++ [next]) after) reader := by
  refine wp_bind (wp_get ?_)
  split
  next usedUp =>
    apply wp_seq (fillBuf_tracked tracked streams (unread_eq_nil usedUp))
    rintro filled after ⟨kept, streaming⟩
    cases filled with
    | false => exact wp_pure ⟨kept, by simp⟩
    | true => exact takeByte_tracked kept (streaming rfl)
  next => exact takeByte_tracked tracked streams

/-- A line that is read is a record of the file. -/
theorem readLine_tracked
    (tracked : Tracked origin reader)
    (streams : Streams [] reader) :
    wp (Held origin) readLine
      (fun line after => Tracked origin after ∧
        ∀ raw ∈ line, IsRecord 0x0a raw ∧ Streams raw after) reader := by
  refine wp_iterate
    (fun line state => Tracked origin state ∧ Streams line state ∧
      (0x0a : UInt8) ∉ line)
    ⟨tracked, streams, by simp⟩ (fun _ _ holds => holds.1) ?_
  rintro line state entry ⟨kept, streaming, absent⟩
  apply wp_seq (readNextByte_tracked (kept.react entry)
    (streaming.react kept entry))
  rintro byte after ⟨keptAfter, streamingAfter⟩
  cases byte with
  | none => exact wp_pure ⟨keptAfter, by simp⟩
  | some byte =>
      have extended := streamingAfter byte rfl
      dsimp only
      split
      next isNewline =>
        refine wp_pure ⟨keptAfter, ?_⟩
        intro raw known
        obtain rfl := Option.mem_some.mp known
        exact ⟨⟨line, by rw [isNewline], absent⟩, extended⟩
      next notNewline =>
        refine wp_pure ⟨keptAfter, extended, ?_⟩
        simp only [List.mem_append, List.mem_singleton, not_or]
        exact ⟨absent, Ne.symm notNewline⟩

/-! ## Reading lines -/

theorem readLinesPass_tracked
    (tracked : Tracked origin reader)
    (streams : Streams [] reader) :
    wp (Held origin) readLinesPass
      (AfterPass (fun _ after => Tracked origin after ∧ Streams [] after)
        fun _ after => Tracked origin after) reader := by
  apply wp_seq (readLine_tracked tracked streams)
  rintro line after ⟨kept, streaming⟩
  cases line with
  | none => exact wp_pure kept
  | some raw =>
      obtain ⟨isRecord, streamingRaw⟩ := streaming raw rfl
      refine wp_bind (wp_get ?_)
      split
      · refine wp_bind (wp_modify (wp_pure ?_))
        exact ⟨kept.pushLine streamingRaw isRecord, streamingRaw.pushLine kept⟩
      · exact wp_pure kept

theorem readOpened_tracked
    (tracked : Tracked origin reader)
    (arrived : Arrived reader)
    (opened : Opened none reader)
    (number : Nat) :
    wp (Held origin) (readOpened number)
      (fun _ after => Tracked origin after) reader := by
  refine wp_bind (wp_get ?_)
  apply wp_seq (lseek_tracked tracked arrived opened _)
  rintro moved after ⟨kept, there, sameSource, atOffset⟩
  cases moved with
  | false =>
      exact wp_seq (closeLog_tracked kept) fun _ _ held => wp_pure held
  | true =>
      refine wp_bind (wp_modify ?_)
      have emptied : Tracked origin (after.onSource fun source =>
          { source with bufLen := 0, bufPos := 0 }) :=
        kept.onSource (Nat.zero_le _) rfl rfl rfl rfl
      have streams : Streams [] (after.onSource fun source =>
          { source with bufLen := 0, bufPos := 0 }) := by
        refine Opened.streams emptied there ?_ (by
          simp [Reader.onSource, LogfileSource.unread])
        have positioned := atOffset rfl
        rw [← sameSource] at positioned
        exact positioned
      have looped : wp (Held origin)
          (Proc.iterate .lineLoop World.react (fun _ => readLinesPass) ())
          (fun _ state => Tracked origin state)
          (after.onSource fun source =>
            { source with bufLen := 0, bufPos := 0 }) := by
        refine wp_iterate
          (fun _ state => Tracked origin state ∧ Streams [] state)
          ⟨emptied, streams⟩ (fun _ _ holds => holds.1) ?_
        rintro _ state entry ⟨held, streaming⟩
        exact readLinesPass_tracked (held.react entry)
          (streaming.react held entry)
      exact wp_seq looped fun _ _ held =>
        wp_seq (closeLog_tracked held) fun _ _ closed => wp_pure closed

/-- A reader that has found a file is at that file. -/
theorem locate_tracked
    (tracked : Tracked origin reader) :
    wp (Held origin) locate
      (fun found after => Tracked origin after ∧
        (found.isSome → Arrived after)) reader := by
  apply wp_seq (stat_tracked tracked)
  rintro found after ⟨kept, known⟩
  cases found with
  | none => exact wp_pure ⟨kept, by simp⟩
  | some stat =>
      obtain ⟨current, isStat⟩ := known stat rfl
      have reset := kept.resetFor current
      rw [← isStat] at reset
      refine wp_bind (wp_modify (wp_pure ⟨reset, fun _ _ => ?_⟩))
      rw [Reader.onSource, LogfileSource.inode_resetFor]
      exact current

/-- Reading lines keeps the invariant. -/
theorem readLines_tracked
    (tracked : Tracked origin reader) :
    wp (Held origin) readLines (fun _ after => Tracked origin after) reader := by
  apply wp_seq (locate_tracked tracked)
  rintro found after ⟨kept, arrived⟩
  cases found with
  | none => exact wp_bind (wp_get (wp_pure kept))
  | some stat =>
      refine wp_bind (wp_get ?_)
      split
      · exact wp_pure kept
      · apply wp_seq (openLog_tracked kept (arrived rfl))
        rintro number opened ⟨held, there, isOpen⟩
        cases number with
        | none => exact wp_pure held
        | some number =>
            exact readOpened_tracked held there (isOpen rfl) number

theorem fillLineBuf_tracked
    (tracked : Tracked origin reader) :
    wp (Held origin) fillLineBuf
      (fun _ after => Tracked origin after) reader := by
  refine wp_bind (wp_get ?_)
  split
  · exact readLines_tracked tracked
  · exact wp_pure tracked

theorem hasNextLine_tracked
    (tracked : Tracked origin reader) :
    wp (Held origin) hasNextLine
      (fun _ after => Tracked origin after) reader :=
  wp_seq (fillLineBuf_tracked tracked) fun _ _ kept =>
    wp_bind (wp_get (wp_pure kept))

/-! ## Checkpoints -/

/-- The cached position is the current one, as it is while it is written. -/
def Cached (source : LogfileSource) : Prop :=
  source.checkpointInode = source.inode ∧
    source.checkpointOffset = source.consumedOffset

theorem openCheckpoint_tracked
    (tracked : Tracked origin reader) :
    wp (Held origin) openCheckpoint
      (fun _ after => Tracked origin after ∧ after.source = reader.source)
      reader := by
  refine wp_sysCall tracked fun entry => ?_
  have reacted := tracked.react entry
  split
  · exact ⟨reacted.setSynced, rfl⟩
  · exact ⟨reacted.shortCheckpoint (by simp), rfl⟩

theorem writeSaved_tracked
    (tracked : Tracked origin reader) :
    wp (Held origin)
      (writeSaved (LogfileSource.encodeCheckpoint reader.source.inode
        reader.source.consumedOffset))
      (fun _ after => Tracked origin after) reader := by
  refine wp_sysCall tracked fun entry => ?_
  have reacted := tracked.react entry
  split
  · exact reacted
  · split
    next complete =>
      rw [List.take_of_length_le complete]
      exact reacted.completeCheckpoint
    next cut =>
      apply reacted.shortCheckpoint
      rw [LogfileSource.length_encodeCheckpoint] at cut
      rw [List.length_take, LogfileSource.length_encodeCheckpoint]
      omega

theorem storeCheckpoint_tracked
    (tracked : Tracked origin reader)
    (cached : Cached reader.source) :
    wp (Held origin) storeCheckpoint
      (fun _ after => Tracked origin after) reader := by
  refine wp_bind (wp_get ?_)
  apply wp_seq (openCheckpoint_tracked tracked)
  rintro opened after ⟨kept, sameSource⟩
  cases opened with
  | false => exact wp_pure kept
  | true =>
      rw [cached.1, cached.2, ← sameSource]
      apply wp_seq (writeSaved_tracked kept)
      intro written state held
      cases written with
      | false => exact wp_pure held
      | true =>
          exact wp_seq (pause_tracked held) fun _ _ closed => wp_pure closed

theorem updateCheckpoint_tracked
    (tracked : Tracked origin reader) :
    wp (Held origin) updateCheckpoint
      (fun _ after => Tracked origin after) reader := by
  refine wp_bind (wp_get ?_)
  split
  · exact wp_pure tracked
  · refine wp_bind (wp_modify (storeCheckpoint_tracked ?_ ⟨rfl, rfl⟩))
    exact tracked.onSource tracked.buffered rfl rfl rfl rfl

/-- Writing a checkpoint keeps the invariant, even if only a part of it is
written, or the reader crashes in between. -/
theorem writeCheckpoint_tracked
    (tracked : Tracked origin reader) :
    wp (Held origin) writeCheckpoint
      (fun _ after => Tracked origin after) reader := by
  refine wp_seq (updateCheckpoint_tracked tracked) fun rc after kept => ?_
  exact wp_seq (pause_tracked kept) fun _ _ held => wp_pure held

theorem checkpointIfDue_tracked
    (tracked : Tracked origin reader) :
    wp (Held origin) checkpointIfDue
      (fun _ after => Tracked origin after) reader := by
  refine wp_seq (unixMicros_tracked tracked) fun now after kept => ?_
  refine wp_bind (wp_get ?_)
  split
  · refine wp_seq (writeCheckpoint_tracked kept) fun _ state held => ?_
    refine wp_seq (unixMicros_tracked held) fun _ last noted => ?_
    exact wp_modify (noted.onSource noted.buffered rfl rfl rfl rfl)
  · exact wp_pure kept

/-! ## The functions of the reader -/

theorem takeLine_tracked
    (tracked : Tracked origin reader)
    (line : Bytes) :
    wp (Held origin) (takeLine line)
      (fun _ after => Tracked origin after) reader := by
  refine wp_bind (wp_get ?_)
  split
  · exact wp_pure tracked
  next raw rest split =>
    exact wp_bind (wp_modify (wp_pure (tracked.popLine split)))

theorem getNextLine_tracked
    (tracked : Tracked origin reader)
    (line : Bytes) :
    wp (Held origin) (getNextLine line)
      (fun _ after => Tracked origin after) reader := by
  refine wp_seq (fillLineBuf_tracked tracked) fun rc after kept => ?_
  cases rc with
  | error failure => exact wp_pure kept
  | ok _ =>
      refine wp_seq (takeLine_tracked kept line) fun _ state taken => ?_
      refine wp_seq (checkpointIfDue_tracked taken) fun _ last held => ?_
      exact wp_bind (wp_modify (wp_pure held.noteReturned))

/-- Behind its line `getNextEvent` leaves the reader alone. -/
theorem wp_getNextEvent
    {inv : LogPoint → Reader → Prop}
    {kept : Reader → Prop}
    (uncaught : ∀ after, kept after → inv .uncaught after)
    (line : wp inv (getNextLine []) (fun _ after => kept after) reader)
    (eventJson : Bytes) :
    wp inv (getNextEvent eventJson) (fun _ after => kept after) reader := by
  refine wp_seq line fun rc after held => ?_
  cases rc with
  | error failure => exact wp_pure held
  | ok rawLine =>
      dsimp only
      split
      · exact wp_pure held
      · refine wp_bind (wp_get ?_)
        split
        · exact wp_halt (uncaught after held)
        · exact wp_pure held

theorem getNextEvent_tracked
    (tracked : Tracked origin reader)
    (eventJson : Bytes) :
    wp (Held origin) (getNextEvent eventJson)
      (fun _ after => Tracked origin after) reader :=
  wp_getNextEvent (fun _ kept => kept) (getNextLine_tracked tracked []) eventJson

theorem runOp_tracked
    (tracked : Tracked origin reader)
    (op : Op) :
    wp (Held origin) (runOp op) (fun _ after => Tracked origin after)
      reader := by
  cases op with
  | hasNextLine =>
      exact wp_seq (hasNextLine_tracked tracked) fun _ _ kept => wp_pure kept
  | getNextLine =>
      exact wp_seq (getNextLine_tracked tracked []) fun _ _ kept =>
        wp_pure kept
  | getNextEvent =>
      exact wp_seq (getNextEvent_tracked tracked []) fun _ _ kept =>
        wp_pure kept
  | writeCheckpoint =>
      exact wp_seq (writeCheckpoint_tracked tracked) fun _ _ kept =>
        wp_pure kept

/-- Any sequence of calls keeps the invariant at each of its program points. -/
theorem runOps_tracked
    (tracked : Tracked origin reader)
    (ops : List Op) :
    wp (Held origin) (runOps ops) (fun _ after => Tracked origin after)
      reader :=
  wp_forM (fun op _ _ kept => wp_seq (pause_tracked kept)
    fun _ _ held => runOp_tracked held op) tracked

end Logfile
end EvCollect
