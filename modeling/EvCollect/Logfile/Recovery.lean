import EvCollect.Logfile.Delivery

/-!
# Restarts of a log reader

A source reads the position in the checkpoint file, is used and crashes, and the
next one begins with what it has left on the disk. As long as no source crashes
between a checkpoint that its own call of `getNextLine` has completed and the
return of that call, the position in the checkpoint file is at the end of lines
that have been returned.
-/

namespace EvCollect
namespace Logfile

open Process Text

/-- A set of lines: the inode of a file, the offset at which the line begins,
and the line itself, newline included. -/
abbrev Lines := UInt64 → Nat → Bytes → Prop

/-- The first lines that a source has taken. -/
def ReaderHistory.Took
    (history : ReaderHistory)
    (count : Nat) : Lines :=
  fun inode position raw => ∃ earlier later,
    history.taken.take count =
        earlier ++ { inode := inode, raw := raw } :: later ∧
      position = history.start inode + (linesOf inode earlier).flatten.length

/-- The lines that a source has returned. -/
def ReaderHistory.Returned (history : ReaderHistory) : Lines :=
  history.Took history.returned

theorem ReaderHistory.Took.mono
    {history : ReaderHistory}
    {count more : Nat}
    {inode : UInt64}
    {position : Nat}
    {raw : Bytes}
    (took : history.Took count inode position raw)
    (fewer : count ≤ more) :
    history.Took more inode position raw := by
  obtain ⟨earlier, later, taken, equal⟩ := took
  obtain ⟨rest, extended⟩ : history.taken.take count <+: history.taken.take more :=
    List.take_prefix_take_left fewer
  exact ⟨earlier, later ++ rest, by rw [← extended, taken]; simp, equal⟩

/-- The first lines taken are among all lines taken. -/
theorem ReaderHistory.Took.all
    {history : ReaderHistory}
    {count : Nat}
    {inode : UInt64}
    {position : Nat}
    {raw : Bytes}
    (took : history.Took count inode position raw) :
    history.Took history.taken.length inode position raw := by
  obtain ⟨earlier, later, taken, equal⟩ := took
  refine ⟨earlier, later ++ history.taken.drop count, ?_, equal⟩
  have split := List.take_append_drop count history.taken
  rw [taken] at split
  rw [List.take_length]
  exact split.symm.trans (by simp)

/-- A line of a file that was taken stands among all lines taken. -/
theorem exists_of_linesOf
    {inode : UInt64}
    {taken : List Taken}
    {first rest : List Bytes}
    {raw : Bytes}
    (lines : linesOf inode taken = first ++ raw :: rest) :
    ∃ earlier later, taken = earlier ++ { inode := inode, raw := raw } :: later ∧
      linesOf inode earlier = first := by
  induction taken generalizing first with
  | nil => simp at lines
  | cons line taken inductionHypothesis =>
      obtain ⟨lineInode, lineRaw⟩ := line
      by_cases same : lineInode = inode
      · subst same
        have unfolded : linesOf lineInode (⟨lineInode, lineRaw⟩ :: taken) =
            lineRaw :: linesOf lineInode taken := by
          simp [linesOf]
        rw [unfolded] at lines
        cases first with
        | nil =>
            rw [List.nil_append, List.cons.injEq] at lines
            exact ⟨[], taken, by rw [lines.1]; rfl, rfl⟩
        | cons head first =>
            rw [List.cons_append, List.cons.injEq] at lines
            obtain ⟨earlier, later, split, before⟩ := inductionHypothesis lines.2
            refine ⟨⟨lineInode, lineRaw⟩ :: earlier, later, ?_, ?_⟩
            · rw [split]
              rfl
            · rw [← before, ← lines.1]
              simp [linesOf]
      · have unfolded : ∀ lines : List Taken,
            linesOf inode (⟨lineInode, lineRaw⟩ :: lines) =
              linesOf inode lines := by
          intro lines
          simp [linesOf, same]
        rw [unfolded] at lines
        obtain ⟨earlier, later, split, before⟩ := inductionHypothesis lines
        refine ⟨⟨lineInode, lineRaw⟩ :: earlier, later, ?_, ?_⟩
        · rw [split]
          rfl
        · rw [unfolded, before]

/-- A source with nothing in its buffers, as the constructor leaves it. -/
def LogfileSource.Empty (source : LogfileSource) : Prop :=
  source.lineBuf = [] ∧ source.bufLen ≤ source.buf.length

theorem LogfileSource.empty_create
    (sha1 : Bytes → Bytes)
    (filename spoolDir : Bytes) :
    (LogfileSource.create sha1 filename spoolDir).Empty :=
  ⟨rfl, le_refl _⟩

/-- The checkpoint file is harmless: its position is a line boundary, and all
lines before it are known ones. -/
def Disk.Sound (disk : Disk) (returned : Lines) : Prop :=
  Genuine disk disk.saved fun text => ∀ position raw,
    RecordAt 0x0a text position raw → returned disk.saved.1 position raw

variable {origin : Origin}
variable {disk : Disk}
variable {source : LogfileSource}
variable {reader : Reader}
variable {returned : Lines}

theorem saved_of_grows
    {before after : Disk}
    (grows : before.Grows after) :
    after.saved = before.saved := by
  rw [Disk.saved, Disk.saved, grows.checkpoint]

theorem Disk.Sound.grows
    {after : Disk}
    (sound : disk.Sound returned)
    (grows : disk.Grows after) :
    after.Sound returned := by
  unfold Disk.Sound
  rw [saved_of_grows grows]
  exact Genuine.grows sound grows

/-- Before the beginning of a file there is no line. -/
theorem sound_at_zero
    {text : Bytes}
    {lines : Nat → Bytes → Prop} :
    Boundary 0x0a text 0 ∧
      ∀ position raw,
        RecordAt 0x0a (text.take 0) position raw → lines position raw := by
  refine ⟨⟨Nat.zero_le _, Or.inl rfl⟩, fun position raw found => ?_⟩
  rw [List.take_zero] at found
  exact absurd found not_recordAt_nil

/-- Without a checkpoint nothing can be skipped. -/
theorem sound_of_no_checkpoint
    (absent : disk.checkpoint = none) :
    disk.Sound returned := by
  have saved : disk.saved = (0, 0) := by
    rw [Disk.saved, absent]
    rfl
  unfold Disk.Sound
  rw [saved]
  exact ⟨disk.zero_used, fun _ _ => sound_at_zero⟩

/-! ## The start of a source -/

/-- What is decoded from a part of the checkpoint file is its position, or the
part is not all that matters, and then it is none. -/
theorem decodeCheckpoint_part
    {contents data : Bytes}
    {count : Nat}
    (bound : count ≤ 16)
    (part : data = contents.take count) :
    LogfileSource.decodeCheckpoint data =
        LogfileSource.decodeCheckpoint (contents.take 16) ∨
      decide (data = contents.take 16) = false ∧
        LogfileSource.decodeCheckpoint data = (0, 0) := by
  by_cases whole : data = contents.take 16
  · left
    rw [whole]
  · right
    refine ⟨decide_eq_false whole, ?_⟩
    rw [LogfileSource.decodeCheckpoint, if_neg]
    intro length
    apply whole
    rw [part, List.length_take] at length
    rw [part, show count = 16 by omega]

/-- A reader after other processes have acted, and after it has noted whether
it could read the checkpoint file. -/
def Reader.past
    (after : Disk)
    (synced : Bool)
    (reader : Reader) : Reader :=
  { reader with
    disk := after
    history := { reader.history with synced := synced } }

/-- `read` of the checkpoint file returns a part of what matters in it. -/
theorem readSaved_spec
    {inv : LogPoint → Reader → Prop}
    (held : inv .readSaved reader) :
    wp inv readSaved
      (fun data after => (∃ disk, after = { reader with disk := disk } ∧
          reader.disk.Grows disk) ∧
        ∃ count ≤ 16, data = (after.disk.checkpoint.getD []).take count)
      reader := by
  refine wp_sysCall held fun entry => ⟨⟨_, rfl, Disk.grows_react entry _⟩, ?_⟩
  dsimp only
  split
  · exact ⟨0, Nat.zero_le _, rfl⟩
  · exact ⟨_, Nat.min_le_left _ _, rfl⟩

/-- What `readCheckpoint` does: nothing but to start from the position in the
checkpoint file, or from none if it could not read all of it. -/
theorem readCheckpoint_spec
    {inv : LogPoint → Reader → Prop}
    {post : ReturnCode → Reader → Prop}
    (held : ∀ point after synced, reader.disk.Grows after →
      point = .openSaved ∨ point = .readSaved ∨ point = .closeSaved →
      inv point (reader.past after synced))
    (started : ∀ rc after synced position, reader.disk.Grows after →
      position = after.saved ∨ synced = false ∧ position = (0, 0) →
      post rc (startAt position (reader.past after synced))) :
    wp inv readCheckpoint post reader := by
  refine wp_bind (wp_sysCall (held .openSaved reader.disk
    reader.history.synced (Disk.Grows.refl _) (by simp)) fun entry => ?_)
  have grows := Disk.grows_react entry reader.disk
  dsimp only
  split
  · refine wp_bind (wp_modify (wp_bind (wp_modify (wp_pure
      (started _ _ _ _ grows ?_)))))
    exact decodeCheckpoint_part (Nat.zero_le _) rfl
  · apply wp_seq (readSaved_spec (held .readSaved _ reader.history.synced
      grows (by simp)))
    rintro data _ ⟨⟨disk, rfl, next⟩, count, bound, part⟩
    refine wp_bind (wp_modify (wp_bind (wp_sysCall
      (held .closeSaved _ _ (grows.trans next) (by simp)) fun last => ?_)))
    have closed := Disk.grows_react last disk
    refine wp_bind (wp_modify (wp_pure
      (started _ _ _ _ ((grows.trans next).trans closed) ?_)))
    change _ = (disk.react last).saved ∨ _
    rw [saved_of_grows closed]
    exact decodeCheckpoint_part bound part

/-! ## The life of a source -/

/-- Where a source comes from that starts on a sound disk. -/
def startOf
    (disk : Disk)
    (position : UInt64 × UInt64)
    (returned : Lines) : Origin :=
  { first := some disk.saved
    known := fun text => ∀ position raw,
      RecordAt 0x0a text position raw → returned disk.saved.1 position raw
    base := position
    path := disk.path }

/-- The start of a tracked reader is a boundary of every file it can follow, and
the lines before it are known ones. -/
theorem Tracked.boundary_start
    {position : UInt64 × UInt64}
    (tracked : Tracked (startOf disk position returned) reader)
    (whole : reader.disk.truncated = false)
    {inode : UInt64}
    (trusted : reader.disk.Trusts inode) :
    Boundary 0x0a (reader.disk.files inode) (reader.history.start inode) ∧
      ∀ position raw,
        RecordAt 0x0a ((reader.disk.files inode).take
          (reader.history.start inode)) position raw →
        returned inode position raw := by
  rw [ReaderHistory.start, tracked.base_eq]
  split
  next atBase =>
    rcases tracked.base _ rfl with same | none
    · change position = disk.saved at same
      have first := (tracked.genuine _ rfl).2 whole
      rw [startOf, same] at atBase ⊢
      rw [atBase] at trusted ⊢
      exact first trusted
    · rw [none]
      exact sound_at_zero
  next => exact sound_at_zero

/-- What a source leaves on the disk is sound if its checkpoint covers no more
than the first lines taken. -/
theorem Tracked.sound_of_written
    {position : UInt64 × UInt64}
    {count : Nat}
    (tracked : Tracked (startOf disk position returned) reader)
    (covered : reader.history.written ≤ reader.history.returned ∨
        reader.history.returned ∈ reader.history.early →
      reader.history.written ≤ count) :
    reader.disk.Sound fun inode position raw =>
      returned inode position raw ∨
        reader.history.Took count inode position raw := by
  refine ⟨tracked.savedUsed _ rfl, fun whole trusted => ?_⟩
  rcases tracked.checkpoint _ rfl whole trusted with
    same | zero | ⟨_, equal, early⟩
  · obtain ⟨boundary, before⟩ :=
      (tracked.genuine _ rfl).2 whole (same ▸ trusted)
    rw [same]
    exact ⟨boundary, fun position raw found => Or.inl (before position raw found)⟩
  · rw [zero]
    exact sound_at_zero
  · obtain ⟨boundary, before⟩ := tracked.boundary_start whole trusted
    obtain ⟨_, cursor⟩ := tracked.passed whole _ trusted
    have split := linesOf_split reader.disk.saved.1 reader.history.taken
      reader.history.written
    have areRecords : ∀ raw ∈ linesOf reader.disk.saved.1
        (reader.history.taken.take reader.history.written),
          IsRecord 0x0a raw := by
      intro raw present
      obtain ⟨line, member, rfl⟩ := mem_linesOf present
      exact tracked.takenLines line (List.mem_of_mem_take member)
    have text := cursor.take_consumed split
    rw [← equal] at text
    refine ⟨boundary.of_take areRecords ?_ text equal, fun position raw found => ?_⟩
    · have consumed := cursor.consumed_eq
      have inside := cursor.consumed_le.trans cursor.inside
      rw [split, List.flatten_append, List.length_append] at consumed
      omega
    · rw [text] at found
      have divided := boundary.2.imp_left fun atZero =>
        show (reader.disk.files reader.disk.saved.1).take
            (reader.history.start reader.disk.saved.1) = [] by
          rw [atZero, List.take_zero]
      rcases found.of_append divided with old | ⟨inner, isBehind, new⟩
      · exact Or.inl (before position raw old)
      · right
        obtain ⟨first, rest, lines, isInner⟩ := new.of_flatten areRecords
        obtain ⟨earlier, later, taken, isFirst⟩ := exists_of_linesOf lines
        have took : reader.history.Took reader.history.written
            reader.disk.saved.1 position raw := by
          refine ⟨earlier, later, taken, ?_⟩
          rw [isBehind, isInner, isFirst,
            List.length_take_of_le boundary.1]
        exact took.mono (covered early)

/-- What a source leaves on the disk is sound, unless it crashes in the middle
of a call that has written a checkpoint of its own. -/
theorem Tracked.sound
    {position : UInt64 × UInt64}
    (tracked : Tracked (startOf disk position returned) reader)
    (notEarly : reader.history.returned ∉ reader.history.early) :
    reader.disk.Sound fun inode position raw =>
      returned inode position raw ∨
        reader.history.Returned inode position raw :=
  tracked.sound_of_written fun early => early.resolve_right notEarly

/-- At every program point of a source that started on a sound disk, either it
has not begun to read, or it is tracked. -/
theorem readerLife_tracked
    (sound : disk.Sound returned)
    (empty : source.Empty)
    (ops : List Op) :
    wp
      (fun _ reader => reader.history.taken = [] ∧ disk.Grows reader.disk ∨
        ∃ start position,
          Tracked (startOf start position returned) reader)
      (readerLife ops) (fun _ _ => True)
      { disk := disk, source := source } := by
  refine wp_bind (readCheckpoint_spec
    (fun _ after _ grows _ => Or.inl ⟨rfl, grows⟩) ?_)
  intro _ after synced position grows found
  refine wp_mono (runOps_tracked ?_ ops)
    (fun _ _ tracked => Or.inr ⟨after, position, tracked⟩) fun _ _ _ => trivial
  exact tracked_startAt empty.2 empty.1 rfl (sound.grows grows)
    (found.imp_right And.right)

/-! ## Restarts -/

theorem Disk.Sound.mono
    {more : Lines}
    (sound : disk.Sound returned)
    (implies : ∀ inode position raw, returned inode position raw →
      more inode position raw) :
    disk.Sound more := by
  refine ⟨sound.1, fun whole current => ?_⟩
  obtain ⟨boundary, before⟩ := sound.2 whole current
  exact ⟨boundary, fun position raw found =>
    implies _ _ _ (before position raw found)⟩

/-- Sources that run and crash one after the other, and what they have returned
altogether. None of them crashes in the middle of a call that has written a
checkpoint of its own. -/
inductive Lineage : Disk → Lines → Prop
  | first
      (disk : Disk)
      (absent : disk.checkpoint = none) :
      Lineage disk fun _ _ _ => False
  | crash
      {disk : Disk}
      {returned : Lines}
      {source : LogfileSource}
      {ops : List Op}
      {point : LogPoint}
      {reader : Reader}
      (before : Lineage disk returned)
      (empty : source.Empty)
      (reached : Reaches (readerLife ops)
        { disk := disk, source := source } point reader)
      (notEarly : reader.history.returned ∉ reader.history.early) :
      Lineage reader.disk fun inode position raw =>
        returned inode position raw ∨
          reader.history.Returned inode position raw

/-- After any number of crashes the disk is sound. -/
theorem Lineage.sound (lineage : Lineage disk returned) :
    disk.Sound returned := by
  induction lineage with
  | first disk absent => exact sound_of_no_checkpoint absent
  | crash before empty reached notEarly inductionHypothesis =>
      rcases (readerLife_tracked inductionHypothesis empty _).reaches reached with
        ⟨_, grows⟩ | ⟨start, position, tracked⟩
      · exact (inductionHypothesis.grows grows).mono fun _ _ _ => Or.inl
      · exact tracked.sound notEarly

/-- The beginning of the first read of a source: where in which file it goes
on. -/
def resume : ReaderProc (Option (UInt64 × UInt64)) := do
  let _ ← readCheckpoint
  match ← locate with
  | none => return none
  | some _ =>
      let reader ← Proc.get
      return some (reader.source.inode, reader.source.offset)

theorem stat_spec
    {inv : LogPoint → Reader → Prop}
    (held : inv .stat reader) :
    wp inv stat
      (fun found after => (∃ disk, after = { reader with disk := disk } ∧
          reader.disk.Grows disk) ∧
        ∀ stat ∈ found, after.disk.path = some stat.inode) reader := by
  refine wp_sysCall held fun entry => ⟨⟨_, rfl, Disk.grows_react entry _⟩, ?_⟩
  intro stat isFound
  split at isFound
  · cases isFound
  · obtain ⟨inode, current, rfl⟩ := Option.map_eq_some_iff.mp isFound
    exact current

/-- Behind a `stat` a source is at the beginning of the file, or where it
was. -/
theorem LogfileSource.offset_resetFor
    (stat : Stat)
    (source : LogfileSource) :
    (source.resetFor stat).offset = 0 ∨ source.resetFor stat = source := by
  unfold LogfileSource.resetFor
  split
  · exact Or.inl rfl
  · exact Or.inr rfl

/-- A source goes on at the beginning of the current file, or at the position
in the checkpoint file, which then is one of the current file. -/
theorem resume_spec :
    wp (fun _ _ => True) resume
      (fun resumed after => disk.Grows after.disk ∧
        ∀ position ∈ resumed, after.disk.path = some position.1 ∧
          (position.2 = 0 ∨ position = disk.saved))
      { disk := disk, source := source } := by
  refine wp_bind (readCheckpoint_spec (fun _ _ _ _ _ => trivial) ?_)
  intro _ started synced base grows found
  refine wp_bind (wp_seq (stat_spec trivial) ?_)
  rintro isFound _ ⟨⟨later, rfl, more⟩, atPath⟩
  have grown := grows.trans more
  cases isFound with
  | none => exact wp_pure (wp_pure ⟨grown, by simp⟩)
  | some stat =>
      refine wp_bind (wp_modify (wp_pure (wp_bind (wp_get (wp_pure
        ⟨grown, ?_⟩)))))
      intro position known
      obtain rfl := Option.mem_some.mp known
      have current := atPath stat rfl
      refine ⟨?_, ?_⟩
      · rw [Reader.onSource, LogfileSource.inode_resetFor]
        exact current
      · rcases LogfileSource.offset_resetFor stat (source.restore base) with
          atZero | unchanged
        · exact Or.inl atZero
        · rw [saved_of_grows grows] at found
          rcases found with same | ⟨_, none⟩
          · right
            exact (congrArg (fun source => (source.inode, source.offset))
              unchanged).trans same
          · left
            exact (congrArg LogfileSource.offset unchanged).trans
              (congrArg Prod.snd none)

/-- After any number of crashes a source resumes at the beginning of the
current file, or at a line boundary of it before which all lines have been
returned. -/
theorem resumes_behind
    {position : UInt64 × UInt64}
    {after : Reader}
    (lineage : Lineage disk returned)
    (ended : Ends resume { disk := disk, source := source } (some position)
      after)
    (appended : after.disk.truncated = false) :
    after.disk.path = some position.1 ∧
      (position.2 = 0 ∨
        position = disk.saved ∧
          Boundary 0x0a (after.disk.files position.1) position.2.toNat ∧
          ∀ start raw,
            RecordAt 0x0a ((after.disk.files position.1).take
              position.2.toNat) start raw →
            returned position.1 start raw) := by
  obtain ⟨grows, found⟩ := resume_spec.ends ended
  obtain ⟨current, isZero | isSaved⟩ := found position rfl
  · exact ⟨current, Or.inl isZero⟩
  · have sound := lineage.sound.grows grows
    rw [Disk.Sound, saved_of_grows grows, ← isSaved] at sound
    obtain ⟨boundary, before⟩ := sound.2 appended (Or.inl current)
    exact ⟨current, Or.inr ⟨isSaved, boundary, before⟩⟩

/-- A source at a file of two lines. -/
def atTwoLines : Reader :=
  { disk := oneFile (bytes "a\nb\n") (by decide), source := freshSource }

/-- A line is returned, a checkpoint is written behind it, and the process
crashes before the next line is looked for. -/
def crashedBehind : Reader :=
  (readerLife [.getNextLine, .writeCheckpoint, .hasNextLine]
    (List.replicate 22 ({} : Entry)) atTwoLines).state

theorem resumes_behind_secondLine :
    ∃ after : Reader,
      Ends resume { disk := crashedBehind.disk, source := freshSource }
          (some (1, 2)) after ∧
        Boundary 0x0a (after.disk.files 1) 2 ∧
        crashedBehind.history.Returned 1 0 (bytes "a\n") := by
  have reached : Reaches
      (readerLife [.getNextLine, .writeCheckpoint, .hasNextLine]) atTwoLines
      .between crashedBehind :=
    reaches_of_point _ _ _ (by decide)
  have lineage := Lineage.crash (Lineage.first atTwoLines.disk rfl)
    ⟨rfl, le_refl _⟩ reached (by decide)
  have ended : Ends resume
      { disk := crashedBehind.disk, source := freshSource } (some (1, 2)) _ :=
    ends_of_value _ _ (List.replicate 4 ({} : Entry)) (by decide)
  obtain ⟨_, isZero | ⟨_, boundary, before⟩⟩ :=
    resumes_behind lineage ended (by decide)
  · cases isZero
  · have line : RecordAt 0x0a (bytes "a\n") 0 (bytes "a\n") :=
      ⟨⟨bytes "a", rfl, by decide⟩, [], [], rfl, rfl, Or.inl rfl⟩
    exact ⟨_, ended, boundary, (before 0 (bytes "a\n") line).resolve_left id⟩

/-- A process that crashes in its first call, behind the checkpoint that this
call writes because the last one was never. -/
def crashedAhead : Reader :=
  (readerLife [.getNextLine] (List.replicate 21 ({ wall := 10000000 } : Entry))
    atTwoLines).state

/-- The next source goes on behind a line that no source has returned. -/
theorem resumes_beyond_returned :
    Reaches (readerLife [.getNextLine]) atTwoLines .checkpointClock
        crashedAhead ∧
      (∃ after : Reader,
        Ends resume { disk := crashedAhead.disk, source := freshSource }
            (some (1, 2)) after ∧
          after.disk.truncated = false) ∧
      ∀ start raw, ¬crashedAhead.history.Returned 1 start raw := by
  refine ⟨reaches_of_point _ _ _ (by decide), ?_, ?_⟩
  · exact ⟨_, ends_of_value _ _ (List.replicate 4 ({} : Entry)) (by decide),
      by decide⟩
  · rintro start raw ⟨earlier, later, taken, _⟩
    have none : crashedAhead.history.taken.take
        crashedAhead.history.returned = [] := by decide
    simp [none] at taken

end Logfile
end EvCollect
