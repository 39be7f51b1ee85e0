import EvCollect.Logfile.Encoding
import EvCollect.Logfile.Placed
import EvCollect.Logfile.Polling
import EvCollect.Process.Total

/-!
# The log reader drains its file

While no other process acts on the files and the calls by which a file is read
succeed, the calls of the reader's functions end, and line by line they return
what is in the line buffer and then the other lines of the file. Reads may return
as few bytes as they like, and checkpoints may fail.
-/

namespace EvCollect
namespace Logfile

open Process Text

/-- No other process acts on the files. -/
def Still (entries : Stream' Entry) : Prop :=
  ∀ index, (entries.get index).writers = []

/-- The calls by which a log file is read succeed. -/
def Succeeds : LogPoint → Entry → Prop
  | .stat, entry => 0 ≤ entry.result
  | .openLog, entry => 0 ≤ entry.result
  | .seek, entry => 0 ≤ entry.result
  | .read, entry => 0 ≤ entry.result
  | _, _ => True

theorem succeeds_of_result
    {entry : Entry}
    (fine : 0 ≤ entry.result)
    (point : LogPoint) :
    Succeeds point entry := by
  cases point
  all_goals first
    | exact fine
    | trivial

/-- What decides which lines a reader still has to return: the files, and the
source without its read buffer and without what it remembers of checkpoints. -/
structure Standing where
  files : UInt64 → Bytes
  path : Option UInt64
  source : LogfileSource

def Reader.standing (reader : Reader) : Standing :=
  { files := reader.disk.files
    path := reader.disk.path
    source :=
      { reader.source with
        checkpointInode := 0
        checkpointOffset := 0
        lastCheckpoint := 0
        buf := []
        bufLen := 0
        bufPos := 0 } }

/-- Append lines to the line buffer. -/
def LogfileSource.pushLines
    (raws : List Bytes)
    (source : LogfileSource) : LogfileSource :=
  { source with
    lineBuf := source.lineBuf ++ raws
    offset := source.offset + UInt64.ofNat raws.flatten.length }

theorem LogfileSource.pushLines_nil (source : LogfileSource) :
    source.pushLines [] = source := by
  unfold LogfileSource.pushLines
  rw [List.append_nil, List.flatten_nil, List.length_nil,
    show UInt64.ofNat 0 = 0 from rfl, UInt64.add_zero]

theorem LogfileSource.pushLine_pushLines
    (raws : List Bytes)
    (line : Bytes)
    (source : LogfileSource) :
    (source.pushLines raws).pushLine line = source.pushLines (raws ++ [line]) := by
  unfold LogfileSource.pushLines LogfileSource.pushLine
  rw [List.flatten_append, List.flatten_singleton, List.length_append,
    UInt64.ofNat_add, UInt64.add_assoc, List.append_assoc]

variable {entries : Stream' Entry}
variable {stuck : LogPoint → Reader → Prop}
variable {base reader : Reader}
variable {coming : Bytes}

theorem react_of_still
    {entry : Entry}
    (noWriters : entry.writers = [])
    (reader : Reader) :
    World.react entry reader = reader := by
  change { reader with disk := entry.writers.foldl Disk.apply reader.disk } = _
  rw [noWriters]
  rfl

theorem completes_sysCall
    {post : α → Reader → Prop}
    {point : LogPoint}
    {effect : Entry → Reader → α × Reader}
    (still : Still entries)
    (after : ∀ entry, Succeeds point entry →
      post (effect entry reader).1 (effect entry reader).2) :
    Completes entries Succeeds stuck (sysCall point effect) post reader := by
  apply completes_call
  intro index succeeds
  rw [react_of_still (still index)]
  exact after _ succeeds

/-! ## Reading a line -/

/-- While lines are read: these bytes are still to come, in the read buffer and
in the file. -/
structure Coming (base : Reader) (coming : Bytes) (reader : Reader) : Prop where
  standing : reader.standing = base.standing
  buffered : reader.source.bufLen ≤ reader.source.buf.length
  split : ∃ descriptor, reader.descriptor = some descriptor ∧
    coming = reader.source.unread ++
      (reader.disk.files descriptor.inode).drop descriptor.position

/-- Some bytes are read, unless nothing is left in the file. -/
theorem readLog_completes
    (still : Still entries)
    {descriptor : Descriptor}
    (isOpen : reader.descriptor = some descriptor)
    (left : coming =
      (reader.disk.files descriptor.inode).drop descriptor.position) :
    Completes entries Succeeds stuck readLog
      (fun data after => (data = [] → coming = []) ∧ ∃ descriptor,
        after = { reader with descriptor := some descriptor } ∧
          coming = data ++
            (reader.disk.files descriptor.inode).drop descriptor.position)
      reader := by
  apply completes_sysCall still
  intro entry succeeds
  have data : readable reader.disk 8192 entry.result descriptor =
      coming.take (min 8192 (max 1 entry.result.toNat)) := by
    rw [readable, if_neg (Int.not_lt.mpr succeeds), left]
  rw [isOpen]
  dsimp only
  rw [data]
  refine ⟨fun nothing => ?_, _, rfl, ?_⟩
  · exact (List.take_eq_nil_iff.mp nothing).resolve_left (by omega)
  · change _ = _ ++ (reader.disk.files descriptor.inode).drop
      (descriptor.position + _)
    rw [← List.drop_drop, ← left]
    exact (List.prefix_iff_eq_append.mp (List.take_prefix _ _)).symm

/-- An empty read buffer is filled, unless nothing is to come. -/
theorem fillBuf_completes
    (still : Still entries)
    (comes : Coming base coming reader)
    (usedUp : reader.source.unread = []) :
    Completes entries Succeeds stuck fillBuf
      (fun filled after => Coming base coming after ∧
        (filled = false → coming = []) ∧
        (filled = true → after.source.bufPos < after.source.bufLen)) reader := by
  obtain ⟨standing, buffered, descriptor, isOpen, split⟩ := comes
  rw [usedUp, List.nil_append] at split
  apply completes_seq (readLog_completes still isOpen split)
  rintro data _ ⟨noData, descriptor, rfl, split⟩
  split
  next isEmpty =>
    obtain rfl := List.isEmpty_iff.mp isEmpty
    refine completes_pure ⟨⟨standing, buffered, descriptor, rfl, ?_⟩,
      fun _ => noData rfl, by simp⟩
    rw [show LogfileSource.unread _ = [] from usedUp]
    exact split
  next notEmpty =>
    refine completes_bind (completes_modify (completes_pure
      ⟨⟨standing, le_refl _, descriptor, rfl, ?_⟩, by simp, fun _ => ?_⟩))
    · simpa [Reader.onSource, LogfileSource.unread] using split
    · exact List.length_pos_iff.mpr (by simpa using notEmpty)

/-- The byte that is read is the next one to come. -/
def NextByte
    (base : Reader)
    (coming : Bytes)
    (byte : Option UInt8)
    (after : Reader) : Prop :=
  coming.head? = byte ∧ Coming base coming.tail after

theorem takeByte_completes
    (comes : Coming base coming reader)
    (left : reader.source.bufPos < reader.source.bufLen) :
    Completes entries Succeeds stuck takeByte (NextByte base coming) reader := by
  refine completes_bind (completes_get ?_)
  rw [if_pos left]
  obtain ⟨standing, buffered, descriptor, isOpen, split⟩ := comes
  rw [unread_eq_cons buffered left, List.cons_append] at split
  refine completes_bind (completes_modify (completes_pure ⟨?_, ?_⟩))
  · rw [split]
    rfl
  · refine ⟨standing, buffered, descriptor, isOpen, ?_⟩
    rw [split]
    rfl

theorem readNextByte_completes
    (still : Still entries)
    (comes : Coming base coming reader) :
    Completes entries Succeeds stuck readNextByte (NextByte base coming)
      reader := by
  refine completes_bind (completes_get ?_)
  split
  next usedUp =>
    apply completes_seq (fillBuf_completes still comes
      (unread_eq_nil usedUp))
    rintro filled after ⟨comesAfter, nothing, buffered⟩
    cases filled with
    | false =>
        obtain rfl := nothing rfl
        exact completes_pure ⟨rfl, comesAfter⟩
    | true => exact takeByte_completes comesAfter (buffered rfl)
  next left => exact takeByte_completes comes (Nat.lt_of_not_le left)

/-- What is read as a line is the next record to come; else there is none. -/
def NextLine
    (base : Reader)
    (coming : Bytes) : Option Bytes → Reader → Prop
  | none, after => after.standing = base.standing ∧ (0x0a : UInt8) ∉ coming
  | some raw, after =>
      IsRecord 0x0a raw ∧ ∃ left, coming = raw ++ left ∧ Coming base left after

theorem readLine_completes
    (still : Still entries)
    (comes : Coming base coming reader) :
    Completes entries Succeeds stuck readLine (NextLine base coming) reader := by
  refine completes_iterate
    (readLinePass_reading Causal.compositional)
    (fun bound line state => ∃ left, Coming base left state ∧
      coming = line ++ left ∧ (0x0a : UInt8) ∉ line ∧ bound = left.length)
    ⟨coming, comes, rfl, List.not_mem_nil, rfl⟩ ?_
  rintro _ line state index ⟨left, comesLeft, split, absent, rfl⟩ -
  rw [react_of_still (still index)]
  apply completes_seq (readNextByte_completes still comesLeft)
  rintro byte after ⟨isNext, comesAfter⟩
  cases left with
  | nil =>
      obtain rfl := isNext
      refine completes_pure ⟨comesAfter.standing, ?_⟩
      rwa [split, List.append_nil]
  | cons byte left =>
      obtain rfl := isNext
      change Completes _ _ _ (if byte = 0x0a then _ else _) _ _
      split
      next isNewline =>
        refine completes_pure ⟨⟨line, by rw [isNewline], absent⟩, left, ?_,
          comesAfter⟩
        rw [split, List.append_assoc]
        rfl
      next notNewline =>
        refine completes_pure ⟨left.length, Nat.lt_succ_self _, left,
          comesAfter, ?_, ?_, rfl⟩
        · rw [split, List.append_assoc]
          rfl
        · rw [List.mem_append, List.mem_singleton, not_or]
          exact ⟨absent, Ne.symm notNewline⟩

/-! ## Reading lines -/

/-- The next records to come have been read into the line buffer: at least one,
unless there is none or the buffer was full. -/
def Pushed (base : Reader) (coming : Bytes) (after : Reader) : Prop :=
  ∃ raws left,
    after.standing =
        (base.onSource (LogfileSource.pushLines raws)).standing ∧
      coming = raws.flatten ++ left ∧
      (∀ raw ∈ raws, IsRecord 0x0a raw) ∧
      (raws = [] → (0x0a : UInt8) ∉ left ∨
        base.source.lineBufMaxsize ≤ base.source.lineBuf.length)

theorem Coming.pushLine
    {raws : List Bytes}
    (comes : Coming (base.onSource (LogfileSource.pushLines raws)) coming reader)
    (line : Bytes) :
    Coming (base.onSource (LogfileSource.pushLines (raws ++ [line]))) coming
      (reader.onSource (LogfileSource.pushLine line)) where
  standing := by
    have pushed := congrArg (fun standing : Standing =>
      { standing with source := standing.source.pushLine line }) comes.standing
    refine pushed.trans ?_
    rw [Reader.onSource, Reader.onSource, ← LogfileSource.pushLine_pushLines]
    rfl
  buffered := comes.buffered
  split := comes.split

theorem readLinesLoop_completes
    (still : Still entries)
    (comes : Coming base coming reader) :
    Completes entries Succeeds stuck
      (Proc.iterate .lineLoop World.react (fun _ => readLinesPass) ())
      (fun _ after => Pushed base coming after) reader := by
  refine completes_iterate
    (fun _ => readLinesPass_reading Causal.compositional)
    (fun bound _ state => ∃ raws left,
      Coming (base.onSource (LogfileSource.pushLines raws)) left state ∧
        coming = raws.flatten ++ left ∧
        (∀ raw ∈ raws, IsRecord 0x0a raw) ∧ bound = left.length)
    ⟨[], coming, ?_, rfl, List.forall_mem_nil _, rfl⟩ ?_
  · rwa [Reader.onSource, LogfileSource.pushLines_nil]
  rintro _ _ state index ⟨raws, left, comesLeft, split, areRecords, rfl⟩ -
  rw [react_of_still (still index)]
  apply completes_seq (readLine_completes still comesLeft)
  rintro line after next
  cases line with
  | none =>
      obtain ⟨standing, absent⟩ := next
      exact completes_pure ⟨raws, left, standing, split, areRecords,
        fun _ => .inl absent⟩
  | some raw =>
      obtain ⟨isRecord, left, rfl, comesAfter⟩ := next
      refine completes_bind (completes_get ?_)
      split
      next =>
        refine completes_bind (completes_modify (completes_pure
          ⟨left.length, ?_, raws ++ [raw], left, comesAfter.pushLine raw, ?_,
            ?_, rfl⟩))
        · obtain ⟨body, rfl, -⟩ := isRecord
          simp only [List.length_append, List.length_singleton]
          omega
        · rw [split, List.flatten_append, List.flatten_singleton,
            List.append_assoc]
        · intro other present
          rcases List.mem_append.mp present with old | new
          · exact areRecords other old
          · rwa [List.mem_singleton.mp new]
      next full =>
        refine completes_pure ⟨raws, raw ++ left, comesAfter.standing, split,
          areRecords, ?_⟩
        rintro rfl
        right
        have sameBuf : after.source.lineBuf = base.source.lineBuf ++ [] :=
          congrArg (·.source.lineBuf) comesAfter.standing
        have sameSize : after.source.lineBufMaxsize =
            base.source.lineBufMaxsize :=
          congrArg (·.source.lineBufMaxsize) comesAfter.standing
        rw [sameBuf, sameSize, List.append_nil] at full
        exact Nat.le_of_not_lt full

theorem readOpened_completes
    (still : Still entries)
    {descriptor : Descriptor}
    (isOpen : reader.descriptor = some descriptor)
    (fits : reader.source.offset.toNat < 2 ^ 63)
    (number : Nat) :
    Completes entries Succeeds stuck (readOpened number)
      (fun rc after => rc = ReturnCode.success ∧
        Pushed reader ((reader.disk.files descriptor.inode).drop
          reader.source.offset.toNat) after) reader := by
  refine completes_bind (completes_get ?_)
  refine completes_bind (completes_sysCall still fun entry succeeds => ?_)
  rw [if_neg (not_or.mpr ⟨Int.not_lt.mpr succeeds, Nat.not_le.mpr fits⟩), isOpen]
  refine completes_bind (completes_modify ?_)
  have comes : Coming reader
      ((reader.disk.files descriptor.inode).drop reader.source.offset.toNat)
      (Reader.onSource (fun source => { source with bufLen := 0, bufPos := 0 })
        { reader with
          descriptor := some
            { descriptor with position := reader.source.offset.toNat } }) :=
    ⟨rfl, Nat.zero_le _, _, rfl, rfl⟩
  apply completes_seq (readLinesLoop_completes still comes)
  rintro _ after pushed
  refine completes_bind (completes_sysCall still fun _ _ => completes_pure ?_)
  exact ⟨rfl, pushed⟩

/-! ## Filling the line buffer -/

/-- The source when it has found the file at the path. -/
def Reader.arrived (reader : Reader) (inode : UInt64) : Reader :=
  reader.onSource (LogfileSource.resetFor
    { inode := inode, size := reader.disk.size inode })

theorem Reader.arrived_of_empty
    {reader : Reader}
    (empty : reader.source.lineBuf = [])
    (inode : UInt64) :
    (reader.arrived inode).source.lineBuf = [] := by
  rw [Reader.arrived, Reader.onSource, LogfileSource.resetFor]
  split
  · rfl
  · exact empty

/-- The position at which the reader goes on to read a file. -/
def Reader.position (reader : Reader) (inode : UInt64) : Nat :=
  (reader.arrived inode).source.offset.toNat

/-- What the reader has not read of a file. -/
def Reader.behind (reader : Reader) (inode : UInt64) : Bytes :=
  (reader.disk.files inode).drop (reader.position inode)

theorem Reader.position_le (reader : Reader) (inode : UInt64) :
    reader.position inode ≤ (reader.disk.files inode).length := by
  rw [← reader.disk.toNat_size, Reader.position, Reader.arrived, Reader.onSource,
    LogfileSource.resetFor]
  split
  · exact Nat.zero_le _
  next same =>
    rw [not_or] at same
    exact UInt64.not_lt.mp same.2

theorem openLog_completes
    (still : Still entries)
    (path : reader.disk.path = some reader.source.inode) :
    Completes entries Succeeds stuck openLog
      (fun opened after => opened.isSome ∧ after =
        { reader with
          descriptor := some { inode := reader.source.inode, position := 0 } })
      reader := by
  apply completes_sysCall still
  intro entry succeeds
  rw [path]
  dsimp only
  rw [if_neg (Int.not_lt.mpr succeeds)]
  refine ⟨rfl, ?_⟩
  simp [Disk.noteOpened]

theorem readLines_completes
    (still : Still entries)
    {inode : UInt64}
    (path : reader.disk.path = some inode) :
    Completes entries Succeeds stuck readLines
      (fun rc after => rc = ReturnCode.success ∧
        Pushed (reader.arrived inode) (reader.behind inode) after) reader := by
  have inside := reader.position_le inode
  have bound := reader.disk.bounded inode
  refine completes_bind (completes_bind (completes_sysCall still
    fun entry succeeds => ?_))
  rw [if_neg (Int.not_lt.mpr succeeds), path]
  refine completes_bind (completes_modify (completes_pure ?_))
  refine completes_bind (completes_get ?_)
  change Completes _ _ _ (if reader.disk.size inode =
    (reader.arrived inode).source.offset then _ else _) _ (reader.arrived inode)
  split
  next atEnd =>
    refine completes_pure ⟨rfl, [], [], ?_, ?_, List.forall_mem_nil _,
      fun _ => .inl List.not_mem_nil⟩
    · rw [Reader.onSource, LogfileSource.pushLines_nil]
    · rw [Reader.behind, Reader.position, ← atEnd, Disk.toNat_size]
      exact List.drop_length
  next =>
    have same : (reader.arrived inode).source.inode = inode :=
      LogfileSource.inode_resetFor _ _
    have there : (reader.arrived inode).disk.path =
        some (reader.arrived inode).source.inode := by
      rw [same]
      exact path
    apply completes_seq (openLog_completes still there)
    rintro opened _ ⟨isSome, rfl⟩
    obtain ⟨number, rfl⟩ := Option.isSome_iff_exists.mp isSome
    refine completes_mono (readOpened_completes still rfl ?_ number)
      (fun _ _ held => held) ?_
    · exact Nat.lt_of_le_of_lt inside bound
    · rintro rc after ⟨success, pushed⟩
      dsimp only at pushed
      rw [same] at pushed
      exact ⟨success, pushed⟩

/-! ## The lines that are left -/

/-- The lines that the reader still has to return: those in its buffer, and those
that it has not read. -/
def Reader.linesLeft (reader : Reader) (inode : UInt64) : List Bytes :=
  reader.source.lineBuf ++ terminated 0x0a (reader.behind inode)

/-- The position at which the last of these lines ends. -/
def Reader.lastEnd (reader : Reader) (inode : UInt64) : Nat :=
  reader.position inode + behindLast 0x0a (reader.behind inode)

/-- Since `start` the file at the path is the same, and these lines of it are
left. -/
structure Draining
    (start : Reader)
    (inode : UInt64)
    (left : List Bytes)
    (reader : Reader) : Prop where
  path : reader.disk.path = some inode
  files : reader.disk.files = start.disk.files
  pcreHandle : reader.source.pcreHandle = start.source.pcreHandle
  pcreFields : reader.source.pcreFields = start.source.pcreFields
  placed : Placed reader.source
  linesLeft : reader.linesLeft inode = left
  lastEnd : reader.lastEnd inode = start.lastEnd inode

variable {start : Reader}
variable {inode : UInt64}
variable {left : List Bytes}

theorem Reader.position_eq (reader : Reader) (inode : UInt64) :
    reader.position inode =
      if inode ≠ reader.source.inode ∨
          (reader.disk.files inode).length < reader.source.offset.toNat then 0
      else reader.source.offset.toNat := by
  rw [← reader.disk.toNat_size, Reader.position, Reader.arrived, Reader.onSource,
    LogfileSource.resetFor]
  simp only [← UInt64.lt_iff_toNat_lt]
  split <;> rfl

/-- What is left depends on where the reader stands only. -/
theorem Draining.congr
    {after : Reader}
    (draining : Draining start inode left reader)
    (same : after.standing = reader.standing) :
    Draining start inode left after := by
  have files : after.disk.files = reader.disk.files :=
    congrArg Standing.files same
  have lineBuf : after.source.lineBuf = reader.source.lineBuf :=
    congrArg (·.source.lineBuf) same
  have offset : after.source.offset = reader.source.offset :=
    congrArg (·.source.offset) same
  have consumed : after.source.consumedOffset = reader.source.consumedOffset :=
    congrArg (·.source.consumedOffset) same
  have capacity : after.source.lineBufMaxsize = reader.source.lineBufMaxsize :=
    congrArg (·.source.lineBufMaxsize) same
  have position : after.position inode = reader.position inode := by
    have sourceInode : after.source.inode = reader.source.inode :=
      congrArg (·.source.inode) same
    rw [Reader.position_eq, Reader.position_eq, files, sourceInode, offset]
  have behind : after.behind inode = reader.behind inode := by
    rw [Reader.behind, Reader.behind, files, position]
  refine ⟨(congrArg Standing.path same).trans draining.path,
    files.trans draining.files,
    (congrArg (·.source.pcreHandle) same).trans draining.pcreHandle,
    (congrArg (·.source.pcreFields) same).trans draining.pcreFields,
    ⟨?_, ?_, ?_⟩, ?_, ?_⟩
  · rw [lineBuf]
    exact draining.placed.lines
  · rw [offset, consumed, lineBuf]
    exact draining.placed.offset
  · rw [capacity]
    exact draining.placed.capacity
  · rw [← draining.linesLeft, Reader.linesLeft, Reader.linesLeft, lineBuf, behind]
  · rw [← draining.lastEnd, Reader.lastEnd, Reader.lastEnd, position, behind]

theorem Reader.position_pushLines
    {raws : List Bytes}
    {rest : Bytes}
    (split : reader.behind inode = raws.flatten ++ rest) :
    ((reader.arrived inode).onSource (LogfileSource.pushLines raws)).position
        inode = reader.position inode + raws.flatten.length := by
  have inside := reader.position_le inode
  have bound := reader.disk.bounded inode
  have length := congrArg List.length split
  rw [Reader.behind, List.length_drop, List.length_append] at length
  have offset : ((reader.arrived inode).source.offset +
      UInt64.ofNat raws.flatten.length).toNat =
        reader.position inode + raws.flatten.length := by
    rw [UInt64.toNat_add, UInt64.toNat_ofNat', Nat.add_mod_mod]
    apply Nat.mod_eq_of_lt
    change reader.position inode + _ < _
    omega
  rw [Reader.position_eq, if_neg]
  · exact offset
  · rw [not_or, not_not]
    constructor
    · exact (LogfileSource.inode_resetFor
        { inode := inode, size := reader.disk.size inode } reader.source).symm
    · change ¬ (reader.disk.files inode).length <
        ((reader.arrived inode).source.offset +
          UInt64.ofNat raws.flatten.length).toNat
      rw [offset]
      omega

theorem Placed.pushLines
    {source : LogfileSource}
    (placed : Placed source)
    {raws : List Bytes}
    (areRecords : ∀ raw ∈ raws, IsRecord 0x0a raw) :
    Placed (source.pushLines raws) := by
  induction raws using List.reverseRecOn with
  | nil => rwa [LogfileSource.pushLines_nil]
  | append_singleton raws line inductionHypothesis =>
      rw [List.forall_mem_append] at areRecords
      rw [← LogfileSource.pushLine_pushLines]
      exact (inductionHypothesis areRecords.1).pushLine
        (areRecords.2 line (List.mem_singleton_self line))

/-- Reading lines into the empty line buffer leaves the same lines. -/
theorem Draining.pushLines
    {raws : List Bytes}
    {rest : Bytes}
    (draining : Draining start inode left reader)
    (empty : reader.source.lineBuf = [])
    (split : reader.behind inode = raws.flatten ++ rest)
    (areRecords : ∀ raw ∈ raws, IsRecord 0x0a raw) :
    Draining start inode left
      ((reader.arrived inode).onSource (LogfileSource.pushLines raws)) := by
  have sameRegex :
      (reader.arrived inode).source.pcreHandle = reader.source.pcreHandle ∧
      (reader.arrived inode).source.pcreFields = reader.source.pcreFields := by
    rw [Reader.arrived, Reader.onSource, LogfileSource.resetFor]
    split <;> exact ⟨rfl, rfl⟩
  have position := Reader.position_pushLines split
  have behind : ((reader.arrived inode).onSource
      (LogfileSource.pushLines raws)).behind inode = rest := by
    rw [Reader.behind, position, ← List.drop_drop]
    exact (congrArg (List.drop _) split).trans List.drop_left
  refine ⟨draining.path, draining.files,
    sameRegex.1.trans draining.pcreHandle,
    sameRegex.2.trans draining.pcreFields,
    (draining.placed.resetFor _).pushLines areRecords, ?_, ?_⟩
  · rw [← draining.linesLeft, Reader.linesLeft, behind, Reader.linesLeft, empty,
      split, terminated_flatten_append areRecords, List.nil_append]
    change (reader.arrived inode).source.lineBuf ++ raws ++ _ = _
    rw [Reader.arrived_of_empty empty, List.nil_append]
  · rw [← draining.lastEnd, Reader.lastEnd, position, behind, Reader.lastEnd,
      split, behindLast, behindLast, terminated_flatten_append areRecords,
      List.flatten_append, List.length_append, Nat.add_assoc]

/-- The reader has come to the end of the lines that were left at the start. -/
structure AtEnd (start : Reader) (inode : UInt64) (reader : Reader) : Prop where
  lineBuf : reader.source.lineBuf = []
  atFile : reader.source.inode = inode
  consumed : reader.source.consumedOffset.toNat = start.lastEnd inode

/-- A reader that has found no line in the file is at the end. -/
theorem Draining.atEnd
    (draining : Draining start inode left reader)
    (empty : reader.source.lineBuf = [])
    (absent : (0x0a : UInt8) ∉ reader.behind inode) :
    left = [] ∧ AtEnd start inode (reader.arrived inode) := by
  have nothing : terminated 0x0a (reader.behind inode) = [] :=
    terminated_of_not_mem absent
  have arrivedEmpty := Reader.arrived_of_empty empty inode
  refine ⟨?_, arrivedEmpty, LogfileSource.inode_resetFor _ _, ?_⟩
  · rw [← draining.linesLeft, Reader.linesLeft, empty, nothing]
    rfl
  · have same := (draining.placed.resetFor _).offset_of_empty arrivedEmpty
    rw [← draining.lastEnd, Reader.lastEnd, behindLast, nothing, Reader.arrived,
      Reader.onSource, ← same]
    rfl

theorem AtEnd.congr
    {after : Reader}
    (atEnd : AtEnd start inode reader)
    (same : after.standing = reader.standing) :
    AtEnd start inode after where
  lineBuf := (congrArg (·.source.lineBuf) same).trans atEnd.lineBuf
  atFile := (congrArg (·.source.inode) same).trans atEnd.atFile
  consumed := by
    have consumed : after.source.consumedOffset = reader.source.consumedOffset :=
      congrArg (·.source.consumedOffset) same
    rw [consumed]
    exact atEnd.consumed

/-- After reading lines the buffer is empty only at the end. -/
theorem Draining.pushed
    {after : Reader}
    (draining : Draining start inode left reader)
    (empty : reader.source.lineBuf = [])
    (pushed : Pushed (reader.arrived inode) (reader.behind inode) after) :
    Draining start inode left after ∧ (after.source.lineBuf = [] →
      left = [] ∧ AtEnd start inode after) := by
  obtain ⟨raws, rest, standing, split, areRecords, atLeastOne⟩ := pushed
  refine ⟨(draining.pushLines empty split areRecords).congr standing,
    fun emptyAfter => ?_⟩
  have arrivedEmpty := Reader.arrived_of_empty empty inode
  have lineBuf : after.source.lineBuf =
      (reader.arrived inode).source.lineBuf ++ raws :=
    congrArg (·.source.lineBuf) standing
  rw [emptyAfter, arrivedEmpty, List.nil_append] at lineBuf
  subst lineBuf
  have absent : (0x0a : UInt8) ∉ rest := by
    refine (atLeastOne rfl).resolve_right (Nat.not_le.mpr ?_)
    rw [arrivedEmpty]
    exact (draining.placed.resetFor _).capacity
  rw [Reader.onSource, LogfileSource.pushLines_nil] at standing
  rw [List.flatten_nil, List.nil_append] at split
  obtain ⟨nothing, atEnd⟩ := draining.atEnd empty (by rwa [split])
  exact ⟨nothing, atEnd.congr standing⟩

theorem fillLineBuf_completes
    (still : Still entries)
    (draining : Draining start inode left reader) :
    Completes entries Succeeds stuck fillLineBuf
      (fun rc after => rc = ReturnCode.success ∧
        Draining start inode left after ∧ (after.source.lineBuf = [] →
          left = [] ∧ AtEnd start inode after)) reader := by
  refine completes_bind (completes_get ?_)
  split
  next isEmpty =>
    refine completes_mono (readLines_completes still draining.path)
      (fun _ _ held => held) ?_
    rintro rc after ⟨success, pushed⟩
    exact ⟨success, draining.pushed (List.isEmpty_iff.mp isEmpty) pushed⟩
  next notEmpty =>
    exact completes_pure ⟨rfl, draining, fun empty =>
      absurd (List.isEmpty_iff.mpr empty) notEmpty⟩

/-- A line is taken out of the buffer. -/
theorem Draining.popLine
    {raw : Bytes}
    {rest : List Bytes}
    (draining : Draining start inode left reader)
    (buffered : reader.source.lineBuf = raw :: rest) :
    left.head? = some raw ∧
      Draining start inode left.tail (Logfile.popLine raw reader) := by
  have lines := draining.linesLeft
  rw [Reader.linesLeft, buffered, List.cons_append] at lines
  subst lines
  have position : (Logfile.popLine raw reader).position inode =
      reader.position inode := by
    rw [Reader.position_eq, Reader.position_eq]
    rfl
  have behind : (Logfile.popLine raw reader).behind inode =
      reader.behind inode := by
    rw [Reader.behind, position]
    rfl
  refine ⟨rfl, draining.path, draining.files, draining.pcreHandle,
    draining.pcreFields, draining.placed.popLine buffered, ?_, ?_⟩
  · rw [Reader.linesLeft, behind]
    change reader.source.lineBuf.tail ++ _ = _
    rw [buffered]
    rfl
  · rw [Reader.lastEnd, position, behind]
    exact draining.lastEnd

theorem takeLine_completes
    (draining : Draining start inode left reader)
    (filled : reader.source.lineBuf = [] → left = []) :
    Completes entries Succeeds stuck (takeLine [])
      (fun line after => line = (left.headD []).dropLast ∧
        Draining start inode left.tail after) reader := by
  refine completes_bind (completes_get ?_)
  split
  next empty =>
    obtain rfl := filled empty
    exact completes_pure ⟨rfl, draining⟩
  next raw rest buffered =>
    obtain ⟨isFirst, drained⟩ := draining.popLine buffered
    refine completes_bind (completes_modify (completes_pure ⟨?_, drained⟩))
    rw [List.headD_eq_head?_getD, isFirst]
    rfl

/-! ## Checkpoints -/

/-- A call that leaves the reader where it stands. -/
theorem sysCall_stays
    (still : Still entries)
    {point : LogPoint}
    {effect : Entry → Reader → α × Reader}
    (stays : ∀ entry reader,
      (effect entry reader).2.standing = reader.standing)
    (draining : Draining start inode left reader) :
    Completes entries Succeeds stuck (sysCall point effect)
      (fun _ after => Draining start inode left after) reader :=
  completes_sysCall still fun entry _ => draining.congr (stays entry reader)

theorem writeCheckpoint_completes
    (still : Still entries)
    (draining : Draining start inode left reader) :
    Completes entries Succeeds stuck writeCheckpoint
      (fun _ after => Draining start inode left after) reader := by
  have pausing (point : LogPoint) (reader : Reader)
      (drained : Draining start inode left reader) :
      Completes entries Succeeds stuck (pause point)
        (fun _ after => Draining start inode left after) reader :=
    sysCall_stays still (fun _ _ => rfl) drained
  refine completes_seq ?_ fun rc after drained => completes_seq
    (pausing _ after drained) fun _ _ held => completes_pure held
  refine completes_bind (completes_get ?_)
  split
  · exact completes_pure draining
  · refine completes_bind (completes_modify (completes_bind (completes_get ?_)))
    have noted : Draining start inode left
        (reader.onSource LogfileSource.noteCheckpoint) := draining.congr rfl
    refine completes_seq (sysCall_stays still (fun entry reader => ?_) noted) ?_
    · split <;> rfl
    · intro opened after drained
      cases opened with
      | false => exact completes_pure drained
      | true =>
          refine completes_seq (sysCall_stays still (fun entry reader => ?_)
            drained) ?_
          · split <;> rfl
          · intro written last held
            cases written with
            | false => exact completes_pure held
            | true =>
                exact completes_seq (pausing _ last held)
                  fun _ _ kept => completes_pure kept

theorem checkpointIfDue_completes
    (still : Still entries)
    (draining : Draining start inode left reader) :
    Completes entries Succeeds stuck checkpointIfDue
      (fun _ after => Draining start inode left after) reader := by
  refine completes_seq (sysCall_stays still (fun _ _ => rfl) draining) ?_
  intro now after drained
  refine completes_bind (completes_get ?_)
  split
  · apply completes_seq (writeCheckpoint_completes still drained)
    intro rc later kept
    apply completes_seq (sysCall_stays still (fun _ _ => rfl) kept)
    exact fun now last held => completes_modify (held.congr rfl)
  · exact completes_pure drained

/-! ## Calls -/

theorem getNextLine_completes
    (still : Still entries)
    (draining : Draining start inode left reader) :
    Completes entries Succeeds stuck (getNextLine [])
      (fun result after => result = .ok (left.headD []).dropLast ∧
        Draining start inode left.tail after) reader := by
  apply completes_seq (fillLineBuf_completes still draining)
  rintro rc after ⟨rfl, drained, filled⟩
  apply completes_seq (takeLine_completes drained
    fun empty => (filled empty).1)
  rintro line state ⟨rfl, taken⟩
  apply completes_seq (checkpointIfDue_completes still taken)
  intro _ last held
  exact completes_bind (completes_modify (completes_pure
    ⟨rfl, held.congr rfl⟩))

/-- The event of the next line is returned, or nothing if none is left; but for a
line without one the call never returns. -/
theorem getNextEvent_completes
    (still : Still entries)
    (draining : Draining start inode left reader) :
    Completes entries Succeeds
      (fun _ _ => start.source.lineEvent (left.headD []) = none)
      (getNextEvent [])
      (fun result after => ∃ event, result = .ok event ∧
        start.source.lineEvent (left.headD []) = some event ∧
        Draining start inode left.tail after) reader := by
  apply completes_seq (getNextLine_completes still draining)
  rintro _ after ⟨rfl, drained⟩
  have same := lineEvent_congr drained.pcreHandle drained.pcreFields
    (left.headD [])
  dsimp only
  split
  next isEmpty =>
    exact completes_pure ⟨[], rfl, if_pos isEmpty, drained⟩
  next notEmpty =>
    rw [LogfileSource.lineEvent, if_neg notEmpty] at same
    refine completes_bind (completes_get ?_)
    rw [same]
    split
    next isNone => exact completes_halt isNone
    next event formatted => exact completes_pure ⟨event, rfl, formatted, drained⟩

theorem hasNextLine_completes
    (still : Still entries)
    (draining : Draining start inode left reader) :
    Completes entries Succeeds stuck hasNextLine
      (fun pending after => pending = !left.isEmpty ∧
        Draining start inode left after ∧
        (left = [] → AtEnd start inode after)) reader := by
  apply completes_seq (fillLineBuf_completes still draining)
  rintro rc after ⟨-, drained, filled⟩
  refine completes_bind (completes_get (completes_pure ?_))
  have empty : left = [] → after.source.lineBuf = [] := by
    rw [← drained.linesLeft, Reader.linesLeft, List.append_eq_nil_iff]
    exact And.left
  refine ⟨?_, drained, fun nothing => (filled (empty nothing)).2⟩
  have same : after.source.lineBuf.isEmpty = left.isEmpty := by
    rw [Bool.eq_iff_iff, List.isEmpty_iff, List.isEmpty_iff]
    exact ⟨fun isEmpty => (filled isEmpty).1, empty⟩
  rw [same]

/-! ## The events of lines -/

/-- A line that is not empty and, with a regular expression, matches. -/
def LogfileSource.yields (source : LogfileSource) (raw : Bytes) : Bool :=
  !raw.dropLast.isEmpty && match source.pcreHandle with
    | some pcre => decide (0 ≤ (pcre.exec raw.dropLast).rc)
    | none => true

/-- For other lines there is no event. -/
theorem isEmpty_lineEvent
    {source : LogfileSource}
    {raw event : Bytes}
    (known : source.lineEvent raw = some event) :
    event.isEmpty = !source.yields raw := by
  unfold LogfileSource.yields
  unfold LogfileSource.lineEvent at known
  by_cases isEmpty : raw.dropLast.isEmpty
  · rw [if_pos isEmpty] at known
    cases known
    rw [isEmpty]
    rfl
  · rw [if_neg isEmpty] at known
    have nonempty : raw.dropLast ≠ [] := by simpa using isEmpty
    rw [Bool.eq_false_of_not_eq_true isEmpty]
    cases handle : source.pcreHandle with
    | none =>
        have data := LogfileSource.formatEvent_ne_nil handle nonempty known
        simpa using data
    | some pcre =>
        rw [LogfileSource.formatEvent, handle] at known
        dsimp only at known ⊢
        split at known
        next matched =>
          obtain ⟨members, -, rfl⟩ := Option.map_eq_some_iff.mp known
          have closing : bytes "\x7d" = [0x7d] := by decide
          simp [matched, closing]
        next missed =>
          cases known
          simp [missed]

/-! ## The lines behind the consumed offset -/

/-- The buffered lines stand in the file at the path, behind the consumed
offset. -/
def Reader.InPlace (reader : Reader) (inode : UInt64) : Prop :=
  reader.source.lineBuf = [] ∨ reader.source.inode = inode ∧
    reader.source.lineBuf.flatten <+:
      (reader.disk.files inode).drop reader.source.consumedOffset.toNat

/-- Then the lines that are left are those of the file behind this offset. -/
theorem Reader.linesLeft_of_inPlace
    (placed : Placed reader.source)
    (inPlace : reader.InPlace inode) :
    reader.linesLeft inode = terminated 0x0a ((reader.disk.files inode).drop
      (reader.arrived inode).source.consumedOffset.toNat) := by
  by_cases empty : reader.source.lineBuf = []
  · have same := (placed.resetFor
      { inode := inode, size := reader.disk.size inode }).offset_of_empty
        (Reader.arrived_of_empty empty inode)
    rw [Reader.linesLeft, empty, List.nil_append, Reader.behind, Reader.position,
      Reader.arrived, Reader.onSource, ← same]
  · obtain ⟨here, more, split⟩ := inPlace.resolve_left empty
    obtain ⟨raw, rest, buffered⟩ := List.exists_cons_of_ne_nil empty
    obtain ⟨body, isRecord, -⟩ := placed.lines raw (by simp [buffered])
    have positive : 0 < reader.source.lineBuf.flatten.length := by
      simp [buffered, isRecord]
    have length := congrArg List.length split
    rw [List.length_append, List.length_drop] at length
    have bound := reader.disk.bounded inode
    have offset : reader.source.offset.toNat =
        reader.source.consumedOffset.toNat +
          reader.source.lineBuf.flatten.length := by
      rw [placed.offset, UInt64.toNat_add, UInt64.toNat_ofNat',
        Nat.add_mod_mod]
      exact Nat.mod_eq_of_lt (by omega)
    have same : reader.arrived inode = reader := by
      rw [Reader.arrived, Reader.onSource, LogfileSource.resetFor, if_neg]
      rw [not_or, not_not, UInt64.lt_iff_toNat_lt, Disk.toNat_size]
      exact ⟨here.symm, by omega⟩
    rw [same, Reader.linesLeft, Reader.behind, Reader.position, same, offset,
      ← List.drop_drop, ← split, List.drop_left,
      terminated_flatten_append placed.lines]

/-- As long as no file is cut down, and the reader has read what it follows, its
buffered lines stand in the file. -/
theorem Tracked.inPlace
    {origin : Origin}
    (tracked : Tracked origin reader)
    (whole : reader.disk.truncated = false)
    (path : reader.disk.path = some reader.source.inode) :
    reader.InPlace reader.source.inode := by
  exact .inr ⟨rfl, (tracked.follows whole (.inl path)).buffered⟩

end Logfile
end EvCollect
