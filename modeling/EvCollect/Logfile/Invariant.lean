import EvCollect.Logfile.Reader
import EvCollect.Process.Preserve
import EvCollect.Text.Cursor

/-!
# Where a log reader stands in its file

As long as files are only appended to, and what the reader reads as a file is
from that file, it is a cursor in the file: the bytes from the position at which
it started are the lines it has taken, the lines in its buffer and a rest. What
is in the checkpoint file is the end of some of these lines, too.
-/

namespace EvCollect
namespace Logfile

open Process Text

/-- The lines taken from a file, newlines included. -/
def linesOf (inode : UInt64) (taken : List Taken) : List Bytes :=
  (taken.filter fun line => line.inode == inode).map Taken.raw

/-- The offset from which the reader reads a file. -/
def ReaderHistory.start (history : ReaderHistory) (inode : UInt64) : Nat :=
  if inode = history.base.1 then history.base.2.toNat else 0

/-- The bytes in the read buffer that have not been looked at. -/
def LogfileSource.unread (source : LogfileSource) : Bytes :=
  (source.buf.take source.bufLen).drop source.bufPos

/-- The position that a fresh source restores from the checkpoint file. -/
def Disk.saved (disk : Disk) : UInt64 × UInt64 :=
  LogfileSource.decodeCheckpoint ((disk.checkpoint.getD []).take 16)

@[simp] theorem linesOf_nil (inode : UInt64) : linesOf inode [] = [] := rfl

theorem linesOf_append
    (inode : UInt64)
    (first second : List Taken) :
    linesOf inode (first ++ second) =
      linesOf inode first ++ linesOf inode second := by
  simp [linesOf]

/-- The lines taken up to some point, and the others. -/
theorem linesOf_split
    (inode : UInt64)
    (taken : List Taken)
    (count : Nat) :
    linesOf inode taken =
      linesOf inode (taken.take count) ++ linesOf inode (taken.drop count) := by
  rw [← linesOf_append, List.take_append_drop]

@[simp] theorem linesOf_singleton_self (inode : UInt64) (raw : Bytes) :
    linesOf inode [{ inode := inode, raw := raw }] = [raw] := by
  simp [linesOf]

theorem mem_linesOf
    {inode : UInt64}
    {taken : List Taken}
    {raw : Bytes}
    (present : raw ∈ linesOf inode taken) :
    ∃ line ∈ taken, line.raw = raw := by
  obtain ⟨line, member, rfl⟩ := List.mem_map.mp present
  exact ⟨line, (List.mem_filter.mp member).1, rfl⟩

/-- Nothing has been taken from a file that does not occur. -/
theorem linesOf_eq_nil
    {inode : UInt64}
    {taken : List Taken}
    (absent : ∀ line ∈ taken, inode ≠ line.inode) :
    linesOf inode taken = [] := by
  rw [linesOf, List.map_eq_nil_iff, List.filter_eq_nil_iff]
  intro line present
  simpa using (absent line present).symm

/-! ## The invariant -/

/-- The reader is a cursor in a file. -/
def Follows
    (disk : Disk)
    (source : LogfileSource)
    (history : ReaderHistory)
    (inode : UInt64) : Prop :=
  Cursor (disk.files inode) (history.start inode)
    (linesOf inode history.taken) source.lineBuf
    source.consumedOffset.toNat source.offset.toNat

/-- The lines taken from a file are lines of it, one after the other. -/
def Passed
    (disk : Disk)
    (history : ReaderHistory)
    (inode : UInt64) : Prop :=
  ∃ position, Cursor (disk.files inode) (history.start inode)
    (linesOf inode history.taken) [] position position

/-- The reader has been at a file. -/
def Seen
    (source : LogfileSource)
    (history : ReaderHistory)
    (inode : UInt64) : Prop :=
  inode = source.inode ∨ inode = history.base.1 ∨
    ∃ line ∈ history.taken, inode = line.inode

/-- An offset is at the end of the lines that were taken from a file before a
checkpoint was last written. They have been returned, unless that was too
early. -/
def Covered
    (history : ReaderHistory)
    (inode : UInt64)
    (offset : Nat) : Prop :=
  history.written ≤ history.taken.length ∧
    offset = history.start inode +
      (linesOf inode (history.taken.take history.written)).flatten.length ∧
    (history.written ≤ history.returned ∨ history.returned ∈ history.early)

/-- A position is a boundary of its file, and something is known about the text
before it, if what was read as that file is from that file. -/
def Genuine
    (disk : Disk)
    (position : UInt64 × UInt64)
    (known : Bytes → Prop) : Prop :=
  position.1 ∈ disk.used ∧
    (disk.truncated = false → disk.Trusts position.1 →
      Boundary 0x0a (disk.files position.1) position.2.toNat ∧
        known ((disk.files position.1).take position.2.toNat))

/-- The reader has not read anything yet. -/
def Idle (source : LogfileSource) (history : ReaderHistory) : Prop :=
  source.lineBuf = [] ∧ history.taken = [] ∧
    source.offset = history.base.2 ∧ source.consumedOffset = history.base.2

/-- As long as the file at the path is not replaced, the reader has read
nothing, or it has read that file only. -/
def Steady
    (path : Option UInt64)
    (source : LogfileSource)
    (history : ReaderHistory) : Prop :=
  (∀ line ∈ history.taken, path = some line.inode) ∧
    (path ≠ some source.inode → Idle source history)

/-- Where a reader comes from: the position that was in the checkpoint file
when it started and what is known about the text before it, if anything is, the
position from which it started, and the inode that was at the path. -/
structure Origin where
  first : Option (UInt64 × UInt64)
  known : Bytes → Prop
  base : UInt64 × UInt64
  path : Option UInt64

/-- The invariant of a reader. -/
structure Tracked (origin : Origin) (reader : Reader) : Prop where
  buffered : reader.source.bufLen ≤ reader.source.buf.length
  lines : ∀ raw ∈ reader.source.lineBuf, IsRecord 0x0a raw
  takenLines : ∀ line ∈ reader.history.taken, IsRecord 0x0a line.raw
  used : ∀ inode, Seen reader.source reader.history inode →
    inode ∈ reader.disk.used
  current : ∀ inode, reader.disk.path = some inode →
    Seen reader.source reader.history inode → reader.source.inode = inode
  follows : reader.disk.truncated = false →
    reader.disk.Trusts reader.source.inode →
    Follows reader.disk reader.source reader.history reader.source.inode
  passed : reader.disk.truncated = false → ∀ inode, reader.disk.Trusts inode →
    Passed reader.disk reader.history inode
  path_eq : reader.disk.replaced = false → reader.disk.path = origin.path
  steady : reader.disk.replaced = false →
    Steady reader.disk.path reader.source reader.history
  base_eq : reader.history.base = origin.base
  genuine : ∀ position ∈ origin.first,
    Genuine reader.disk position origin.known
  base : ∀ position ∈ origin.first,
    origin.base = position ∨ origin.base = (0, 0)
  savedUsed : ∀ position ∈ origin.first, reader.disk.saved.1 ∈ reader.disk.used
  checkpoint : ∀ position ∈ origin.first, reader.disk.truncated = false →
    reader.disk.Trusts reader.disk.saved.1 →
    reader.disk.saved = position ∨ reader.disk.saved.2 = 0 ∨
      Covered reader.history reader.disk.saved.1 reader.disk.saved.2.toNat

/-- The reader is at the file at the path, unless that has been replaced. -/
def Arrived (reader : Reader) : Prop :=
  reader.disk.replaced = false →
    reader.disk.path = some reader.source.inode

/-- While a line is read: the line so far and the read buffer are what the
descriptor has passed in the file since the last line. -/
structure Streams (line : Bytes) (reader : Reader) : Prop where
  arrived : Arrived reader
  position : reader.disk.truncated = false →
    reader.disk.Trusts reader.source.inode →
    ∃ descriptor, reader.descriptor = some descriptor ∧
      descriptor.inode = reader.source.inode ∧
      descriptor.position ≤
        (reader.disk.files reader.source.inode).length ∧
      (reader.disk.files reader.source.inode).take descriptor.position =
        (reader.disk.files reader.source.inode).take
          reader.source.offset.toNat ++ line ++ reader.source.unread

/-! ## Other processes -/

variable {origin : Origin}
variable {reader : Reader}

theorem Genuine.grows
    {before after : Disk}
    {position : UInt64 × UInt64}
    {known : Bytes → Prop}
    (genuine : Genuine before position known)
    (grows : before.Grows after) :
    Genuine after position known := by
  refine ⟨grows.used _ genuine.1, ?_⟩
  intro whole trusted
  obtain ⟨more, equal⟩ := grows.files whole _ genuine.1
  obtain ⟨boundary, holds⟩ := genuine.2 (grows.truncated whole)
    (grows.trusts genuine.1 trusted)
  rw [← equal, List.take_append_of_le_length boundary.1]
  exact ⟨boundary.append more, holds⟩

/-- A file that the reader has not been at is read from its beginning. -/
theorem Follows.fresh
    {disk : Disk}
    {source : LogfileSource}
    {history : ReaderHistory}
    {inode : UInt64}
    (unseen : ¬Seen source history inode) :
    Cursor (disk.files inode) (history.start inode)
      (linesOf inode history.taken) [] 0 0 := by
  have notBase : inode ≠ history.base.1 := fun equal =>
    unseen (Or.inr (Or.inl equal))
  have nothing : linesOf inode history.taken = [] :=
    linesOf_eq_nil fun line member equal =>
      unseen (Or.inr (Or.inr ⟨line, member, equal⟩))
  rw [ReaderHistory.start, if_neg notBase, nothing]
  exact Cursor.begin (Nat.zero_le _)

/-- If a file that the reader has been at is at the path, it was there
before. -/
theorem Tracked.path_of_grows
    {after : Disk}
    (tracked : Tracked origin reader)
    (grows : reader.disk.Grows after)
    {inode : UInt64}
    (seen : Seen reader.source reader.history inode)
    (current : after.path = some inode) :
    reader.disk.path = some inode := by
  rcases grows.path inode current with old | fresh
  · exact old
  · exact absurd (tracked.used inode seen) fresh

/-- Whatever other processes do to the disk, the invariant holds. -/
theorem Tracked.grows
    {after : Disk}
    (tracked : Tracked origin reader)
    (grows : reader.disk.Grows after) :
    Tracked origin { reader with disk := after } := by
  have sameSaved : after.saved = reader.disk.saved := by
    rw [Disk.saved, Disk.saved, grows.checkpoint]
  refine
    { buffered := tracked.buffered
      lines := tracked.lines
      takenLines := tracked.takenLines
      used := fun inode seen => grows.used inode (tracked.used inode seen)
      current := ?_
      follows := ?_
      passed := ?_
      path_eq := fun kept =>
        (grows.replaced kept).2.trans
          (tracked.path_eq (grows.replaced kept).1)
      steady := ?_
      base_eq := tracked.base_eq
      genuine := fun position known =>
        (tracked.genuine position known).grows grows
      base := tracked.base
      savedUsed := ?_
      checkpoint := ?_ }
  · intro inode current seen
    exact tracked.current inode (tracked.path_of_grows grows seen current) seen
  · intro whole trusted
    have here := tracked.used _ (Or.inl rfl)
    exact (tracked.follows (grows.truncated whole)
      (grows.trusts here trusted)).append (grows.files whole _ here)
  · intro whole inode trusted
    by_cases member : inode ∈ reader.disk.used
    · obtain ⟨position, cursor⟩ := tracked.passed (grows.truncated whole) inode
        (grows.trusts member trusted)
      exact ⟨position, cursor.append (grows.files whole inode member)⟩
    · exact ⟨0, Follows.fresh fun seen => member (tracked.used inode seen)⟩
  · intro kept
    have before := grows.replaced kept
    rw [before.2]
    exact tracked.steady before.1
  · intro position known
    rw [sameSaved]
    exact grows.used _ (tracked.savedUsed position known)
  · intro position known whole trusted
    rw [sameSaved] at trusted ⊢
    exact tracked.checkpoint position known (grows.truncated whole)
      (grows.trusts (tracked.savedUsed position known) trusted)

theorem Arrived.grows
    {after : Disk}
    (arrived : Arrived reader)
    (grows : reader.disk.Grows after) :
    Arrived { reader with disk := after } := by
  intro kept
  have before := grows.replaced kept
  exact before.2.trans (arrived before.1)

theorem Streams.grows
    {line : Bytes}
    {after : Disk}
    (streams : Streams line reader)
    (tracked : Tracked origin reader)
    (grows : reader.disk.Grows after) :
    Streams line { reader with disk := after } := by
  refine ⟨streams.arrived.grows grows, ?_⟩
  intro whole trusted
  have here := tracked.used _ (Or.inl rfl)
  have old := grows.trusts here trusted
  obtain ⟨more, equal⟩ := grows.files whole _ here
  obtain ⟨descriptor, isOpen, same, inside, content⟩ :=
    streams.position (grows.truncated whole) old
  have offsetInside :=
    (tracked.follows (grows.truncated whole) old).inside
  refine ⟨descriptor, isOpen, same, ?_, ?_⟩
  · rw [← equal]
    exact inside.trans (by simp)
  · rw [← equal, List.take_append_of_le_length inside, content,
      List.take_append_of_le_length offsetInside]

theorem Tracked.react
    (tracked : Tracked origin reader)
    (entry : Entry) :
    Tracked origin (World.react entry reader) :=
  tracked.grows (Disk.grows_react entry reader.disk)

theorem Arrived.react
    (arrived : Arrived reader)
    (entry : Entry) :
    Arrived (World.react entry reader) :=
  arrived.grows (Disk.grows_react entry reader.disk)

theorem Streams.react
    {line : Bytes}
    (streams : Streams line reader)
    (tracked : Tracked origin reader)
    (entry : Entry) :
    Streams line (World.react entry reader) :=
  streams.grows tracked (Disk.grows_react entry reader.disk)

/-! ## Steps of the reader -/

/-- A file that is new, or that has been cut down, is not the one that the
reader follows. -/
theorem Tracked.moved
    (tracked : Tracked origin reader)
    {inode : UInt64}
    (current : reader.disk.path = some inode)
    (reset : inode ≠ reader.source.inode ∨
      reader.disk.size inode < reader.source.offset)
    (whole : reader.disk.truncated = false) :
    ¬Seen reader.source reader.history inode := by
  intro seen
  have same := tracked.current inode current seen
  rcases reset with different | short
  · exact different same.symm
  · have inside := (tracked.follows whole (Or.inl (same ▸ current))).inside
    rw [UInt64.lt_iff_toNat_lt, Disk.toNat_size, ← same] at short
    omega

/-- A `stat` moves the reader to the file at the path. -/
theorem Tracked.resetFor
    (tracked : Tracked origin reader)
    {inode : UInt64}
    (current : reader.disk.path = some inode) :
    Tracked origin (reader.onSource (LogfileSource.resetFor
      { inode := inode, size := reader.disk.size inode })) := by
  unfold Reader.onSource LogfileSource.resetFor
  split
  next reset =>
    have unseen := tracked.moved current reset
    refine
      { buffered := tracked.buffered
        lines := by simp
        takenLines := tracked.takenLines
        used := ?_
        current := ?_
        follows := ?_
        passed := tracked.passed
        path_eq := tracked.path_eq
        steady := ?_
        base_eq := tracked.base_eq
        genuine := tracked.genuine
        base := tracked.base
        savedUsed := tracked.savedUsed
        checkpoint := tracked.checkpoint }
    · rintro other (rfl | old)
      · exact reader.disk.path_used _ current
      · exact tracked.used other (Or.inr old)
    · intro other atPath _
      exact Option.some.inj (current.symm.trans atPath)
    · intro whole _
      exact Follows.fresh (unseen whole)
    · intro kept
      exact ⟨(tracked.steady kept).1,
        fun elsewhere => absurd current elsewhere⟩
  next => exact tracked

/-- The bytes that the descriptor has passed end the line that is read. -/
theorem Streams.fits
    {line : Bytes}
    (streams : Streams line reader)
    (tracked : Tracked origin reader)
    (whole : reader.disk.truncated = false)
    (trusted : reader.disk.Trusts reader.source.inode) :
    (reader.source.offset + UInt64.ofNat line.length).toNat =
      reader.source.offset.toNat + line.length := by
  obtain ⟨descriptor, _, _, inside, content⟩ := streams.position whole trusted
  have lengths := congrArg List.length content
  have offsetInside := (tracked.follows whole trusted).inside
  have bound := reader.disk.bounded reader.source.inode
  simp only [List.length_append, List.length_take] at lengths
  rw [UInt64.toNat_add, UInt64.toNat_ofNat']
  omega

/-- A complete line is put into the line buffer. -/
theorem Tracked.pushLine
    {raw : Bytes}
    (tracked : Tracked origin reader)
    (streams : Streams raw reader)
    (isRecord : IsRecord 0x0a raw) :
    Tracked origin (reader.onSource (LogfileSource.pushLine raw)) := by
  refine
    { buffered := tracked.buffered
      lines := ?_
      takenLines := tracked.takenLines
      used := tracked.used
      current := tracked.current
      follows := ?_
      passed := tracked.passed
      path_eq := tracked.path_eq
      steady := fun kept => ⟨(tracked.steady kept).1,
        fun elsewhere => absurd (streams.arrived kept) elsewhere⟩
      base_eq := tracked.base_eq
      genuine := tracked.genuine
      base := tracked.base
      savedUsed := tracked.savedUsed
      checkpoint := tracked.checkpoint }
  · intro other present
    rcases List.mem_append.mp present with old | new
    · exact tracked.lines other old
    · exact List.mem_singleton.mp new ▸ isRecord
  · intro whole trusted
    obtain ⟨descriptor, _, _, inside, content⟩ := streams.position whole trusted
    have cursor := (tracked.follows whole trusted).push inside content
    rw [← streams.fits tracked whole trusted] at cursor
    exact cursor

/-- Behind a complete line the next one begins. -/
theorem Streams.pushLine
    {raw : Bytes}
    (streams : Streams raw reader)
    (tracked : Tracked origin reader) :
    Streams [] (reader.onSource (LogfileSource.pushLine raw)) := by
  refine ⟨streams.arrived, ?_⟩
  intro whole trusted
  obtain ⟨descriptor, isOpen, same, inside, content⟩ :=
    streams.position whole trusted
  have fits := streams.fits tracked whole trusted
  have pushed := ((tracked.follows whole trusted).push inside content).content
  have before := (tracked.follows whole trusted).content
  refine ⟨descriptor, isOpen, same, inside, ?_⟩
  have offset : (reader.source.pushLine raw).offset.toNat =
      reader.source.offset.toNat + raw.length := fits
  change (reader.disk.files reader.source.inode).take descriptor.position =
    (reader.disk.files reader.source.inode).take
      (reader.source.pushLine raw).offset.toNat ++ [] ++ reader.source.unread
  rw [offset, pushed, content, before]
  simp

/-- Taking a line out of the buffer visits no other file. -/
theorem Seen.of_popLine
    {raw : Bytes}
    {inode : UInt64}
    (seen : Seen (popLine raw reader).source (popLine raw reader).history
      inode) :
    Seen reader.source reader.history inode := by
  rcases seen with here | atBase | ⟨line, present, equal⟩
  · exact Or.inl here
  · exact Or.inr (Or.inl atBase)
  · rcases List.mem_append.mp present with old | new
    · exact Or.inr (Or.inr ⟨line, old, equal⟩)
    · obtain rfl := List.mem_singleton.mp new
      exact Or.inl equal

/-- Lines that are taken later do not move a checkpoint. -/
theorem Covered.popLine
    {raw : Bytes}
    {inode : UInt64}
    {offset : Nat}
    (covered : Covered reader.history inode offset) :
    Covered (popLine raw reader).history inode offset := by
  obtain ⟨bound, equal, returned⟩ := covered
  refine ⟨?_, ?_, returned⟩
  · simp only [Logfile.popLine, List.length_append]
    omega
  · simp only [Logfile.popLine]
    rw [List.take_append_of_le_length bound]
    exact equal

/-- The cursor moves over a line that is taken out of the line buffer. -/
theorem Follows.popLine
    {raw : Bytes}
    {rest : List Bytes}
    (follows : Follows reader.disk reader.source reader.history
      reader.source.inode)
    (split : reader.source.lineBuf = raw :: rest) :
    Follows reader.disk (popLine raw reader).source (popLine raw reader).history
      reader.source.inode := by
  have tail : (reader.source.popLine raw).lineBuf = rest := by
    simp [LogfileSource.popLine, split]
  unfold Follows at follows
  rw [split] at follows
  have popped := follows.pop
  have bound := reader.disk.bounded reader.source.inode
  have inside := popped.inside
  have before := popped.consumed_le
  have fits : (reader.source.popLine raw).consumedOffset.toNat =
      reader.source.consumedOffset.toNat + raw.length := by
    simp only [LogfileSource.popLine, UInt64.toNat_add, UInt64.toNat_ofNat']
    omega
  have lines : linesOf reader.source.inode
      (Logfile.popLine raw reader).history.taken =
        linesOf reader.source.inode reader.history.taken ++ [raw] := by
    simp only [Logfile.popLine, linesOf_append, linesOf_singleton_self]
  change Cursor (reader.disk.files reader.source.inode)
    (reader.history.start reader.source.inode)
    (linesOf reader.source.inode (Logfile.popLine raw reader).history.taken)
    (reader.source.popLine raw).lineBuf
    (reader.source.popLine raw).consumedOffset.toNat
    reader.source.offset.toNat
  rw [lines, tail, fits]
  exact popped

/-- A line is taken out of the line buffer. -/
theorem Tracked.popLine
    {raw : Bytes}
    {rest : List Bytes}
    (tracked : Tracked origin reader)
    (split : reader.source.lineBuf = raw :: rest) :
    Tracked origin (popLine raw reader) := by
  refine
    { buffered := tracked.buffered
      lines := ?_
      takenLines := ?_
      used := fun inode seen => tracked.used inode seen.of_popLine
      current := fun inode current seen =>
        tracked.current inode current seen.of_popLine
      follows := ?_
      passed := ?_
      path_eq := tracked.path_eq
      steady := ?_
      base_eq := tracked.base_eq
      genuine := tracked.genuine
      base := tracked.base
      savedUsed := tracked.savedUsed
      checkpoint := ?_ }
  · intro other present
    exact tracked.lines other (List.mem_of_mem_tail present)
  · intro line present
    rcases List.mem_append.mp present with old | new
    · exact tracked.takenLines line old
    · obtain rfl := List.mem_singleton.mp new
      exact tracked.lines raw (by simp [split])
  · exact fun whole trusted => (tracked.follows whole trusted).popLine split
  · intro whole inode trusted
    by_cases here : inode = reader.source.inode
    · subst here
      exact ⟨_, ((tracked.follows whole trusted).popLine split).unbuffered⟩
    · have same : linesOf inode (Logfile.popLine raw reader).history.taken =
          linesOf inode reader.history.taken := by
        simp [Logfile.popLine, linesOf, Ne.symm here]
      unfold Passed
      rw [same]
      exact tracked.passed whole inode trusted
  · intro kept
    obtain ⟨here, idle⟩ := tracked.steady kept
    have arrived : reader.disk.path = some reader.source.inode := by
      by_contra elsewhere
      have nothing := (idle elsewhere).1
      rw [split] at nothing
      cases nothing
    refine ⟨?_, fun elsewhere => absurd arrived elsewhere⟩
    intro line present
    rcases List.mem_append.mp present with old | new
    · exact here line old
    · obtain rfl := List.mem_singleton.mp new
      exact arrived
  · intro position known whole trusted
    exact (tracked.checkpoint position known whole trusted).imp_right
      (Or.imp_right Covered.popLine)

/-- Of a reader the invariant reads the source, the disk, the lines taken and the
beginning, and the checkpoint on the disk only to say what it covers. -/
theorem Tracked.reread
    {after : Reader}
    {descriptor : Option Descriptor}
    {stored : Option Bytes}
    {returned written : Nat}
    {synced : Bool}
    {early : List Nat}
    (tracked : Tracked origin reader)
    (same : after =
      { reader with
        descriptor := descriptor
        disk := { reader.disk with checkpoint := stored }
        history :=
          { reader.history with
            returned := returned
            synced := synced
            early := early
            written := written } })
    (savedUsed : ∀ position ∈ origin.first,
      after.disk.saved.1 ∈ after.disk.used)
    (checkpoint : ∀ position ∈ origin.first, after.disk.truncated = false →
      after.disk.Trusts after.disk.saved.1 →
      after.disk.saved = position ∨ after.disk.saved.2 = 0 ∨
        Covered after.history after.disk.saved.1 after.disk.saved.2.toNat) :
    Tracked origin after := by
  subst same
  exact
    { buffered := tracked.buffered
      lines := tracked.lines
      takenLines := tracked.takenLines
      used := tracked.used
      current := tracked.current
      follows := tracked.follows
      passed := tracked.passed
      path_eq := tracked.path_eq
      steady := tracked.steady
      base_eq := tracked.base_eq
      genuine := tracked.genuine
      base := tracked.base
      savedUsed := savedUsed
      checkpoint := checkpoint }

/-- A call of `getNextLine` returns. -/
theorem Tracked.noteReturned
    (tracked : Tracked origin reader) :
    Tracked origin (noteReturned reader) := by
  refine tracked.reread rfl tracked.savedUsed ?_
  intro position known whole trusted
  rcases tracked.checkpoint position known whole trusted with
    same | zero | ⟨bound, equal, _⟩
  · exact Or.inl same
  · exact Or.inr (Or.inl zero)
  · exact Or.inr (Or.inr ⟨bound, equal, Or.inl bound⟩)

/-! ### The checkpoint file -/

/-- What does not reach the disk as a checkpoint is read back as none. -/
theorem saved_of_short
    {disk : Disk}
    {data : Bytes}
    (short : data.length < 16) :
    (disk.setCheckpoint data).saved = (0, 0) := by
  have cut : ((disk.setCheckpoint data).checkpoint.getD []).take 16 = data := by
    simp only [Disk.setCheckpoint, Option.getD_some]
    exact List.take_of_length_le short.le
  rw [Disk.saved, cut, LogfileSource.decodeCheckpoint, if_neg short.ne]

/-- A complete checkpoint is read back. -/
theorem saved_of_complete
    (disk : Disk)
    (inode offset : UInt64) :
    (disk.setCheckpoint
      (LogfileSource.encodeCheckpoint inode offset)).saved =
        (inode, offset) := by
  have cut : ((disk.setCheckpoint (LogfileSource.encodeCheckpoint inode
      offset)).checkpoint.getD []).take 16 =
        LogfileSource.encodeCheckpoint inode offset := by
    simp only [Disk.setCheckpoint, Option.getD_some]
    exact List.take_of_length_le (by simp)
  rw [Disk.saved, cut, LogfileSource.decodeCheckpoint_encodeCheckpoint]

/-- Changes to the checkpoint file and to the history of accesses to it keep
the invariant if they keep what is said about that file. -/
theorem Tracked.setCheckpoint
    {data : Bytes}
    {synced : Bool}
    (early : List Nat)
    (written : Nat)
    (tracked : Tracked origin reader)
    (savedUsed : (reader.disk.setCheckpoint data).saved.1 ∈ reader.disk.used)
    (checkpoint : reader.disk.truncated = false →
      reader.disk.Trusts (reader.disk.setCheckpoint data).saved.1 →
      (reader.disk.setCheckpoint data).saved.2 = 0 ∨
        Covered
          { reader.history with
            synced := synced, early := early, written := written }
          (reader.disk.setCheckpoint data).saved.1
          (reader.disk.setCheckpoint data).saved.2.toNat) :
    Tracked origin
      { reader with
        disk := reader.disk.setCheckpoint data
        history :=
          { reader.history with
            synced := synced, early := early, written := written } } :=
  tracked.reread rfl (fun _ _ => savedUsed) fun _ _ whole trusted =>
    Or.inr (checkpoint whole trusted)

/-- A checkpoint of which only a part is stored is harmless. -/
theorem Tracked.shortCheckpoint
    {data : Bytes}
    {synced : Bool}
    (tracked : Tracked origin reader)
    (short : data.length < 16) :
    Tracked origin
      { reader with
        disk := reader.disk.setCheckpoint data
        history := { reader.history with synced := synced } } := by
  refine tracked.setCheckpoint reader.history.early reader.history.written
    ?_ ?_
  · rw [saved_of_short short]
    exact reader.disk.zero_used
  · rw [saved_of_short short]
    exact fun _ _ => Or.inl rfl

/-- A complete checkpoint of the current position covers all lines taken. -/
theorem Tracked.completeCheckpoint
    (tracked : Tracked origin reader) :
    Tracked origin
      { reader with
        disk := reader.disk.setCheckpoint (LogfileSource.encodeCheckpoint
          reader.source.inode reader.source.consumedOffset)
        history := noteWritten reader.history } := by
  refine tracked.setCheckpoint _ _ ?_ ?_
  · rw [saved_of_complete]
    exact tracked.used _ (Or.inl rfl)
  · rw [saved_of_complete]
    intro whole trusted
    refine Or.inr ⟨le_refl _, ?_, ?_⟩
    · rw [List.take_length]
      exact (tracked.follows whole trusted).consumed_eq
    · by_cases inside : reader.history.returned < reader.history.taken.length
      · right
        simp [inside]
      · exact Or.inl (not_lt.mp inside)

/-- Whether accesses to the checkpoint file were complete does not matter
here. -/
theorem Tracked.setSynced
    {synced : Bool}
    (tracked : Tracked origin reader) :
    Tracked origin
      { reader with history := { reader.history with synced := synced } } :=
  tracked.reread rfl tracked.savedUsed tracked.checkpoint

/-- Nor does the descriptor. -/
theorem Tracked.setDescriptor
    {descriptor : Option Descriptor}
    (tracked : Tracked origin reader) :
    Tracked origin { reader with descriptor := descriptor } :=
  tracked.reread rfl tracked.savedUsed tracked.checkpoint

/-- Steps of the source that leave its position alone. -/
theorem Tracked.onSource
    {step : LogfileSource → LogfileSource}
    (tracked : Tracked origin reader)
    (buffered : (step reader.source).bufLen ≤ (step reader.source).buf.length)
    (inode : (step reader.source).inode = reader.source.inode)
    (lineBuf : (step reader.source).lineBuf = reader.source.lineBuf)
    (consumed : (step reader.source).consumedOffset =
      reader.source.consumedOffset)
    (offset : (step reader.source).offset = reader.source.offset) :
    Tracked origin (reader.onSource step) where
  buffered := buffered
  lines := by
    rw [Reader.onSource, lineBuf]
    exact tracked.lines
  takenLines := tracked.takenLines
  used := by
    unfold Seen
    rw [Reader.onSource, inode]
    exact tracked.used
  current := by
    unfold Seen
    rw [Reader.onSource, inode]
    exact tracked.current
  follows := by
    unfold Follows
    rw [Reader.onSource, inode, lineBuf, consumed, offset]
    exact tracked.follows
  passed := tracked.passed
  path_eq := tracked.path_eq
  steady := by
    unfold Steady Idle
    rw [Reader.onSource, inode, lineBuf, consumed, offset]
    exact tracked.steady
  base_eq := tracked.base_eq
  genuine := tracked.genuine
  base := tracked.base
  savedUsed := tracked.savedUsed
  checkpoint := tracked.checkpoint

/-! ### The start -/

/-- A reader that has not taken any line could stand at its start in every
file. -/
theorem begin_of_nothing
    {disk : Disk}
    {history : ReaderHistory}
    {inode : UInt64}
    (nothing : history.taken = [])
    (inside : history.start inode ≤ (disk.files inode).length) :
    Cursor (disk.files inode) (history.start inode)
      (linesOf inode history.taken) [] (history.start inode)
      (history.start inode) := by
  rw [nothing, linesOf_nil]
  exact Cursor.begin inside

/-- A source that starts from a position of the checkpoint file, or from none,
satisfies the invariant. -/
theorem tracked_startAt
    {source : LogfileSource}
    {disk : Disk}
    {descriptor : Option Descriptor}
    {history : ReaderHistory}
    {position : UInt64 × UInt64}
    {known : Bytes → Prop}
    (buffered : source.bufLen ≤ source.buf.length)
    (noLines : source.lineBuf = [])
    (nothing : history.taken = [])
    (genuine : Genuine disk disk.saved known)
    (start : position = disk.saved ∨ position = (0, 0)) :
    Tracked
      { first := some disk.saved
        known := known
        base := position
        path := disk.path }
      (startAt position
      { disk := disk
        source := source
        descriptor := descriptor
        history := history }) := by
  have seen : ∀ inode, Seen (source.restore position)
      { history with base := position } inode → inode = position.1 := by
    rintro inode (here | atBase | ⟨line, present, _⟩)
    · exact here
    · exact atBase
    · rw [nothing] at present
      cases present
  have used : position.1 ∈ disk.used := by
    rcases start with rfl | rfl
    · exact genuine.1
    · exact disk.zero_used
  have inside : disk.truncated = false → ∀ inode, disk.Trusts inode →
      ReaderHistory.start { history with base := position } inode ≤
        (disk.files inode).length := by
    intro whole inode trusted
    rw [ReaderHistory.start]
    split
    next atBase =>
      subst atBase
      rcases start with rfl | rfl
      · exact (genuine.2 whole trusted).1.1
      · exact Nat.zero_le _
    next => exact Nat.zero_le _
  refine
    { buffered := buffered
      lines := by simp [startAt, LogfileSource.restore, noLines]
      takenLines := by simp [startAt, nothing]
      used := fun inode visited => seen inode visited ▸ used
      current := fun inode _ visited => (seen inode visited).symm
      follows := ?_
      passed := ?_
      path_eq := fun _ => rfl
      steady := fun _ => ⟨by simp [startAt, nothing],
        fun _ => ⟨noLines, nothing, rfl, rfl⟩⟩
      base_eq := rfl
      genuine := ?_
      base := ?_
      savedUsed := ?_
      checkpoint := ?_ }
  · intro whole trusted
    change Cursor (disk.files position.1)
      (ReaderHistory.start { history with base := position } position.1)
      (linesOf position.1 history.taken) source.lineBuf
      position.2.toNat position.2.toNat
    have atStart : position.2.toNat =
        ReaderHistory.start { history with base := position } position.1 :=
      (if_pos rfl).symm
    rw [noLines, atStart]
    exact begin_of_nothing nothing (inside whole _ trusted)
  · exact fun whole inode trusted =>
      ⟨_, begin_of_nothing nothing (inside whole inode trusted)⟩
  · intro other known
    exact Option.mem_some.mp known ▸ genuine
  · intro other known
    exact Option.mem_some.mp known ▸ start
  · intro other known
    exact genuine.1
  · intro other known _ _
    exact Or.inl (Option.mem_some.mp known)

end Logfile
end EvCollect
