import EvCollect.Logfile.Polling

/-!
# Every line of an append-only file is delivered once

A reader that starts at a line of a file, which stays at the path and is only
appended to, delivers the lines of the file from there on.
-/

namespace EvCollect
namespace Logfile

open Process Text

/-- The lines that `getNextLine` has returned, without their newlines. -/
def ReaderHistory.delivered (history : ReaderHistory) : List Bytes :=
  (history.taken.take history.returned).map fun line => line.raw.dropLast

/-- A reader with nothing behind it, wherever its source stands. -/
def Reader.begin (disk : Disk) (source : LogfileSource) : Reader :=
  { disk := disk
    source := source
    history := { base := (source.inode, source.offset) } }

/-- A source at a line of the file at the path, with nothing in its buffers. A
source that has not read anything is at the beginning of every file. -/
structure AtLine
    (disk : Disk)
    (source : LogfileSource)
    (inode : UInt64) : Prop where
  atPath : disk.path = some inode
  file : source.inode = inode ∨ (source.inode = 0 ∧ source.offset = 0)
  consumed : source.consumedOffset = source.offset
  boundary : Boundary 0x0a (disk.files inode) source.offset.toNat
  noLines : source.lineBuf = []
  buffered : source.bufLen ≤ source.buf.length

/-- The origin of a reader about whose checkpoint file nothing is known. -/
def originOf (disk : Disk) (source : LogfileSource) : Origin :=
  { first := none
    known := fun _ => True
    base := (source.inode, source.offset)
    path := disk.path }

variable {disk : Disk}
variable {source : LogfileSource}
variable {inode : UInt64}

/-- A source at a line satisfies the invariant. -/
theorem AtLine.tracked (atLine : AtLine disk source inode) :
    Tracked (originOf disk source) (Reader.begin disk source) := by
  have seen : ∀ other, Seen source
      { base := (source.inode, source.offset) } other →
        other = source.inode := by
    rintro other (here | atBase | ⟨line, present, _⟩)
    · exact here
    · exact atBase
    · cases present
  have used : source.inode ∈ disk.used := by
    rcases atLine.file with here | ⟨fresh, _⟩
    · exact here ▸ disk.path_used _ atLine.atPath
    · exact fresh ▸ disk.zero_used
  have inside : ∀ other,
      ReaderHistory.start { base := (source.inode, source.offset) } other ≤
        (disk.files other).length := by
    intro other
    rw [ReaderHistory.start]
    split
    next atBase =>
      rcases atLine.file with here | ⟨_, zero⟩
      · rw [atBase, here]
        exact atLine.boundary.1
      · rw [zero]
        exact Nat.zero_le _
    next => exact Nat.zero_le _
  refine
    { buffered := atLine.buffered
      lines := by simp [Reader.begin, atLine.noLines]
      takenLines := by simp [Reader.begin]
      used := fun other visited => seen other visited ▸ used
      current := fun other _ visited => (seen other visited).symm
      follows := ?_
      passed := ?_
      path_eq := fun _ => rfl
      steady := fun _ => ⟨by simp [Reader.begin],
        fun _ => ⟨atLine.noLines, rfl, rfl, atLine.consumed⟩⟩
      base_eq := rfl
      genuine := by simp [originOf]
      base := by simp [originOf]
      savedUsed := by simp [originOf]
      checkpoint := by simp [originOf] }
  · intro _ _
    change Cursor (disk.files source.inode)
      (ReaderHistory.start { base := (source.inode, source.offset) }
        source.inode) (linesOf source.inode []) source.lineBuf
      source.consumedOffset.toNat source.offset.toNat
    have atStart : source.offset.toNat =
        ReaderHistory.start { base := (source.inode, source.offset) }
          source.inode := (if_pos rfl).symm
    rw [atLine.noLines, atLine.consumed, atStart]
    exact begin_of_nothing rfl (inside _)
  · exact fun _ other _ => ⟨_, begin_of_nothing rfl (inside other)⟩

variable {ops : List Op}
variable {point : LogPoint}
variable {reader : Reader}

/-- If all lines were taken from one file, they are the lines of that file. -/
theorem linesOf_of_all
    {taken : List Taken}
    (all : ∀ line ∈ taken, inode = line.inode) :
    linesOf inode taken = taken.map Taken.raw := by
  rw [linesOf, List.filter_eq_self.mpr]
  intro line present
  simpa using (all line present).symm

/-- The reader is a cursor in the file from the start on. -/
theorem Tracked.cursor
    (atLine : AtLine disk source inode)
    (tracked : Tracked (originOf disk source) reader)
    (kept : reader.disk.replaced = false)
    (appended : reader.disk.truncated = false) :
    Cursor (reader.disk.files inode) source.offset.toNat
      (reader.history.taken.map Taken.raw) reader.source.lineBuf
      reader.source.consumedOffset.toNat reader.source.offset.toNat := by
  have atPath : reader.disk.path = some inode :=
    (tracked.path_eq kept).trans atLine.atPath
  obtain ⟨here, idle⟩ := tracked.steady kept
  have all : ∀ line ∈ reader.history.taken, inode = line.inode :=
    fun line present => Option.some.inj (atPath.symm.trans (here line present))
  by_cases arrived : reader.source.inode = inode
  · have cursor := tracked.follows appended (Or.inl (arrived ▸ atPath))
    unfold Follows at cursor
    rw [arrived, linesOf_of_all all] at cursor
    have start : reader.history.start inode = source.offset.toNat := by
      rw [ReaderHistory.start, tracked.base_eq]
      rcases atLine.file with same | ⟨fresh, zero⟩
      · exact if_pos same.symm
      · rw [originOf, zero]
        split <;> rfl
    rwa [start] at cursor
  · have elsewhere : reader.disk.path ≠ some reader.source.inode :=
      fun current => arrived (Option.some.inj (current.symm.trans atPath))
    obtain ⟨noLines, nothing, offset, consumed⟩ := idle elsewhere
    have zero : source.offset = 0 := by
      rcases atLine.file with same | ⟨_, zero⟩
      · refine absurd (tracked.current inode atPath (Or.inr (Or.inl ?_))) arrived
        rw [tracked.base_eq]
        exact same.symm
      · exact zero
    rw [noLines, nothing, offset, consumed, tracked.base_eq]
    exact Cursor.begin (by simp [zero])

/-- In every state that a reader can reach, the file from the start on is the
lines taken, the lines buffered and a rest, the two offsets are at the two
boundaries, and what has been delivered are the first lines of the file from the
start on. Behind any calls, the next one returns the line it takes. -/
theorem delivers_lines
    (atLine : AtLine disk source inode)
    (reached : Reaches (runOps ops) (Reader.begin disk source) point reader)
    (kept : reader.disk.replaced = false)
    (appended : reader.disk.truncated = false) :
    reader.disk.files inode =
        (reader.disk.files inode).take source.offset.toNat ++
          (reader.history.taken.map Taken.raw).flatten ++
          reader.source.lineBuf.flatten ++
          (reader.disk.files inode).drop reader.source.offset.toNat ∧
      reader.source.consumedOffset.toNat = source.offset.toNat +
        (reader.history.taken.map Taken.raw).flatten.length ∧
      reader.source.offset.toNat = reader.source.consumedOffset.toNat +
        reader.source.lineBuf.flatten.length ∧
      (∀ raw ∈ reader.history.taken.map Taken.raw ++ reader.source.lineBuf,
        IsRecord 0x0a raw) ∧
      reader.history.delivered <+:
        records 0x0a
          ((reader.disk.files inode).drop source.offset.toNat) ∧
      ∀ before, Ends (runOps ops) (Reader.begin disk source) () before →
        before.Returning := by
  have tracked : Tracked (originOf disk source) reader :=
    (runOps_tracked atLine.tracked ops).reaches reached
  have cursor := tracked.cursor atLine kept appended
  have areRecords : ∀ raw ∈
      reader.history.taken.map Taken.raw ++ reader.source.lineBuf,
        IsRecord 0x0a raw := by
    intro raw present
    rcases List.mem_append.mp present with taken | buffered
    · obtain ⟨line, member, rfl⟩ := List.mem_map.mp taken
      exact tracked.takenLines line member
    · exact tracked.lines raw buffered
  refine ⟨cursor.split, cursor.consumed_eq, cursor.offset_eq, areRecords, ?_,
    fun before ran => ?_⟩
  · refine List.IsPrefix.trans ?_ (cursor.isPrefix_records areRecords)
    rw [ReaderHistory.delivered, List.map_append, List.map_map]
    exact ((List.take_prefix _ _).map _).trans (List.prefix_append _ _)
  · have fresh : (Reader.begin disk source).Settled := ⟨rfl, le_refl _⟩
    exact ((runOps_settled fresh ops).ends ran).returning

/-- A disk with a log file of the given contents and no checkpoint. -/
def oneFile (contents : Bytes) (fits : contents.length < 2 ^ 63) : Disk where
  files := Function.update (fun _ => []) 1 contents
  path := some 1
  used := [1, 0]
  checkpoint := none
  bounded := by
    intro inode
    by_cases same : inode = 1
    · subst same
      simpa using fits
    · simp [same]
  zero_used := by simp
  path_used := by simp

/-- A source for that file that has not read anything. -/
def freshSource : LogfileSource :=
  LogfileSource.create id (bytes "log") (bytes "spool")

/-- A line arrives in two parts, is read in the second call, and has been
returned before the third. -/
def twoParts : List Entry :=
  List.replicate 9 ({} : Entry) ++
    [{ writers := [.append 1 (bytes "b\n")] }] ++
    List.replicate 14 ({} : Entry)

/-- A reader at the beginning of a file that holds the first part. -/
def halfLine : Reader :=
  Reader.begin (oneFile (bytes "a") (by decide)) freshSource

def twoPartsOps : List Op :=
  [.hasNextLine, .getNextLine, .hasNextLine]

theorem delivers_lines_twoParts :
    ∃ reader : Reader,
      Reaches (runOps twoPartsOps) halfLine .between reader ∧
        reader.history.delivered = [bytes "ab"] ∧
        reader.history.delivered <+:
          records 0x0a (reader.disk.files 1) := by
  have atLine : AtLine (oneFile (bytes "a") (by decide)) freshSource 1 :=
    { atPath := rfl
      file := Or.inr ⟨rfl, rfl⟩
      consumed := rfl
      boundary := ⟨Nat.zero_le _, Or.inl rfl⟩
      noLines := rfl
      buffered := le_refl _ }
  have reached : Reaches (runOps twoPartsOps) halfLine .between _ :=
    reaches_of_point (runOps twoPartsOps) halfLine twoParts (by decide)
  have delivered := delivers_lines atLine reached (by decide) (by decide)
  exact ⟨_, reached, by decide, delivered.2.2.2.2.1⟩

end Logfile
end EvCollect
