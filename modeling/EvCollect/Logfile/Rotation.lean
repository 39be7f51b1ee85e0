import EvCollect.Logfile.Recovery

/-!
# Log rotation

The file at the path is appended to, and replaced by a new file every now and
then. `readLines` asks for the file at the path twice: `stat` tells it which file
that is and how long, and `open` gets the bytes. If the path was replaced in
between, lines are read from one file at an offset of another one. Otherwise
every line that is delivered is a line of one file, and of each file none is
delivered twice.
-/

namespace EvCollect
namespace Logfile

open Process Text

/-- Every line that was delivered is a whole line of one of the files, which
begins where the file or a line of it begins, and no line of a file was delivered
twice. -/
def Reader.DeliversOnce (reader : Reader) : Prop :=
  ∃ place : Nat → UInt64 × Nat,
    (∀ index line, reader.history.delivered[index]? = some line →
      (place index).1 ∈ reader.disk.used ∧
        RecordAt 0x0a (reader.disk.files (place index).1) (place index).2
          (line ++ [0x0a])) ∧
    ∀ index other, index < other →
      other < reader.history.delivered.length → place index ≠ place other

/-- Where the line with this index was taken from. -/
def ReaderHistory.place (history : ReaderHistory) (index : Nat) : UInt64 × Nat :=
  match history.taken[index]? with
  | none => (0, 0)
  | some line => (line.inode, history.start line.inode +
      (linesOf line.inode (history.taken.take index)).flatten.length)

theorem place_of_taken
    {history : ReaderHistory}
    {index : Nat}
    {line : Taken}
    (found : history.taken[index]? = some line) :
    history.place index = (line.inode, history.start line.inode +
      (linesOf line.inode (history.taken.take index)).flatten.length) := by
  rw [ReaderHistory.place, found]

/-- The lines of a file around one of them. -/
theorem linesOf_around
    {taken : List Taken}
    {index : Nat}
    {line : Taken}
    (found : taken[index]? = some line) :
    linesOf line.inode taken = linesOf line.inode (taken.take index) ++
      line.raw :: linesOf line.inode (taken.drop (index + 1)) := by
  obtain ⟨inside, rfl⟩ := List.getElem?_eq_some_iff.mp found
  have first (line : Taken) (rest : List Taken) :
      linesOf line.inode (line :: rest) =
        line.raw :: linesOf line.inode rest := by
    simp [linesOf]
  rw [linesOf_split _ taken index, List.drop_eq_getElem_cons inside, first]

variable {reader : Reader}

/-- Two lines were not taken from the same place. -/
theorem place_injective
    {history : ReaderHistory}
    (lines : ∀ line ∈ history.taken, IsRecord 0x0a line.raw)
    {index other : Nat}
    (before : index < other)
    (inside : other < history.taken.length) :
    history.place index ≠ history.place other := by
  intro same
  have found := List.getElem?_eq_getElem (before.trans inside)
  have foundOther := List.getElem?_eq_getElem inside
  rw [place_of_taken found, place_of_taken foundOther, Prod.mk.injEq] at same
  obtain ⟨sameInode, samePlace⟩ := same
  have around : linesOf history.taken[index].inode (history.taken.take other) =
      _ := linesOf_around ((List.getElem?_take_of_lt before).trans found)
  rw [← sameInode, around, List.take_take, Nat.min_eq_left before.le,
    List.flatten_append, List.flatten_cons, List.length_append,
    List.length_append] at samePlace
  obtain ⟨body, isLine, -⟩ := lines _ (List.getElem_mem (before.trans inside))
  have positive := congrArg List.length isLine
  rw [List.length_append, List.length_singleton] at positive
  omega

/-- Where the reader has taken a line, there is one. -/
theorem Tracked.recordAt_place
    {origin : Origin}
    {index : Nat}
    {line : Taken}
    (tracked : Tracked origin reader)
    (whole : reader.disk.truncated = false)
    (trusted : reader.disk.Trusts line.inode)
    (boundary : Boundary 0x0a (reader.disk.files line.inode)
      (reader.history.start line.inode))
    (found : reader.history.taken[index]? = some line) :
    RecordAt 0x0a (reader.disk.files (reader.history.place index).1)
      (reader.history.place index).2 line.raw := by
  obtain ⟨_, cursor⟩ := tracked.passed whole _ trusted
  rw [place_of_taken found]
  refine cursor.recordAt (linesOf_around found) (fun raw present => ?_) boundary
  obtain ⟨other, member, rfl⟩ := mem_linesOf present
  exact tracked.takenLines other member

/-- What was delivered are the first lines taken, without their newlines. -/
theorem taken_of_delivered
    {history : ReaderHistory}
    (lines : ∀ line ∈ history.taken, IsRecord 0x0a line.raw)
    {index : Nat}
    {line : Bytes}
    (found : history.delivered[index]? = some line) :
    ∃ taken : Taken, history.taken[index]? = some taken ∧
      taken.raw = line ++ [0x0a] := by
  rw [ReaderHistory.delivered, List.getElem?_map, Option.map_eq_some_iff] at found
  obtain ⟨taken, present, rfl⟩ := found
  obtain ⟨more, early⟩ := List.take_prefix history.returned history.taken
  have isTaken : history.taken[index]? = some taken := by
    rw [← early]
    rw [List.getElem?_append_left (List.getElem?_eq_some_iff.mp present).1]
    exact present
  obtain ⟨body, isLine, -⟩ := lines taken (List.mem_of_getElem? isTaken)
  refine ⟨taken, isTaken, ?_⟩
  rw [isLine, List.dropLast_concat]

theorem Tracked.deliversOnce
    {disk : Disk}
    {position : UInt64 × UInt64}
    {returned : Lines}
    (tracked : Tracked (startOf disk position returned) reader)
    (whole : reader.disk.truncated = false)
    (straight : reader.disk.strayed = false) :
    reader.DeliversOnce := by
  refine ⟨reader.history.place, fun index line found => ?_,
    fun index other before inside => ?_⟩
  · obtain ⟨taken, present, isLine⟩ := taken_of_delivered tracked.takenLines found
    have trusted : reader.disk.Trusts taken.inode := Or.inr straight
    have here : (reader.history.place index).1 = taken.inode := by
      rw [place_of_taken present]
    refine ⟨tracked.used _ (Or.inr (Or.inr
      ⟨taken, List.mem_of_getElem? present, here⟩)), ?_⟩
    rw [← isLine]
    exact tracked.recordAt_place whole trusted
      (tracked.boundary_start whole trusted).1 present
  · refine place_injective tracked.takenLines before (inside.trans_le ?_)
    rw [ReaderHistory.delivered, List.length_map]
    exact (List.take_prefix _ _).length_le

variable {disk : Disk}
variable {source : LogfileSource}
variable {ops : List Op}
variable {point : LogPoint}

/-- Whatever is written to the files and put at the path between the calls of a
reader, if no `open` of the path gets another file than the `stat` before it,
the reader delivers lines of these files, and none of them twice. It starts from
the position in the checkpoint file, which is a line boundary, or from none. -/
theorem rotation_delivers_once
    (aligned : disk.Sound fun _ _ _ => True)
    (empty : source.Empty)
    (reached : Reaches (readerLife ops) { disk := disk, source := source } point
      reader)
    (appended : reader.disk.truncated = false)
    (straight : reader.disk.strayed = false) :
    reader.DeliversOnce := by
  rcases (readerLife_tracked aligned empty ops).reaches reached with
    ⟨nothing, -⟩ | ⟨start, position, tracked⟩
  · have none : reader.history.delivered = [] := by
      rw [ReaderHistory.delivered, nothing, List.take_nil]
      rfl
    refine ⟨fun _ => (0, 0), fun index line found => ?_, fun _ other _ inside => ?_⟩
    · rw [none] at found
      cases found
    · rw [none] at inside
      exact absurd inside (Nat.not_lt_zero _)
  · exact tracked.deliversOnce appended straight

/-! ## Two rotations -/

theorem oneLine_fits : (bytes "a\n").length < 2 ^ 63 := by
  decide

/-- A source at a file of one line. -/
def atOneLine : Reader :=
  { disk := oneFile (bytes "a\n") oneLine_fits, source := freshSource }

def twoLinesOps : List Op :=
  [.getNextLine, .getNextLine, .hasNextLine]

/-- What other processes do before the second `stat` of a reader, and before the
`open` behind it. -/
def rotation (beforeStat beforeOpen : List WriterAction) : List Entry :=
  List.replicate 15 ({} : Entry) ++
    [{ writers := beforeStat }, { writers := beforeOpen }] ++
    List.replicate 10 ({} : Entry)

/-- The path is replaced before the reader looks at it again. -/
def replacedBetween : List Entry :=
  rotation [.replace 2 (bytes "b\n")] []

def rotatedBetween : Reader :=
  (readerLife twoLinesOps replacedBetween atOneLine).state

theorem rotation_delivers_once_between :
    rotatedBetween.history.delivered = [bytes "a", bytes "b"] ∧
      rotatedBetween.DeliversOnce := by
  have reached : Reaches (readerLife twoLinesOps) atOneLine .between
      rotatedBetween :=
    reaches_of_point (readerLife twoLinesOps) atOneLine replacedBetween
      (by decide +kernel)
  have aligned : atOneLine.disk.Sound fun _ _ _ => True :=
    sound_of_no_checkpoint rfl
  exact ⟨by decide +kernel, rotation_delivers_once aligned ⟨rfl, le_refl _⟩
    reached (by decide +kernel) (by decide +kernel)⟩

/-- The file at the path grows, and is replaced before it is opened. -/
def replacedWithin : List Entry :=
  rotation [.append 1 (bytes "b\n")] [.replace 2 (bytes "xyz\n")]

def rotatedWithin : Reader :=
  (readerLife twoLinesOps replacedWithin atOneLine).state

/-- The end of a line of the new file is delivered as a line. -/
theorem rotation_tears :
    Reaches (readerLife twoLinesOps) atOneLine .between rotatedWithin ∧
      rotatedWithin.disk.truncated = false ∧
      rotatedWithin.history.delivered = [bytes "a", bytes "z"] ∧
      ¬rotatedWithin.DeliversOnce := by
  refine ⟨reaches_of_point (readerLife twoLinesOps) atOneLine replacedWithin
    (by decide +kernel), by decide +kernel, by decide +kernel, ?_⟩
  rintro ⟨place, lines, -⟩
  obtain ⟨used, line⟩ := lines 1 (bytes "z") (by decide +kernel)
  have torn := line.mem_records
  have files : rotatedWithin.disk.used = [2, 1, 0] := by decide +kernel
  simp only [files, List.mem_cons, List.not_mem_nil, or_false] at used
  rcases used with second | first | none
  · rw [second] at torn
    exact absurd torn (by decide +kernel)
  · rw [first] at torn
    exact absurd torn (by decide +kernel)
  · rw [none] at torn
    exact absurd torn (by decide +kernel)

end Logfile
end EvCollect
