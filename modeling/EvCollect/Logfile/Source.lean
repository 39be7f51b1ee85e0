import EvCollect.Text.LittleEndian
import EvCollect.Util.StringUtil

/-!
# The state of a log reader

`LogfileSource` and those of its steps that make no system call: how a regular
expression is compiled, how a line becomes an event, and how a position is
written to the checkpoint file. The regular expression library is a parameter.
-/

namespace EvCollect
namespace Logfile

/-- What `pcre_exec` returns, and the offsets it stores. -/
structure PcreMatch where
  rc : Int
  ovector : Nat → Int

/-- A compiled regular expression with what `pcre_fullinfo` tells about it. -/
structure Pcre where
  nameCount : Nat
  captureCount : Nat
  nameTable : Bytes
  nameEntrySize : Nat
  exec : Bytes → PcreMatch

/-- `pcre_compile`, which returns a message if it fails. -/
abbrev PcreCompile := Bytes → Except Bytes Pcre

structure LogfileSource where
  filename : Bytes
  checkpointFilename : Bytes
  pcreHandle : Option Pcre := none
  pcreFields : List Bytes := []
  inode : UInt64 := 0
  offset : UInt64 := 0
  consumedOffset : UInt64 := 0
  checkpointInode : UInt64 := 0
  checkpointOffset : UInt64 := 0
  checkpointIntervalMicros : UInt64 := 10 * 1000000
  lastCheckpoint : UInt64 := 0
  /-- The bytes of `buf_` that the last `read` stored. -/
  buf : Bytes := []
  bufLen : Nat := 0
  bufPos : Nat := 0
  lineBuf : List Bytes := []
  lineBufMaxsize : Nat := 8192

/-- What `stat` reports of a file. -/
structure Stat where
  inode : UInt64
  size : UInt64
  deriving DecidableEq, Repr

namespace LogfileSource

/-- The constructor, given the text of the hash of the file name. -/
def create (sha1 : Bytes → Bytes) (filename spoolDir : Bytes) : LogfileSource :=
  { filename := filename
    checkpointFilename := spoolDir ++ bytes "/log_" ++ sha1 filename }

/-! ## Regular expressions -/

/-- The loop of `setRegex` over the entries of the name table: the group number
is in the first two bytes of an entry, and its name takes up the rest. -/
def nameFields (pcre : Pcre) : Nat → Bytes → List Bytes → List Bytes
  | 0, _, fields => fields
  | count + 1, table, fields =>
      let index := (table.getD 0 0).toNat * 256 + (table.getD 1 0).toNat
      let name := (table.drop 2).take (pcre.nameEntrySize - 3)
      nameFields pcre count (table.drop pcre.nameEntrySize)
        (fields.set index name)

/-- `LogfileSource::setRegex`. -/
def setRegex
    (compile : PcreCompile)
    (regex : Bytes)
    (source : LogfileSource) : ReturnCode × LogfileSource :=
  match compile regex with
  | .error message =>
      (ReturnCode.makeErrorf "REGEX_ERROR" (bytes "invalid regex: " ++ message),
        { source with pcreHandle := none })
  | .ok pcre =>
      if pcre.nameCount < 1 then
        (ReturnCode.makeErrorf "REGEX_ERROR"
          (bytes "regex has no named capture groups"),
          { source with pcreHandle := none })
      else
        (ReturnCode.success,
          { source with
            pcreHandle := some pcre
            pcreFields := nameFields pcre pcre.nameCount pcre.nameTable
              (List.replicate (pcre.captureCount + 1) []) })

/-! ## Events -/

/-- The bytes between two offsets, or `none` where the constructor of the string
throws. -/
def slice (raw : Bytes) (start stop : Int) : Option Bytes :=
  if stop < start then none
  else some ((raw.drop start.toNat).take (stop - start).toNat)

/-- The loop of `getNextEvent` over the groups of a match, with the number of
members that have been written. -/
def appendMembers
    (fields : List Bytes)
    (result : PcreMatch)
    (rawLine : Bytes) : List Nat → Nat → Bytes → Option Bytes
  | [], _, json => some json
  | group :: groups, written, json => do
      let name := fields.getD group []
      if name.isEmpty then
        appendMembers fields result rawLine groups written json
      else
        let json := if 0 < written then json ++ bytes "," else json
        let evdata ← slice rawLine (result.ovector (2 * group))
          (result.ovector (2 * group + 1))
        let name := StringUtil.jsonEscape name
        let evdata := StringUtil.jsonEscape evdata
        appendMembers fields result rawLine groups (written + 1)
          (json ++ bytes "\"" ++ name ++ bytes "\":" ++
            bytes "\"" ++ evdata ++ bytes "\"")

/-- What `getNextEvent` leaves in the event buffer for a line that is not
empty, or `none` where it throws. -/
def formatEvent
    (source : LogfileSource)
    (rawLine eventJson : Bytes) : Option Bytes :=
  match source.pcreHandle with
  | some pcre =>
      let result := pcre.exec rawLine
      if 0 ≤ result.rc then
        (appendMembers source.pcreFields result rawLine
          (List.range' 1 (result.rc.toNat - 1)) 0
          (eventJson ++ bytes "\x7b")).map (· ++ bytes "\x7d")
      else some eventJson
  | none =>
      let data := StringUtil.jsonEscape rawLine
      StringUtil.format (bytes "\x7b \"data\": \"$0\" \x7d") [data]

/-! ## Positions -/

/-- The effect of a `stat` on the position: another file, or a shorter one, is
read from its beginning. -/
def resetFor (stat : Stat) (source : LogfileSource) : LogfileSource :=
  if stat.inode ≠ source.inode ∨ stat.size < source.offset then
    { source with
      lineBuf := []
      inode := stat.inode
      offset := 0
      consumedOffset := 0 }
  else source

/-- Append a line to the line buffer. -/
def pushLine (line : Bytes) (source : LogfileSource) : LogfileSource :=
  { source with
    lineBuf := source.lineBuf ++ [line]
    offset := source.offset + UInt64.ofNat line.length }

/-- Take the first line out of the line buffer. -/
def popLine (line : Bytes) (source : LogfileSource) : LogfileSource :=
  { source with
    consumedOffset := source.consumedOffset + UInt64.ofNat line.length
    lineBuf := source.lineBuf.tail }

/-- The sixteen bytes of a checkpoint. -/
def encodeCheckpoint (inode offset : UInt64) : Bytes :=
  Text.encodeLE 8 inode.toNat ++ Text.encodeLE 8 offset.toNat

/-- The position in sixteen bytes of a checkpoint; nothing else is one. -/
def decodeCheckpoint (data : Bytes) : UInt64 × UInt64 :=
  if data.length = 16 then
    (UInt64.ofNat (Text.decodeLE (data.take 8)),
      UInt64.ofNat (Text.decodeLE (data.drop 8)))
  else (0, 0)

/-- The end of `readCheckpoint`, with the position that was read. -/
def restore (position : UInt64 × UInt64) (source : LogfileSource) :
    LogfileSource :=
  { source with
    inode := position.1
    offset := position.2
    consumedOffset := position.2
    checkpointInode := position.1
    checkpointOffset := position.2 }

/-- Note the current position as the one in the checkpoint file. -/
def noteCheckpoint (source : LogfileSource) : LogfileSource :=
  { source with
    checkpointInode := source.inode
    checkpointOffset := source.consumedOffset }

end LogfileSource

/-! ## Facts about these steps -/

namespace LogfileSource

/-- A `stat` moves the source to the file it reports. -/
@[simp] theorem inode_resetFor (stat : Stat) (source : LogfileSource) :
    (source.resetFor stat).inode = stat.inode := by
  unfold resetFor
  split
  · rfl
  next same =>
    rw [not_or, not_not] at same
    exact same.1.symm

/-- Setting a regular expression changes what depends on it only. -/
theorem setRegex_snd
    (compile : PcreCompile)
    (regex : Bytes)
    (source : LogfileSource) :
    ∃ handle fields, (source.setRegex compile regex).2 =
      { source with pcreHandle := handle, pcreFields := fields } := by
  unfold setRegex
  split
  · exact ⟨none, source.pcreFields, rfl⟩
  · split
    · exact ⟨none, source.pcreFields, rfl⟩
    · exact ⟨_, _, rfl⟩

@[simp] theorem length_encodeCheckpoint (inode offset : UInt64) :
    (encodeCheckpoint inode offset).length = 16 := by
  simp [encodeCheckpoint]

/-- What is written to the checkpoint file is read back. -/
@[simp] theorem decodeCheckpoint_encodeCheckpoint (inode offset : UInt64) :
    decodeCheckpoint (encodeCheckpoint inode offset) = (inode, offset) := by
  have first : (encodeCheckpoint inode offset).take 8 =
      Text.encodeLE 8 inode.toNat := by
    simp [encodeCheckpoint]
  have second : (encodeCheckpoint inode offset).drop 8 =
      Text.encodeLE 8 offset.toNat := by
    simp [encodeCheckpoint]
  rw [decodeCheckpoint, if_pos (length_encodeCheckpoint inode offset), first,
    second, Text.ofNat_decodeLE_encodeLE, Text.ofNat_decodeLE_encodeLE]

/-- Without a regular expression every line that is not empty gives an event. -/
theorem formatEvent_ne_nil
    {source : LogfileSource}
    {rawLine eventJson event : Bytes}
    (noRegex : source.pcreHandle = none)
    (nonempty : rawLine ≠ [])
    (formatted : source.formatEvent rawLine eventJson = some event) :
    event ≠ [] := by
  unfold formatEvent at formatted
  rw [noRegex] at formatted
  apply StringUtil.formatImpl_ne_nil _ (by decide) formatted
  intro value present
  rw [List.mem_singleton] at present
  exact present ▸ StringUtil.jsonEscape_ne_nil nonempty

end LogfileSource

end Logfile
end EvCollect
