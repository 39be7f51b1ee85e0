import EvCollect.Logfile.Disk
import EvCollect.Logfile.Source
import EvCollect.Process.Basic

/-!
# The log reader

The functions of `LogfileSource` that make system calls, as processes over the
reader's own state and the disk. Every system call lets the other processes act
first, and what it returns is read off the script as far as it is not determined
by the disk.
-/

namespace EvCollect
namespace Logfile

open Process

/-- An open log file. -/
structure Descriptor where
  inode : UInt64
  position : Nat
  deriving DecidableEq, Repr

/-- A line that was taken out of the line buffer, newline included, and the
inode that the reader believed to read at that time. -/
structure Taken where
  inode : UInt64
  raw : Bytes
  deriving DecidableEq, Repr

/-- What happened so far. No modelled function reads it. -/
structure ReaderHistory where
  /-- The inode and the offset at which the reader started. -/
  base : UInt64 × UInt64 := (0, 0)
  /-- The lines that `getNextLine` has taken out of the line buffer. -/
  taken : List Taken := []
  /-- How many of them it has returned. -/
  returned : Nat := 0
  /-- The indices of taken lines whose own `getNextLine` call wrote a complete
  checkpoint before it returned. -/
  early : List Nat := []
  /-- How many lines had been taken when a complete checkpoint was last
  written. -/
  written : Nat := 0
  /-- Whether the last access to the checkpoint file was complete: all of it
  was read, or all sixteen bytes were written. -/
  synced : Bool := true
  deriving DecidableEq, Repr

structure Reader where
  disk : Disk
  source : LogfileSource
  descriptor : Option Descriptor := none
  history : ReaderHistory := {}

/-- The program points of a log reader. -/
inductive LogPoint
  | stat
  | openLog
  | seek
  | seekFailed
  /-- The head of the loop of `readLines`. -/
  | lineLoop
  /-- The head of the loop of `readLine`. -/
  | byteLoop
  | read
  | closeLog
  /-- `getNextLine` reads the clock. -/
  | clock
  /-- `getNextLine` reads the clock after a checkpoint. -/
  | checkpointClock
  | openSaved
  | readSaved
  | closeSaved
  /-- `writeCheckpoint` opens, and by that truncates, the checkpoint file. -/
  | openCheckpoint
  | writeCheckpoint
  | closeCheckpoint
  /-- `writeCheckpoint` is about to return. -/
  | checkpointDone (success : Bool)
  /-- Between two calls of the reader's functions. -/
  | between
  /-- An exception has left `getNextEvent`. -/
  | uncaught
  deriving DecidableEq, Repr

instance : World Reader where
  react := fun entry reader => { reader with disk := reader.disk.react entry }

/-- A process of a log reader. -/
abbrev ReaderProc (α : Type) := Proc Entry LogPoint Reader α

/-- A system call, before which the other processes act. -/
def sysCall
    (point : LogPoint)
    (effect : Entry → Reader → α × Reader) : ReaderProc α :=
  Proc.call point fun entry reader => effect entry (World.react entry reader)

/-- A program point at which the reader itself does nothing. -/
def pause (point : LogPoint) : ReaderProc Unit :=
  sysCall point fun _ reader => ((), reader)

/-- A step on the source alone. -/
def Reader.onSource
    (step : LogfileSource → LogfileSource)
    (reader : Reader) : Reader :=
  { reader with source := step reader.source }

/-! ## System calls on the log file -/

/-- `stat(filename_)`. -/
def stat : ReaderProc (Option Stat) :=
  sysCall .stat fun entry reader =>
    (if entry.result < 0 then none
      else reader.disk.path.map fun inode =>
        { inode := inode, size := reader.disk.size inode }, reader)

/-- `open(filename_)`, which returns a descriptor number. -/
def openLog : ReaderProc (Option Nat) :=
  sysCall .openLog fun entry reader =>
    match reader.disk.path with
    | none => (none, reader)
    | some inode =>
        if entry.result < 0 then (none, reader)
        else (some entry.result.toNat,
          { reader with
            disk := reader.disk.noteOpened inode reader.source.inode
            descriptor := some { inode := inode, position := 0 } })

/-- `lseek`, which fails for an offset that is negative as an `off_t`. -/
def lseek (offset : UInt64) : ReaderProc Bool :=
  sysCall .seek fun entry reader =>
    if entry.result < 0 ∨ 2 ^ 63 ≤ offset.toNat then (false, reader)
    else (true,
      { reader with
        descriptor := reader.descriptor.map fun descriptor =>
          { descriptor with position := offset.toNat } })

/-- The bytes that a `read` of `limit` bytes gets, which may be fewer than there
are; none at the end of the file, or after an error. -/
def readable
    (disk : Disk)
    (limit : Nat)
    (result : Int)
    (descriptor : Descriptor) : Bytes :=
  if result < 0 then []
  else ((disk.files descriptor.inode).drop descriptor.position).take
    (min limit (max 1 result.toNat))

/-- `read` of the next bytes of the log file. -/
def readLog : ReaderProc Bytes :=
  sysCall .read fun entry reader =>
    match reader.descriptor with
    | none => ([], reader)
    | some descriptor =>
        let data := readable reader.disk 8192 entry.result descriptor
        (data,
          { reader with
            descriptor := some
              { descriptor with
                position := descriptor.position + data.length } })

/-- `close` of the log file. -/
def closeLog (point : LogPoint) : ReaderProc Unit :=
  sysCall point fun _ reader => ((), { reader with descriptor := none })

/-- `WallClock::unixMicros()`. -/
def unixMicros (point : LogPoint) : ReaderProc UInt64 :=
  sysCall point fun entry reader => (entry.wall, reader)

/-! ## Reading lines -/

/-- Fill the read buffer, unless there is nothing to read. -/
def fillBuf : ReaderProc Bool := do
  let data ← readLog
  if data.isEmpty then return false
  Proc.modify (Reader.onSource fun source =>
    { source with buf := data, bufPos := 0, bufLen := data.length })
  return true

/-- The end of `readNextByte`: the next byte of the read buffer. -/
def takeByte : ReaderProc (Option UInt8) := do
  let reader ← Proc.get
  if reader.source.bufPos < reader.source.bufLen then
    Proc.modify (Reader.onSource fun source =>
      { source with bufPos := source.bufPos + 1 })
    return some (reader.source.buf.getD reader.source.bufPos 0)
  else return none

/-- `LogfileSource::readNextByte`. -/
def readNextByte : ReaderProc (Option UInt8) := do
  let reader ← Proc.get
  if reader.source.bufLen ≤ reader.source.bufPos then
    match ← fillBuf with
    | false => return none
    | true => takeByte
  else takeByte

/-- One pass of the loop of `readLine`: the line so far, or its end. -/
def readLinePass (line : Bytes) : ReaderProc (Bytes ⊕ Option Bytes) := do
  match ← readNextByte with
  | none => return .inr none
  | some byte =>
      if byte = 0x0a then return .inr (some (line ++ [byte]))
      else return .inl (line ++ [byte])

/-- `LogfileSource::readLine`, which drops a line that is not terminated. -/
def readLine : ReaderProc (Option Bytes) :=
  Proc.iterate .byteLoop World.react readLinePass []

/-- One pass of the loop of `readLines`. -/
def readLinesPass : ReaderProc (Unit ⊕ Unit) := do
  match ← readLine with
  | none => return .inr ()
  | some line =>
      let reader ← Proc.get
      if reader.source.lineBuf.length < reader.source.lineBufMaxsize then
        Proc.modify (Reader.onSource (LogfileSource.pushLine line))
        return .inl ()
      else return .inr ()

/-- The end of `readLines`, once the file is open. -/
def readOpened (descriptor : Nat) : ReaderProc ReturnCode := do
  let reader ← Proc.get
  match ← lseek reader.source.offset with
  | false =>
      closeLog .seekFailed
      return ReturnCode.makeErrorf "IOERR"
        (bytes "lseek('" ++ StringUtil.decimal descriptor ++ bytes "') failed")
  | true =>
      Proc.modify (Reader.onSource fun source =>
        { source with bufLen := 0, bufPos := 0 })
      Proc.iterate .lineLoop World.react (fun _ => readLinesPass) ()
      closeLog .closeLog
      return ReturnCode.success

/-- The beginning of `readLines`: find the file at the path and go to it. -/
def locate : ReaderProc (Option Stat) := do
  match ← stat with
  | none => return none
  | some found =>
      Proc.modify (Reader.onSource (LogfileSource.resetFor found))
      return some found

/-- `LogfileSource::readLines`. -/
def readLines : ReaderProc ReturnCode := do
  match ← locate with
  | none =>
      let reader ← Proc.get
      return ReturnCode.makeErrorf "IOERR"
        (bytes "fstat('" ++ cString reader.source.filename ++
          bytes "') failed")
  | some found =>
      let reader ← Proc.get
      if found.size = reader.source.offset then
        return ReturnCode.success
      match ← openLog with
      | none =>
          return ReturnCode.makeErrorf "IOERR"
            (bytes "open('" ++ cString reader.source.filename ++
              bytes "') failed")
      | some descriptor => readOpened descriptor

/-! ## The checkpoint file -/

/-- `open` of the checkpoint file for reading, and whether the descriptor is
greater than zero. -/
def openSaved : ReaderProc Bool :=
  sysCall .openSaved fun entry reader =>
    (reader.disk.checkpoint.isSome && decide (0 < entry.result), reader)

/-- `read` of sixteen bytes of the checkpoint file. -/
def readSaved : ReaderProc Bytes :=
  sysCall .readSaved fun entry reader =>
    (if entry.result < 0 then []
      else (reader.disk.checkpoint.getD []).take
        (min 16 (max 1 entry.result.toNat)), reader)

/-- Note whether everything that matters was read from the checkpoint file. -/
def noteRead (data : Bytes) (reader : Reader) : Reader :=
  { reader with
    history :=
      { reader.history with
        synced := decide
          (data = (reader.disk.checkpoint.getD []).take 16) } }

/-- Start from a position. -/
def startAt (position : UInt64 × UInt64) (reader : Reader) : Reader :=
  { reader with
    source := reader.source.restore position
    history := { reader.history with base := position } }

/-- `LogfileSource::readCheckpoint`. -/
def readCheckpoint : ReaderProc ReturnCode := do
  match ← openSaved with
  | false =>
      Proc.modify (noteRead [])
      Proc.modify (startAt (0, 0))
      return ReturnCode.success
  | true =>
      let data ← readSaved
      Proc.modify (noteRead data)
      pause .closeSaved
      Proc.modify (startAt (LogfileSource.decodeCheckpoint data))
      return ReturnCode.success

/-- `open` of the checkpoint file for writing, which truncates it. -/
def openCheckpoint : ReaderProc Bool :=
  sysCall .openCheckpoint fun entry reader =>
    if entry.result < 0 then
      (false,
        { reader with history := { reader.history with synced := false } })
    else
      (true,
        { reader with
          disk := reader.disk.setCheckpoint []
          history := { reader.history with synced := false } })

/-- Note a `write` that stored all bytes of a checkpoint. -/
def noteWritten (history : ReaderHistory) : ReaderHistory :=
  { history with
    synced := true
    written := history.taken.length
    early := if history.returned < history.taken.length
      then history.early ++ [history.returned] else history.early }

/-- `write` of a checkpoint, which may store a prefix of it only, and whether it
did not fail. -/
def writeSaved (data : Bytes) : ReaderProc Bool :=
  sysCall .writeCheckpoint fun entry reader =>
    if entry.result < 0 then (false, reader)
    else
      (true,
        { reader with
          disk := reader.disk.setCheckpoint (data.take entry.result.toNat)
          history := if data.length ≤ entry.result.toNat
            then noteWritten reader.history else reader.history })

/-- The part of `writeCheckpoint` that accesses the file. -/
def storeCheckpoint : ReaderProc ReturnCode := do
  let reader ← Proc.get
  let data := LogfileSource.encodeCheckpoint reader.source.checkpointInode
    reader.source.checkpointOffset
  match ← openCheckpoint with
  | false =>
      return ReturnCode.makeErrorf "IOERR"
        (bytes "open('" ++ cString reader.source.checkpointFilename ++
          bytes "') failed")
  | true =>
      match ← writeSaved data with
      | false =>
          return ReturnCode.makeErrorf "IOERR"
            (bytes "write('" ++ cString reader.source.checkpointFilename ++
              bytes "') failed")
      | true =>
          pause .closeCheckpoint
          return ReturnCode.success

/-- `LogfileSource::writeCheckpoint` without its return. -/
def updateCheckpoint : ReaderProc ReturnCode := do
  let reader ← Proc.get
  if reader.source.checkpointInode = reader.source.inode ∧
      reader.source.checkpointOffset = reader.source.consumedOffset then
    return ReturnCode.success
  Proc.modify (Reader.onSource LogfileSource.noteCheckpoint)
  storeCheckpoint

/-- `LogfileSource::writeCheckpoint`. -/
def writeCheckpoint : ReaderProc ReturnCode := do
  let rc ← updateCheckpoint
  pause (.checkpointDone (ReturnCode.isSuccess rc))
  return rc

/-! ## The reader's functions -/

/-- Read lines if the line buffer is empty. -/
def fillLineBuf : ReaderProc ReturnCode := do
  let reader ← Proc.get
  if reader.source.lineBuf.isEmpty then readLines
  else return ReturnCode.success

/-- `LogfileSource::hasNextLine`. -/
def hasNextLine : ReaderProc Bool := do
  let _ ← fillLineBuf
  let reader ← Proc.get
  return !reader.source.lineBuf.isEmpty

/-- Take a line out of the line buffer. -/
def popLine (raw : Bytes) (reader : Reader) : Reader :=
  { reader with
    source := reader.source.popLine raw
    history :=
      { reader.history with
        taken := reader.history.taken ++
          [{ inode := reader.source.inode, raw := raw }] } }

/-- The middle of `getNextLine`: the next line without its newline, if there is
one, else what was passed in. -/
def takeLine (line : Bytes) : ReaderProc Bytes := do
  let reader ← Proc.get
  match reader.source.lineBuf with
  | [] => return line
  | raw :: _ =>
      Proc.modify (popLine raw)
      return raw.dropLast

/-- The end of `getNextLine`: write a checkpoint every now and then. A failure
of `writeCheckpoint` is only reported to the log. -/
def checkpointIfDue : ReaderProc Unit := do
  let now ← unixMicros .clock
  let reader ← Proc.get
  if reader.source.checkpointIntervalMicros ≤
      now - reader.source.lastCheckpoint then
    let _ ← writeCheckpoint
    let now ← unixMicros .checkpointClock
    Proc.modify (Reader.onSource fun source =>
      { source with lastCheckpoint := now })
  else return ()

/-- Note that all lines taken have been returned. -/
def noteReturned (reader : Reader) : Reader :=
  { reader with
    history :=
      { reader.history with returned := reader.history.taken.length } }

/-- `LogfileSource::getNextLine`, which maps the string it is given to the one
it leaves. -/
def getNextLine (line : Bytes) : ReaderProc (Except Error Bytes) := do
  match ← fillLineBuf with
  | .error error => return .error error
  | .ok () =>
      let line ← takeLine line
      checkpointIfDue
      Proc.modify noteReturned
      return .ok line

/-- `LogfileSource::getNextEvent`, which maps the event buffer it is given to
the one it leaves. -/
def getNextEvent (eventJson : Bytes) : ReaderProc (Except Error Bytes) := do
  match ← getNextLine [] with
  | .error error => return .error error
  | .ok rawLine =>
      if rawLine.isEmpty then return .ok eventJson
      let reader ← Proc.get
      match reader.source.formatEvent rawLine eventJson with
      | none => Proc.halt .uncaught
      | some event => return .ok event

/-- The constructor, which makes no system call. -/
def construct (source : LogfileSource) (reader : Reader) : Reader :=
  { reader with source := source, history := {} }

/-! ## Clients -/

/-- A call of one of the reader's functions. -/
inductive Op
  | hasNextLine
  | getNextLine
  | getNextEvent
  | writeCheckpoint
  deriving DecidableEq, Repr

def runOp : Op → ReaderProc Unit
  | .hasNextLine => do
      let _ ← hasNextLine
  | .getNextLine => do
      let _ ← getNextLine []
  | .getNextEvent => do
      let _ ← getNextEvent []
  | .writeCheckpoint => do
      let _ ← writeCheckpoint

/-- Any sequence of calls. -/
def runOps (ops : List Op) : ReaderProc Unit :=
  ops.forM fun op => do
    pause .between
    runOp op

/-- The life of a reader: it reads its checkpoint and is then called. -/
def readerLife (ops : List Op) : ReaderProc Unit := do
  let _ ← readCheckpoint
  runOps ops

end Logfile
end EvCollect
