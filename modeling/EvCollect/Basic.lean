import Mathlib.Algebra.Group.Int.Defs
import Mathlib.Algebra.Group.Nat.Defs
import Mathlib.Data.List.Basic
import Mathlib.Data.List.TakeWhile

/-!
# Values shared by the whole daemon

Byte strings, return codes, property lists and the configuration records that
the service is set up from.
-/

namespace EvCollect

/-- A byte string, the model of `std::string`. -/
abbrev Bytes := List UInt8

/-- The bytes of a string literal. -/
def bytes (text : String) : Bytes :=
  text.toUTF8.data.toList

/-- The bytes of a string up to its first zero byte. -/
def cString (string : Bytes) : Bytes :=
  string.takeWhile (· ≠ 0)

theorem cString_eq_self
    {string : Bytes}
    (noZero : 0 ∉ string) :
    cString string = string := by
  refine List.takeWhile_eq_self_iff.mpr fun byte member => decide_eq_true ?_
  rintro rfl
  exact noZero member

/-- The code and message of a failed `ReturnCode`. -/
structure Error where
  code : Bytes
  message : Bytes
  deriving DecidableEq, Repr

/-- A `ReturnCode`. A function that also fills an out-parameter on success
returns the filled value instead of `Unit`. -/
abbrev ReturnCode := Except Error Unit

namespace ReturnCode

def success : ReturnCode := .ok ()

/-- `ReturnCode::error` with a finished message. -/
def makeError (code : String) (message : Bytes) : Except Error α :=
  .error { code := bytes code, message := message }

/-- What `vsnprintf` leaves in a buffer of 1025 bytes that is then resized to
the full length of the text. -/
def boundedText (text : Bytes) : Bytes :=
  if text.length ≤ 1024 then text
  else text.take 1024 ++ List.replicate (text.length - 1024) 0

theorem boundedText_of_le
    {text : Bytes}
    (short : text.length ≤ 1024) : boundedText text = text :=
  if_pos short

/-- `ReturnCode::error` with a format string, whose expansion is `text`. -/
def makeErrorf (code : String) (text : Bytes) : Except Error α :=
  .error { code := bytes code, message := boundedText text }

def isSuccess : Except Error α → Bool
  | .ok _ => true
  | .error _ => false

end ReturnCode

/-- Configuration properties: keys with lists of values, in file order. -/
structure PropertyList where
  properties : List (Bytes × List Bytes)
  deriving DecidableEq, Repr

namespace PropertyList

/-- First value of the first non-empty entry of a key. -/
def get (list : PropertyList) (key : Bytes) : Option Bytes :=
  list.properties.findSome? fun property =>
    if property.1 = key then property.2.head? else none

/-- The lists of values of a key. -/
def getAll (list : PropertyList) (key : Bytes) : List (List Bytes) :=
  (list.properties.filter fun property => property.1 = key).map Prod.snd

end PropertyList

structure EventData where
  time : UInt64
  eventName : Bytes
  eventData : Bytes
  deriving DecidableEq, Repr

structure EventSourceConfig where
  pluginName : Bytes
  pluginValue : Bytes
  properties : PropertyList
  deriving DecidableEq, Repr

structure EventConfig where
  eventName : Bytes
  intervalMicros : UInt64
  sources : List EventSourceConfig
  deriving DecidableEq, Repr

structure TargetConfig where
  pluginName : Bytes
  pluginValue : Bytes
  properties : PropertyList
  deriving DecidableEq, Repr

/-! ## The script of the environment -/

/-- What other processes can do to the log file. -/
inductive WriterAction
  /-- Append bytes to the file with this inode, which need not be current. -/
  | append (inode : UInt64) (data : Bytes)
  /-- Put a new file with a fresh inode at the log file's path. -/
  | replace (inode : UInt64) (data : Bytes)
  /-- Cut the current file down to a size, keeping its inode. -/
  | truncate (size : Nat)
  /-- Remove the path. -/
  | unlink
  deriving DecidableEq, Repr

/-- What the other threads of the daemon can do. -/
inductive Peer
  /-- The upload thread takes its next step. -/
  | upload
  /-- The upload thread's condition wait returns without a notification. -/
  | spuriousUpload
  /-- The service thread's condition wait returns without a notification. -/
  | spuriousService
  deriving DecidableEq, Repr

/-- One entry of the script: what the rest of the world does before a system
call of the service thread, and what that call answers. Each call reads the
fields it needs. -/
structure Entry where
  /-- `CLOCK_MONOTONIC` in microseconds; an older value than the last reading
  stands for that reading. -/
  monotonic : UInt64 := 0
  /-- `gettimeofday` in microseconds. -/
  wall : UInt64 := 0
  /-- Return value of a file system call or of `select`: negative for a failure
  or an interruption, else a descriptor or an upper bound on a byte count. -/
  result : Int := 8192
  /-- `kill()` is called. -/
  killed : Bool := false
  writers : List WriterAction := []
  peers : List Peer := []
  /-- What a plugin outside the modelled ones produces. -/
  reply : Bytes := []
  /-- Whether such a plugin says that it has more. -/
  more : Bool := false
  deriving Repr

/-- States that the environment can change on its own. -/
class World (τ : Type) where
  react : Entry → τ → τ

end EvCollect
