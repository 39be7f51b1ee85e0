import EvCollect.Hash.Sha1
import EvCollect.Util.StringUtil

/-!
# SHA-1 as the daemon computes it

`SHA1::compute` and `SHA1Hash`. The round buffer is an array of the stack that
is not initialised, so that its contents before the call are a parameter. Sizes
and positions are kept in variables of type `int`.
-/

namespace EvCollect

open Text
open Hash.Sha1 (Word Registers)

/-- A `SHA1Hash`. -/
@[ext] structure SHA1Hash where
  hash : Vector UInt8 20
  deriving DecidableEq

namespace SHA1Hash

def kSize : Nat := 20

/-- The digit that a character stands for, or zero. -/
def decodeChar (c : UInt8) : UInt8 :=
  if '0'.toUInt8 ≤ c ∧ c ≤ '9'.toUInt8 then c - '0'.toUInt8
  else if 'A'.toUInt8 ≤ c ∧ c ≤ 'F'.toUInt8 then c - 'A'.toUInt8 + 10
  else if 'a'.toUInt8 ≤ c ∧ c ≤ 'f'.toUInt8 then c - 'a'.toUInt8 + 10
  else 0

/-- The loop of `fromHexString`, which stores at most `kSize` bytes. The
character behind the last one of a string is zero. -/
def decodeLoop (str : Bytes) :
    Nat → Nat → Nat → Vector UInt8 20 → Nat × Vector UInt8 20
  | 0, _, off, hash => (off, hash)
  | passes + 1, i, off, hash =>
      if i < str.length then
        decodeLoop str passes (i + 2) (off + 1)
          (hash.setIfInBounds off
            (decodeChar (str.getD i 0) <<< 4 + decodeChar (str.getD (i + 1) 0)))
      else (off, hash)

/-- `SHA1Hash::fromHexString`, which fills in the given hash. -/
def fromHexString (str : Bytes) (hash : SHA1Hash) : Bool × SHA1Hash :=
  let (off, bytes) := decodeLoop str kSize 0 0 hash.hash
  (decide (off = 20), { hash := bytes })

def hexTable : Bytes :=
  bytes "0123456789abcdef"

/-- `SHA1Hash::toString`. -/
def toString (hash : SHA1Hash) : Bytes :=
  hash.hash.toList.flatMap fun byte : UInt8 =>
    [hexTable.getD ((byte &&& 0xf0) >>> 4).toNat 0,
      hexTable.getD (byte &&& 0x0f).toNat 0]

end SHA1Hash

namespace SHA1

/-- The round buffer. -/
abbrev Buffer := Vector Word 80

namespace Buffer

def read (w : Buffer) (index : Nat) : Word :=
  w[index]?.getD 0

def write (w : Buffer) (index : Nat) (word : Word) : Buffer :=
  w.setIfInBounds index word

theorem read_write
    (w : Buffer)
    {index : Nat}
    (inBounds : index < 80)
    (word : Word)
    (place : Nat) :
    (w.write index word).read place =
      if index = place then word else w.read place := by
  rw [read, write, Vector.getElem?_setIfInBounds]
  split
  · rw [Option.getD_some]
  · rfl

end Buffer

/-! ## Rounds -/

def rol (value : Word) (steps : Nat) : Word :=
  (value <<< steps) ||| (value >>> (32 - steps))

def clearWBuffert (buffert : Buffer) : Buffer :=
  (List.range 16).reverse.foldl (fun buffert pos => buffert.write pos 0) buffert

/-- The macro of a round, given the values of its arguments and the word of the
round buffer that it reads. -/
def sha1macro (func val word : Word) (registers : Registers) : Registers :=
  let t := rol registers.a 5 + func + registers.e + val + word
  { a := t
    b := registers.a
    c := rol registers.b 30
    d := registers.c
    e := registers.d }

/-- The next word of the round buffer. -/
def expand (w : Buffer) (round : Nat) : Buffer :=
  w.write round
    (rol (w.read (round - 3) ^^^ w.read (round - 8) ^^^ w.read (round - 14) ^^^
      w.read (round - 16)) 1)

/-- A pass of the loop over the first sixteen rounds. -/
def plainPass
    (func : Word → Word → Word → Word)
    (val : Word)
    (state : Registers × Buffer)
    (round : Nat) : Registers × Buffer :=
  let (registers, w) := state
  ( sha1macro (func registers.b registers.c registers.d) val (w.read round)
    registers, w)

/-- A pass of one of the other loops. -/
def expandingPass
    (func : Word → Word → Word → Word)
    (val : Word)
    (state : Registers × Buffer)
    (round : Nat) : Registers × Buffer :=
  let (registers, w) := state
  plainPass func val (registers, expand w round) round

/-- A loop over the rounds from `first` up to `last`. -/
def roundLoop
    (pass : Registers × Buffer → Nat → Registers × Buffer)
    (first last : Nat)
    (state : Registers × Buffer) : Registers × Buffer :=
  (List.range' first (last - first)).foldl pass state

/-- The working variables and the round buffer after the rounds of a block. -/
def roundLoops (state : Registers × Buffer) : Registers × Buffer :=
  let state := roundLoop
    (plainPass (fun b c d => (b &&& c) ||| (~~~b &&& d)) 0x5a827999) 0 16 state
  let state := roundLoop
    (expandingPass (fun b c d => (b &&& c) ||| (~~~b &&& d)) 0x5a827999) 16 20
    state
  let state := roundLoop
    (expandingPass (fun b c d => b ^^^ c ^^^ d) 0x6ed9eba1) 20 40 state
  let state := roundLoop
    (expandingPass
      (fun b c d => (b &&& c) ||| (b &&& d) ||| (c &&& d)) 0x8f1bbcdc) 40 60
    state
  roundLoop (expandingPass (fun b c d => b ^^^ c ^^^ d) 0xca62c1d6) 60 80 state

def innerHash (result : Registers) (w : Buffer) : Registers × Buffer :=
  let state := roundLoops (result, w)
  (result.add state.1, state.2)

/-! ## Messages -/

/-- The loop that fills the round buffer from a complete block. -/
def loadBlock (sarray : Bytes) (currentBlock : Nat) (w : Buffer) : Buffer :=
  (List.range 16).foldl
    (fun w roundPos => w.write roundPos
      (widen (sarray.getD (currentBlock + 4 * roundPos + 3) 0) |||
        widen (sarray.getD (currentBlock + 4 * roundPos + 2) 0) <<< 8 |||
        widen (sarray.getD (currentBlock + 4 * roundPos + 1) 0) <<< 16 |||
        widen (sarray.getD (currentBlock + 4 * roundPos) 0) <<< 24)) w

/-- The loop over the complete blocks, with a bound on its passes. Where the end of
the block wraps around, the round buffer is not filled and the loop stays where it
is. -/
def fullBlocks (sarray : Bytes) (endOfFullBlocks : Int) :
    Nat → Nat → Registers × Buffer → Option (Nat × Registers × Buffer)
  | 0, _, _ => none
  | fuel + 1, currentBlock, (result, w) =>
      if (currentBlock : Int) ≤ endOfFullBlocks then
        let endCurrentBlock := StringUtil.toInt (currentBlock + 64)
        if currentBlock < endCurrentBlock then
          fullBlocks sarray endOfFullBlocks fuel (currentBlock + 64)
            (innerHash result (loadBlock sarray currentBlock w))
        else fullBlocks sarray endOfFullBlocks fuel currentBlock (innerHash result w)
      else some (currentBlock, result, w)

/-- The statement that puts a byte into the last block. -/
def putByte (byte : Word) (w : Buffer) (position : Nat) : Buffer :=
  w.write (position >>> 2)
    (w.read (position >>> 2) ||| byte <<< ((3 - (position &&& 3)) <<< 3))

/-- The loop over the bytes of the last block. -/
def lastBlock
    (sarray : Bytes)
    (currentBlock count : Nat)
    (w : Buffer) : Buffer :=
  (List.range count).foldl
    (fun w lastBlockBytes =>
      putByte (widen (sarray.getD (lastBlockBytes + currentBlock) 0)) w
        lastBlockBytes) w

/-- A byte of the result array. -/
def outputByte (result : Registers) (hashByte : Nat) : UInt8 :=
  let words := [result.a, result.b, result.c, result.d, result.e]
  let shift := ((3 - (hashByte : Int)) % 4).toNat <<< 3
  UInt8.ofBitVec
    (((words.getD (hashByte >>> 2) 0) >>> shift &&& 0xff).setWidth 8)

/-- What `compute` does behind the complete blocks. -/
def finish
    (data : Bytes)
    (currentBlock : Nat)
    (result : Registers)
    (w : Buffer) : SHA1Hash :=
  let endCurrentBlock :=
    StringUtil.toInt (StringUtil.ofInt (data.length - currentBlock))
  let w := lastBlock data currentBlock endCurrentBlock.toNat (clearWBuffert w)
  let w := putByte 0x80 w endCurrentBlock.toNat
  let state :=
    if 56 ≤ endCurrentBlock then
      let state := innerHash result w
      (state.1, clearWBuffert state.2)
    else (result, w)
  let w := state.2.write 15 (BitVec.ofNat 32 (data.length <<< 3))
  let result := (innerHash state.1 w).1
  { hash := Vector.ofFn fun hashByte : Fin 20 => outputByte result hashByte }

/-- `SHA1::compute`. -/
def compute (garbage : Buffer) (data : Bytes) : Option SHA1Hash := do
  let endOfFullBlocks := StringUtil.toInt (StringUtil.ofInt (data.length - 64))
  let (currentBlock, result, w) ←
    fullBlocks data endOfFullBlocks (data.length / 64 + 1) 0
      (Registers.initial, garbage)
  return finish data currentBlock result w

example :
    (compute (Vector.replicate 80 0xdeadbeef) (bytes "abc")).map
        SHA1Hash.toString =
      some (bytes "a9993e364706816aba3e25717850c26c9cd0d89d") := by
  decide +kernel

end SHA1
end EvCollect
