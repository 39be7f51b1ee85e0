import EvCollect.Hash.Blocks
import EvCollect.Text.BigEndian

/-!
# The secure hash algorithm SHA-1

The function itself, block by block, as its standard defines it: the message
schedule, the eighty rounds of a block, the padding of a message and the bytes
of a digest.
-/

namespace EvCollect
namespace Hash
namespace Sha1

open Text

abbrev Word := BitVec 32

/-- The chaining value, which is also what a round works on. -/
structure Registers where
  a : Word
  b : Word
  c : Word
  d : Word
  e : Word
  deriving DecidableEq, Repr

namespace Registers

/-- The sum of two values, word by word. -/
def add (left right : Registers) : Registers :=
  { a := left.a + right.a
    b := left.b + right.b
    c := left.c + right.c
    d := left.d + right.d
    e := left.e + right.e }

/-- The twenty bytes of a digest. -/
def digest (registers : Registers) : List UInt8 :=
  [registers.a, registers.b, registers.c, registers.d, registers.e].flatMap
    fun word => encodeBE 4 word.toNat

/-- The value before the first block. -/
def initial : Registers :=
  { a := 0x67452301
    b := 0xefcdab89
    c := 0x98badcfe
    d := 0x10325476
    e := 0xc3d2e1f0 }

end Registers

/-! ## Rounds -/

def choose (x y z : Word) : Word :=
  (x &&& y) ^^^ (~~~x &&& z)

def parity (x y z : Word) : Word :=
  x ^^^ y ^^^ z

def majority (x y z : Word) : Word :=
  (x &&& y) ^^^ (x &&& z) ^^^ (y &&& z)

/-- The function of a round. -/
def roundFunction (round : Nat) : Word → Word → Word → Word :=
  if round < 20 then choose
  else if round < 40 then parity
  else if round < 60 then majority
  else parity

/-- The constant of a round. -/
def roundConstant (round : Nat) : Word :=
  if round < 20 then 0x5a827999
  else if round < 40 then 0x6ed9eba1
  else if round < 60 then 0x8f1bbcdc
  else 0xca62c1d6

/-- The message schedule of a block. -/
def schedule (block : List UInt8) (round : Nat) : Word :=
  if round < 16 then wordAt block round
  else
    (schedule block (round - 3) ^^^ schedule block (round - 8) ^^^
      schedule block (round - 14) ^^^ schedule block (round - 16)).rotateLeft 1

def step
    (block : List UInt8)
    (round : Nat)
    (registers : Registers) : Registers :=
  { a := registers.a.rotateLeft 5 +
      roundFunction round registers.b registers.c registers.d +
      registers.e + roundConstant round + schedule block round
    b := registers.a
    c := registers.b.rotateLeft 30
    d := registers.c
    e := registers.d }

/-- A number of rounds from the first one on. -/
def rounds
    (block : List UInt8) : Nat → Registers → Registers
  | 0, registers => registers
  | count + 1, registers => step block count (rounds block count registers)

/-- The compression function. -/
def compress (registers : Registers) (block : List UInt8) : Registers :=
  registers.add (rounds block 80 registers)

/-! ## Messages -/

/-- A message that is padded up to a given last field. -/
def padWith (field message : List UInt8) : List UInt8 :=
  pad 64 0x80 0 field message

/-- The hash of a message whose last block ends with a given field. -/
def hashWith (field message : List UInt8) : List UInt8 :=
  (absorbAll 64 compress (padWith field message) Registers.initial).digest

/-- The length of a message in bits, as its last block has it. -/
def lengthField (size : Nat) : List UInt8 :=
  encodeBE 8 (8 * size)

/-- The hash of a message. -/
def hash (message : List UInt8) : List UInt8 :=
  hashWith (lengthField message.length) message

/-! ## Facts -/

theorem schedule_of_lt
    (block : List UInt8)
    {round : Nat}
    (early : round < 16) :
    schedule block round = wordAt block round := by
  rw [schedule, if_pos early]

theorem schedule_of_ge
    (block : List UInt8)
    {round : Nat}
    (late : 16 ≤ round) :
    schedule block round =
      (schedule block (round - 3) ^^^ schedule block (round - 8) ^^^
        schedule block (round - 14) ^^^
        schedule block (round - 16)).rotateLeft 1 := by
  rw [schedule, if_neg (Nat.not_lt.mpr late)]

/-- The bits of a choice are disjoint, so that it can be made with `or`. -/
theorem choose_eq_or (x y z : Word) :
    choose x y z = (x &&& y) ||| (~~~x &&& z) := by
  apply BitVec.eq_of_getLsbD_eq
  intro position inRange
  simp only [choose, BitVec.getLsbD_or, BitVec.getLsbD_xor, BitVec.getLsbD_and,
    BitVec.getLsbD_not, inRange, decide_true, Bool.true_and]
  cases x.getLsbD position <;> simp

/-- A bit of a majority is set if two of the three are. -/
theorem majority_eq_or (x y z : Word) :
    majority x y z = (x &&& y) ||| (x &&& z) ||| (y &&& z) := by
  apply BitVec.eq_of_getLsbD_eq
  intro position inRange
  simp only [majority, BitVec.getLsbD_or, BitVec.getLsbD_xor,
    BitVec.getLsbD_and]
  cases x.getLsbD position <;> cases y.getLsbD position <;>
    cases z.getLsbD position <;> rfl

/-- The two halves of the length. -/
theorem lengthField_eq (size : Nat) :
    lengthField size =
      encodeBE 4 (8 * size / 2 ^ 32) ++ encodeBE 4 (8 * size) :=
  encodeBE_add 4 4 (8 * size)

end Sha1
end Hash
end EvCollect
