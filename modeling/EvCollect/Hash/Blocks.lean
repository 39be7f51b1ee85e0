import Mathlib.Algebra.Group.Nat.Defs
import Mathlib.Algebra.Order.Group.Nat
import Mathlib.Data.List.Basic
import Mathlib.Data.Nat.ModEq

/-!
# Hash functions that work block by block

A compression function is folded over the blocks of a message. The message is
padded first: a marker, zeros, and a field at the end of the last block.
-/

namespace EvCollect
namespace Hash

variable {α σ : Type*}

/-- The state after a number of blocks from the front of a message. -/
def absorb (width : Nat) (compress : σ → List α → σ) :
    Nat → List α → σ → σ
  | 0, _, state => state
  | count + 1, message, state =>
      absorb width compress count (message.drop width)
        (compress state (message.take width))

/-- The state after the complete blocks of a message. -/
def absorbAll
    (width : Nat)
    (compress : σ → List α → σ)
    (message : List α)
    (state : σ) : σ :=
  absorb width compress (message.length / width) message state

section Blocks

variable (width : Nat) (compress : σ → List α → σ)

/-- Blocks can be taken in two portions. -/
theorem absorb_add
    (first second : Nat)
    (message : List α)
    (state : σ) :
    absorb width compress (first + second) message state =
      absorb width compress second (message.drop (first * width))
        (absorb width compress first message state) := by
  induction first generalizing message state with
  | zero => rw [Nat.zero_add, Nat.zero_mul, List.drop_zero, absorb]
  | succ first inductionHypothesis =>
      rw [Nat.add_right_comm, absorb, inductionHypothesis, absorb,
        List.drop_drop]
      congr 2
      rw [Nat.succ_mul, Nat.add_comm]

/-- What follows the blocks is not looked at. -/
theorem absorb_append
    {count : Nat}
    {front : List α}
    (within : count * width ≤ front.length)
    (back : List α)
    (state : σ) :
    absorb width compress count (front ++ back) state =
      absorb width compress count front state := by
  induction count generalizing front state with
  | zero => rfl
  | succ count inductionHypothesis =>
      have block : width ≤ front.length := by
        rw [Nat.succ_mul] at within
        omega
      rw [absorb, absorb, List.take_append_of_le_length block,
        List.drop_append_of_le_length block, inductionHypothesis]
      rw [List.length_drop]
      rw [Nat.succ_mul] at within
      omega

variable {width}

/-- A front of complete blocks is absorbed first. -/
theorem absorbAll_append
    (positive : 0 < width)
    {count : Nat}
    {front : List α}
    (complete : front.length = count * width)
    (back : List α)
    (state : σ) :
    absorbAll width compress (front ++ back) state =
      absorbAll width compress back
        (absorb width compress count front state) := by
  have blocks : (front ++ back).length / width =
      count + back.length / width := by
    rw [List.length_append, complete, Nat.add_comm,
      Nat.add_mul_div_right _ _ positive, Nat.add_comm]
  rw [absorbAll, absorbAll, blocks, absorb_add,
    absorb_append _ _ complete.ge, List.drop_append_of_le_length complete.ge,
    List.drop_eq_nil_of_le complete.le, List.nil_append]

/-- A message of one block. -/
theorem absorbAll_block
    (positive : 0 < width)
    {block : List α}
    (complete : block.length = width)
    (state : σ) :
    absorbAll width compress block state = compress state block := by
  rw [absorbAll, complete, Nat.div_self positive, absorb, absorb,
    List.take_of_length_le complete.le]

end Blocks

/-! ## Padding -/

/-- The number of zeros that fills up the last block, which ends with a field
of the given length. -/
def fill (width size field : Nat) : Nat :=
  (width - (size + 1 + field) % width) % width

/-- A message with a marker, zeros and a field. -/
def pad (width : Nat) (marker zero : α) (field message : List α) : List α :=
  message ++ marker ::
    (List.replicate (fill width message.length field.length) zero ++ field)

/-- Padding does not look at the complete blocks. -/
theorem pad_append
    (width : Nat)
    (marker zero : α)
    (field : List α)
    {count : Nat}
    {front : List α}
    (complete : front.length = count * width)
    (back : List α) :
    pad width marker zero field (front ++ back) =
      front ++ pad width marker zero field back := by
  have remainder : (front ++ back).length + 1 + field.length =
      count * width + (back.length + 1 + field.length) := by
    rw [List.length_append, complete]
    omega
  have filled : fill width (front ++ back).length field.length =
      fill width back.length field.length := by
    rw [fill, fill, remainder, Nat.mul_add_mod_self_right]
  rw [pad, pad, filled, List.append_assoc]

end Hash
end EvCollect
