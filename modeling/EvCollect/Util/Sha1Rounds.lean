import EvCollect.Util.Sha1

/-!
# The rounds of a block

`innerHash` is the compression function of SHA-1: the round buffer holds the
message schedule as far as it has been computed, whatever it held before.
-/

namespace EvCollect
namespace SHA1

open Text
open Hash.Sha1 (Word Registers)

theorem rol_eq_rotateLeft
    (value : Word)
    {steps : Nat}
    (small : steps < 32) : rol value steps = value.rotateLeft steps := by
  rw [rol, BitVec.rotateLeft_def, Nat.mod_eq_of_lt small]

theorem or_reverse (first second third fourth : Word) :
    fourth ||| third ||| second ||| first =
      first ||| second ||| third ||| fourth := by
  ac_rfl

/-! ## The round buffer -/

/-- Writes of values that do not depend on the buffer. -/
theorem read_foldl_write
    (value : Nat → Word)
    (positions : List Nat)
    (inBounds : ∀ position ∈ positions, position < 80)
    (w : Buffer)
    (place : Nat) :
    (positions.foldl (fun w position => w.write position (value position))
      w).read place =
      if place ∈ positions then value place else w.read place := by
  induction positions generalizing w with
  | nil => rfl
  | cons position positions inductionHypothesis =>
      rw [List.forall_mem_cons] at inBounds
      rw [List.foldl_cons, inductionHypothesis inBounds.2,
        Buffer.read_write w inBounds.1]
      by_cases later : place ∈ positions
      · rw [if_pos later, if_pos (List.mem_cons_of_mem _ later)]
      · rw [if_neg later]
        by_cases here : position = place
        · rw [if_pos here, if_pos (here ▸ List.mem_cons_self), here]
        · have absent : place ∉ position :: positions := by
            rw [List.mem_cons]
            exact fun member => member.elim (fun equal => here equal.symm) later
          rw [if_neg here, if_neg absent]

theorem read_clearWBuffert
    (w : Buffer)
    {place : Nat}
    (inBlock : place < 16) :
    (clearWBuffert w).read place = 0 := by
  rw [clearWBuffert, read_foldl_write (fun _ => 0), if_pos]
  · rw [List.mem_reverse, List.mem_range]
    exact inBlock
  · intro position member
    rw [List.mem_reverse, List.mem_range] at member
    omega

/-- The words of a block are its bytes, four in each. -/
theorem read_loadBlock
    (sarray : Bytes)
    (currentBlock : Nat)
    (w : Buffer)
    {place : Nat}
    (inBlock : place < 16) :
    (loadBlock sarray currentBlock w).read place =
      wordAt ((sarray.drop currentBlock).take 64) place := by
  rw [loadBlock, read_foldl_write, if_pos (List.mem_range.mpr inBlock), wordAt]
  · have byte : ∀ lane, lane < 4 →
        ((sarray.drop currentBlock).take 64).getD (4 * place + lane) 0 =
          sarray.getD (currentBlock + 4 * place + lane) 0 := by
      intro lane small
      rw [List.getD_eq_getElem?_getD, List.getD_eq_getElem?_getD,
        List.getElem?_take_of_lt (by omega), List.getElem?_drop, Nat.add_assoc]
    have first := byte 0 (by decide)
    rw [Nat.add_zero, Nat.add_zero] at first
    rw [first, byte 1 (by decide), byte 2 (by decide), byte 3 (by decide)]
    exact or_reverse _ _ _ _
  · intro position member
    rw [List.mem_range] at member
    omega

/-! ## Rounds -/

/-- What the variables hold after a number of rounds. -/
structure Computed
    (block : Bytes)
    (start : Registers)
    (count : Nat)
    (state : Registers × Buffer) : Prop where
  registers : state.1 = Hash.Sha1.rounds block count start
  schedule : ∀ round, round < max 16 count →
    state.2.read round = Hash.Sha1.schedule block round

/-- The macro is a round. -/
theorem sha1macro_eq_step
    (block : Bytes)
    (round : Nat)
    (registers : Registers) :
    sha1macro
        (Hash.Sha1.roundFunction round registers.b registers.c registers.d)
        (Hash.Sha1.roundConstant round) (Hash.Sha1.schedule block round)
        registers =
      Hash.Sha1.step block round registers := by
  rw [ sha1macro, Hash.Sha1.step, rol_eq_rotateLeft _ (by decide),
    rol_eq_rotateLeft _ (by decide)]

section Passes

variable {block : Bytes} {start : Registers} {round : Nat}
variable {state : Registers × Buffer}
variable (func : Word → Word → Word → Word) (val : Word)

/-- A pass that finds its word in the buffer. -/
theorem Computed.plainPass
    (computed : Computed block start round state)
    (early : round < 16)
    (sameFunction : func = Hash.Sha1.roundFunction round)
    (sameConstant : val = Hash.Sha1.roundConstant round) :
    Computed block start (round + 1) (plainPass func val state round) := by
  constructor
  · have word := computed.schedule round (by omega)
    rw [Hash.Sha1.rounds, ← computed.registers, ← sha1macro_eq_step, ← word,
      ← sameFunction, ← sameConstant]
    rfl
  · intro index before
    exact computed.schedule index (by omega)

/-- A pass that computes its word first. -/
theorem Computed.expandingPass
    (computed : Computed block start round state)
    (late : 16 ≤ round)
    (inBounds : round < 80)
    (sameFunction : func = Hash.Sha1.roundFunction round)
    (sameConstant : val = Hash.Sha1.roundConstant round) :
    Computed block start (round + 1) (expandingPass func val state round) := by
  have expanded : ∀ index, index < round + 1 →
      (expand state.2 round).read index = Hash.Sha1.schedule block index := by
    intro index before
    rw [expand, Buffer.read_write _ inBounds]
    split
    next here =>
      rw [← here, Hash.Sha1.schedule_of_ge _ late,
        rol_eq_rotateLeft _ (by decide), computed.schedule _ (by omega),
        computed.schedule _ (by omega), computed.schedule _ (by omega),
        computed.schedule _ (by omega)]
    next earlier => exact computed.schedule index (by omega)
  constructor
  · have word := expanded round (Nat.lt_succ_self round)
    rw [Hash.Sha1.rounds, ← computed.registers, ← sha1macro_eq_step, ← word,
      ← sameFunction, ← sameConstant]
    rfl
  · intro index before
    exact expanded index (by omega)

/-- A loop whose passes are rounds. -/
theorem Computed.roundLoop
    {pass : Registers × Buffer → Nat → Registers × Buffer}
    {first last : Nat}
    (ordered : first ≤ last)
    (rounds : ∀ state round, first ≤ round → round < last →
      Computed block start round state →
        Computed block start (round + 1) (pass state round))
    (computed : Computed block start first state) :
    Computed block start last (roundLoop pass first last state) := by
  obtain ⟨count, rfl⟩ := Nat.exists_eq_add_of_le ordered
  rw [SHA1.roundLoop, Nat.add_sub_cancel_left]
  clear ordered
  induction count with
  | zero => exact computed
  | succ count inductionHypothesis =>
      have before := inductionHypothesis fun state round after below =>
        rounds state round after (Nat.lt_succ_of_lt below)
      rw [List.range'_concat, List.foldl_append, Nat.one_mul]
      exact rounds _ _ (Nat.le_add_right first count)
        (Nat.lt_succ_self _) before

end Passes

/-! ## The five loops -/

section Phases

variable {round : Nat}

theorem choose_eq_roundFunction (below : round < 20) :
    (fun b c d => (b &&& c) ||| (~~~b &&& d)) =
      Hash.Sha1.roundFunction round := by
  funext b c d
  rw [Hash.Sha1.roundFunction, if_pos below, Hash.Sha1.choose_eq_or]

theorem parity_eq_roundFunction
    (phase : 20 ≤ round ∧ round < 40 ∨ 60 ≤ round) :
    (fun b c d => b ^^^ c ^^^ d) = Hash.Sha1.roundFunction round := by
  rw [Hash.Sha1.roundFunction, if_neg (by omega)]
  rcases phase with ⟨-, below⟩ | above
  · rw [if_pos below]
    rfl
  · rw [if_neg (by omega), if_neg (by omega)]
    rfl

theorem majority_eq_roundFunction
    (above : 40 ≤ round)
    (below : round < 60) :
    (fun b c d => (b &&& c) ||| (b &&& d) ||| (c &&& d)) =
      Hash.Sha1.roundFunction round := by
  funext b c d
  rw [Hash.Sha1.roundFunction, if_neg (by omega), if_neg (by omega),
    if_pos below, Hash.Sha1.majority_eq_or]

end Phases

/-- The five loops are the eighty rounds. -/
theorem computed_roundLoops
    {block : Bytes}
    {result : Registers}
    {w : Buffer}
    (loaded : ∀ index, index < 16 → w.read index = wordAt block index) :
    Computed block result 80 (roundLoops (result, w)) := by
  have initially : Computed block result 0 (result, w) := by
    refine ⟨rfl, fun round before => ?_⟩
    have early : round < 16 := by omega
    rw [Hash.Sha1.schedule_of_lt _ early]
    exact loaded round early
  have first := initially.roundLoop (by decide : 0 ≤ 16)
    fun _ round _ below computed =>
      computed.plainPass _ 0x5a827999 below
        (choose_eq_roundFunction (by omega))
        (by rw [Hash.Sha1.roundConstant, if_pos (by omega)])
  have second := first.roundLoop (by decide : 16 ≤ 20)
    fun _ round above below computed =>
      computed.expandingPass _ 0x5a827999 above (by omega)
        (choose_eq_roundFunction below)
        (by rw [Hash.Sha1.roundConstant, if_pos below])
  have third := second.roundLoop (by decide : 20 ≤ 40)
    fun _ round above below computed =>
      computed.expandingPass _ 0x6ed9eba1 (by omega) (by omega)
        (parity_eq_roundFunction (Or.inl ⟨above, below⟩))
        (by rw [Hash.Sha1.roundConstant, if_neg (by omega), if_pos below])
  have fourth := third.roundLoop (by decide : 40 ≤ 60)
    fun _ round above below computed =>
      computed.expandingPass _ 0x8f1bbcdc (by omega) (by omega)
        (majority_eq_roundFunction above below)
        (by rw [Hash.Sha1.roundConstant, if_neg (by omega),
          if_neg (by omega), if_pos below])
  exact fourth.roundLoop (by decide : 60 ≤ 80)
    fun _ round above below computed =>
      computed.expandingPass _ 0xca62c1d6 (by omega) below
        (parity_eq_roundFunction (Or.inr above))
        (by rw [Hash.Sha1.roundConstant, if_neg (by omega),
          if_neg (by omega), if_neg (by omega)])

/-- `innerHash` is the compression function. -/
theorem innerHash_fst
    {block : Bytes}
    (result : Registers)
    {w : Buffer}
    (loaded : ∀ index, index < 16 → w.read index = wordAt block index) :
    (innerHash result w).1 = Hash.Sha1.compress result block := by
  rw [Hash.Sha1.compress, ← (computed_roundLoops loaded).registers]
  rfl

end SHA1
end EvCollect
