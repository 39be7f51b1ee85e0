import EvCollect.Util.Sha1Rounds

/-!
# The hash of a string

`SHA1::compute` over a whole string: the loop over the complete blocks, the one
or two blocks behind them, and the bytes of the result. The length of the string
goes through variables of 32 bits, and the upper half of the length field is
never written.
-/

namespace EvCollect
namespace SHA1

open Text
open Hash (absorb absorbAll)
open Hash.Sha1 (Word Registers compress padWith hashWith)

/-- The last eight bytes of the last block, as `compute` writes them. -/
def lengthField (size : Nat) : Bytes :=
  encodeBE 4 0 ++ encodeBE 4 (8 * size)

/-- The number of bytes of a string that `compute` reads. -/
def bytesRead (size : Nat) : Nat :=
  if size % 2 ^ 32 < 2 ^ 31 then size % 2 ^ 32 else 0

@[simp] theorem length_lengthField (size : Nat) :
    (lengthField size).length = 8 := by
  simp [lengthField]

/-! ## The last block -/

/-- Putting a byte behind a text. -/
theorem read_putByte
    {text : Bytes}
    {w : Buffer}
    (holds : ∀ index, index < 16 → w.read index = wordAt text index)
    (room : text.length < 64)
    (byte : UInt8)
    {index : Nat}
    (inBlock : index < 16) :
    (putByte (widen byte) w text.length).read index =
      wordAt (text ++ [byte]) index := by
  have place : text.length >>> 2 = text.length / 4 :=
    Nat.shiftRight_eq_div_pow _ 2
  have lane : text.length &&& 3 = text.length % 4 :=
    Nat.and_two_pow_sub_one_eq_mod _ 2
  have shift : (3 - text.length % 4) <<< 3 = 8 * (3 - text.length % 4) := by
    rw [Nat.shiftLeft_eq, Nat.mul_comm]
  rw [putByte, place, lane, shift, Buffer.read_write _ (by omega),
    wordAt_append_byte]
  by_cases here : text.length / 4 = index
  · rw [if_pos here, if_pos here.symm, here, holds index inBlock]
  · rw [if_neg here, if_neg fun equal => here equal.symm, holds index inBlock]

/-- The last block holds the bytes behind the complete blocks. -/
theorem read_lastBlock
    {sarray : Bytes}
    {currentBlock count : Nat}
    (available : currentBlock + count ≤ sarray.length)
    (room : count < 64)
    (w : Buffer)
    {index : Nat}
    (inBlock : index < 16) :
    (lastBlock sarray currentBlock count (clearWBuffert w)).read index =
      wordAt ((sarray.drop currentBlock).take count) index := by
  induction count generalizing index with
  | zero =>
      rw [List.take_zero, wordAt_nil, lastBlock, List.range_zero,
        List.foldl_nil, read_clearWBuffert w inBlock]
      rfl
  | succ count inductionHypothesis =>
      have held := fun index (inBlock : index < 16) =>
        inductionHypothesis (by omega) (by omega) inBlock
      have size : ((sarray.drop currentBlock).take count).length = count := by
        rw [List.length_take, List.length_drop]
        omega
      have byte : (sarray.drop currentBlock).take (count + 1) =
          (sarray.drop currentBlock).take count ++
            [sarray.getD (count + currentBlock) 0] := by
        have inside : count < (sarray.drop currentBlock).length := by
          rw [List.length_drop]
          omega
        rw [← List.take_append_getElem inside, List.getElem_drop,
          List.getD_eq_getElem?_getD, List.getElem?_eq_getElem (by omega),
          Option.getD_some]
        congr 3
        exact Nat.add_comm _ _
      rw [lastBlock, List.range_succ, List.foldl_append, byte]
      have added := read_putByte held (by omega)
        (sarray.getD (count + currentBlock) 0) inBlock
      rw [size] at added
      exact added

/-! ## The bytes of the result -/

/-- One byte of a word. -/
theorem ofBitVec_shiftRight (word : Word) (shift : Nat) :
    UInt8.ofBitVec ((word >>> shift &&& 0xff).setWidth 8) =
      UInt8.ofNat (word.toNat / 2 ^ shift) := by
  apply UInt8.toNat_inj.mp
  have mask : (0xff : Word).toNat = 2 ^ 8 - 1 := rfl
  rw [UInt8.toNat_ofNat', UInt8.toNat_ofBitVec, BitVec.toNat_setWidth,
    BitVec.toNat_and, mask, Nat.and_two_pow_sub_one_eq_mod, Nat.mod_mod,
    BitVec.toNat_ushiftRight, Nat.shiftRight_eq_div_pow]

/-- The four bytes of a word of the result. -/
theorem outputByte_eq
    (result : Registers)
    (index : Nat)
    {lane : Nat}
    (inWord : lane < 4) :
    outputByte result (4 * index + lane) =
      UInt8.ofNat
        (([result.a, result.b, result.c, result.d, result.e].getD index
          0).toNat / 2 ^ (8 * (3 - lane))) := by
  have place : (4 * index + lane) >>> 2 = index := by
    rw [Nat.shiftRight_eq_div_pow]
    omega
  have shift : ((3 - ((4 * index + lane : Nat) : Int)) % 4).toNat <<< 3 =
      8 * (3 - lane) := by
    rw [Nat.shiftLeft_eq]
    omega
  rw [outputByte, place, shift]
  exact ofBitVec_shiftRight _ _

theorem ofFn_outputByte (result : Registers) :
    (Vector.ofFn fun hashByte : Fin 20 => outputByte result hashByte).toList =
      result.digest := by
  rw [Vector.toList_ofFn]
  simp only [Registers.digest, List.flatMap_cons, List.flatMap_nil,
    encodeBE_four, Nat.div_div_eq_div_mul]
  apply List.ext_getElem (by simp)
  intro place inResult _
  have byte := outputByte_eq result (place / 4)
    (Nat.mod_lt place (by decide : 0 < 4))
  rw [Nat.div_add_mod] at byte
  rw [List.length_ofFn] at inResult
  rw [List.getElem_ofFn, byte]
  interval_cases place <;> simp

/-! ## Behind the complete blocks -/

/-- A padded text, with the upper half of the length among the zeros. -/
theorem padWith_lengthField (size : Nat) (text : Bytes) :
    padWith (lengthField size) text =
      (text ++ [0x80] ++
        List.replicate (Hash.fill 64 text.length 8 + 4) 0) ++
        encodeBE 4 (8 * size) := by
  have upper : encodeBE 4 0 = List.replicate 4 0 := rfl
  rw [padWith, Hash.pad, length_lengthField, lengthField, upper,
    List.replicate_add]
  simp

/-- The block that ends with the length. -/
theorem innerHash_lengthBlock
    (result : Registers)
    {w : Buffer}
    {front : Bytes}
    (size : Nat)
    (complete : front.length = 60)
    (holds : ∀ index, index < 16 → w.read index = wordAt front index) :
    (innerHash result (w.write 15 (BitVec.ofNat 32 (size <<< 3)))).1 =
      compress result (front ++ encodeBE 4 (8 * size)) := by
  apply innerHash_fst
  intro index inBlock
  rw [Buffer.read_write _ (by decide)]
  split
  next last =>
    have aligned : front.length = 4 * 15 := complete
    have field := wordAt_append_right (encodeBE 4 (8 * size)) aligned 0
    rw [← last, field, wordAt_encodeBE, Nat.shiftLeft_eq, Nat.mul_comm]
  next earlier =>
    rw [wordAt_append_left _ _ (by omega), holds index inBlock]

/-- A text that leaves room for the length. -/
theorem innerHash_shortTail
    (result : Registers)
    {w : Buffer}
    {text : Bytes}
    (size : Nat)
    (short : text.length < 56)
    (holds : ∀ index, index < 16 →
      w.read index = wordAt (text ++ [0x80]) index) :
    (innerHash result (w.write 15 (BitVec.ofNat 32 (size <<< 3)))).1 =
      absorbAll 64 compress (padWith (lengthField size) text) result := by
  have zeros : Hash.fill 64 text.length 8 = 55 - text.length := by
    rw [Hash.fill]
    omega
  have complete : (text ++ [0x80] ++
      List.replicate (55 - text.length + 4) (0 : UInt8)).length = 60 := by
    simp only [List.length_append, List.length_singleton,
      List.length_replicate]
    omega
  rw [padWith_lengthField, zeros,
    Hash.absorbAll_block _ (by decide)
      (by rw [List.length_append, complete, length_encodeBE])]
  apply innerHash_lengthBlock result size complete
  intro index inBlock
  rw [wordAt_append_zeros, holds index inBlock]

/-- A text that leaves no room for the length is followed by a block of its own
for it. -/
theorem innerHash_longTail
    (result : Registers)
    {w : Buffer}
    {text : Bytes}
    (size : Nat)
    (long : 56 ≤ text.length)
    (room : text.length < 64)
    (holds : ∀ index, index < 16 →
      w.read index = wordAt (text ++ [0x80]) index) :
    (innerHash (innerHash result w).1
        ((clearWBuffert (innerHash result w).2).write 15
          (BitVec.ofNat 32 (size <<< 3)))).1 =
      absorbAll 64 compress (padWith (lengthField size) text) result := by
  have zeros : Hash.fill 64 text.length 8 + 4 = (63 - text.length) + 60 := by
    rw [Hash.fill]
    omega
  have first : (text ++ [0x80] ++
      List.replicate (63 - text.length) (0 : UInt8)).length = 1 * 64 := by
    simp only [List.length_append, List.length_singleton,
      List.length_replicate]
    omega
  have second : (List.replicate 60 (0 : UInt8)).length = 60 :=
    List.length_replicate
  have blocks : padWith (lengthField size) text =
      (text ++ [0x80] ++ List.replicate (63 - text.length) 0) ++
        (List.replicate 60 0 ++ encodeBE 4 (8 * size)) := by
    rw [padWith_lengthField, zeros, List.replicate_add]
    simp only [List.append_assoc]
  have compressed : (innerHash result w).1 =
      absorb 64 compress 1
        (text ++ [0x80] ++ List.replicate (63 - text.length) 0) result := by
    rw [Hash.absorb, Hash.absorb, List.take_of_length_le first.le]
    apply innerHash_fst
    intro index inBlock
    rw [wordAt_append_zeros, holds index inBlock]
  rw [blocks, Hash.absorbAll_append _ (by decide) first, ← compressed,
    Hash.absorbAll_block _ (by decide)
      (by rw [List.length_append, second, length_encodeBE])]
  apply innerHash_lengthBlock _ size second
  intro index inBlock
  have cleared := wordAt_append_zeros [] 60 index
  rw [List.nil_append, wordAt_nil] at cleared
  rw [cleared, read_clearWBuffert _ inBlock]
  rfl

/-- The rest of a string, which begins at the end of the complete blocks. -/
theorem finish_eq
    {data : Bytes}
    {currentBlock : Nat}
    {endCurrentBlock : Int}
    (result : Registers)
    (w : Buffer)
    (rest : StringUtil.toInt
      (StringUtil.ofInt (data.length - currentBlock)) = endCurrentBlock)
    (available : currentBlock + endCurrentBlock.toNat ≤ data.length)
    (room : endCurrentBlock < 64) :
    (finish data currentBlock result w).hash.toList =
      (absorbAll 64 compress
        (padWith (lengthField data.length)
          ((data.drop currentBlock).take endCurrentBlock.toNat))
        result).digest := by
  have size : ((data.drop currentBlock).take
      endCurrentBlock.toNat).length = endCurrentBlock.toNat := by
    rw [List.length_take, List.length_drop]
    omega
  have held : ∀ index, index < 16 →
      (putByte 0x80 (lastBlock data currentBlock endCurrentBlock.toNat
        (clearWBuffert w)) endCurrentBlock.toNat).read index =
        wordAt ((data.drop currentBlock).take endCurrentBlock.toNat ++
          [0x80]) index := by
    intro index inBlock
    have loaded := fun index (inBlock : index < 16) =>
      read_lastBlock available (by omega) w inBlock
    have marked := read_putByte loaded (by omega) 0x80 inBlock
    rw [size] at marked
    exact marked
  have output : (finish data currentBlock result w).hash.toList = _ :=
    ofFn_outputByte _
  subst rest
  refine output.trans (congrArg Registers.digest ?_)
  split
  next long =>
    dsimp only
    exact innerHash_longTail result data.length (by omega) (by omega) held
  next short =>
    dsimp only
    exact innerHash_shortTail result data.length (by omega) held

/-! ## The complete blocks -/

/-- The loop over the complete blocks that there are. -/
theorem fullBlocks_eq
    (sarray : Bytes)
    (endOfFullBlocks : Int)
    (count fuel currentBlock : Nat)
    (state : Registers × Buffer)
    (enough : count < fuel)
    (available : currentBlock + 64 * count ≤ sarray.length)
    (inRange : currentBlock + 64 * count < 2 ^ 31)
    (before : ∀ block, block < count →
      (currentBlock + 64 * block : Int) ≤ endOfFullBlocks)
    (after : endOfFullBlocks < currentBlock + 64 * count) :
    ∃ w, fullBlocks sarray endOfFullBlocks fuel currentBlock state =
      some (currentBlock + 64 * count,
        absorb 64 compress count (sarray.drop currentBlock) state.1, w) := by
  induction count generalizing fuel currentBlock state with
  | zero =>
      obtain ⟨fuel, rfl⟩ := Nat.exists_eq_add_of_lt enough
      refine ⟨state.2, ?_⟩
      rw [Nat.zero_add, fullBlocks, if_neg (by omega)]
      rfl
  | succ count inductionHypothesis =>
      obtain ⟨fuel, rfl⟩ := Nat.exists_eq_add_of_lt (Nat.zero_lt_of_lt enough)
      have first := before 0 (Nat.succ_pos count)
      have block : (innerHash state.1
          (loadBlock sarray currentBlock state.2)).1 =
            compress state.1 ((sarray.drop currentBlock).take 64) :=
        innerHash_fst _ fun index inBlock =>
          read_loadBlock sarray currentBlock state.2 inBlock
      obtain ⟨w, looped⟩ := inductionHypothesis fuel (currentBlock + 64)
        (innerHash state.1 (loadBlock sarray currentBlock state.2))
        (by omega) (by omega) (by omega)
        (by
          intro block below
          have later := before (block + 1) (by omega)
          omega)
        (by omega)
      refine ⟨w, ?_⟩
      have position : currentBlock + 64 + 64 * count =
          currentBlock + 64 * (count + 1) := by
        omega
      have next : StringUtil.toInt (currentBlock + 64) = (currentBlock + 64 : Nat) :=
        StringUtil.toInt_of_lt (by omega)
      rw [Nat.zero_add, fullBlocks, if_pos (by omega)]
      dsimp only
      rw [next, if_pos (by omega), looped, block, position, absorb, List.drop_drop]

/-- A complete block whose end is no `int` is never left. -/
theorem fullBlocks_eq_none
    (sarray : Bytes)
    {endOfFullBlocks : Int}
    (fuel currentBlock : Nat)
    (state : Registers × Buffer)
    (last : (2 ^ 31 - 64 : Int) ≤ endOfFullBlocks)
    (aligned : 64 ∣ currentBlock)
    (inRange : currentBlock < 2 ^ 31) :
    fullBlocks sarray endOfFullBlocks fuel currentBlock state = none := by
  induction fuel generalizing currentBlock state with
  | zero => rfl
  | succ fuel inductionHypothesis =>
      obtain ⟨blocks, rfl⟩ := aligned
      rw [fullBlocks, if_pos (by omega)]
      dsimp only
      by_cases overflow : 2 ^ 31 ≤ 64 * blocks + 64
      · have wrapped := StringUtil.toInt_of_ge overflow (by omega)
        rw [wrapped, if_neg (by omega)]
        exact inductionHypothesis _ _ ⟨blocks, rfl⟩ inRange
      · have next := StringUtil.toInt_of_lt (Nat.lt_of_not_le overflow)
        rw [next, if_pos (by omega)]
        exact inductionHypothesis _ _ ⟨blocks + 1, rfl⟩ (by omega)

/-! ## Strings -/

/-- What an `int` holds of a difference of sizes. -/
theorem toInt_ofInt
    {difference value : Int}
    (wraps : Int)
    (same : difference = value + 2 ^ 32 * wraps)
    (lower : -2 ^ 31 ≤ value)
    (upper : value < 2 ^ 31) :
    StringUtil.toInt (StringUtil.ofInt difference) = value := by
  unfold StringUtil.toInt StringUtil.ofInt
  rw [Int.toNat_of_nonneg (Int.emod_nonneg _ (by decide)), Int.bmod_def]
  split <;> omega

/-- The hash of a string, taken from the end of its complete blocks. -/
theorem digest_absorbAll_rest
    (field data : Bytes)
    (blocks rest : Nat)
    (available : 64 * blocks + rest ≤ data.length) :
    hashWith field (data.take (64 * blocks + rest)) =
      (absorbAll 64 compress
        (padWith field ((data.drop (64 * blocks)).take rest))
        (absorb 64 compress blocks data Registers.initial)).digest := by
  have complete : (data.take (64 * blocks)).length = blocks * 64 := by
    rw [List.length_take]
    omega
  have absorbed : absorb 64 compress blocks data Registers.initial =
      absorb 64 compress blocks (data.take (64 * blocks))
        Registers.initial := by
    rw [← Hash.absorb_append 64 compress complete.ge (data.drop (64 * blocks)),
      List.take_append_drop]
  rw [hashWith, List.take_add, padWith, Hash.pad_append _ _ _ _ complete,
    Hash.absorbAll_append _ (by decide) complete, ← absorbed, padWith]

/-- A string whose size is not negative as an `int`. -/
theorem compute_of_lt
    (garbage : Buffer)
    {data : Bytes}
    (small : data.length % 2 ^ 32 < 2 ^ 31) :
    (compute garbage data).map (fun hash => hash.hash.toList) =
      some (hashWith (lengthField data.length)
        (data.take (data.length % 2 ^ 32))) := by
  have wraps := Nat.div_add_mod data.length (2 ^ 32)
  generalize data.length % 2 ^ 32 = size at small wraps ⊢
  have last : StringUtil.toInt (StringUtil.ofInt (data.length - 64)) =
      (size : Int) - 64 :=
    toInt_ofInt (data.length / 2 ^ 32 : Nat) (by omega) (by omega) (by omega)
  obtain ⟨w, looped⟩ := fullBlocks_eq data ((size : Int) - 64) (size / 64)
    (data.length / 64 + 1) 0 (Registers.initial, garbage)
    (by omega) (by omega) (by omega) (by intro block below; omega) (by omega)
  rw [Nat.zero_add, List.drop_zero] at looped
  have rest : StringUtil.toInt (StringUtil.ofInt
      (data.length - (64 * (size / 64) : Nat))) = (size % 64 : Nat) :=
    toInt_ofInt (data.length / 2 ^ 32 : Nat) (by omega) (by omega) (by omega)
  have finished := finish_eq
    (absorb 64 compress (size / 64) data Registers.initial) w rest
    (by omega) (by omega)
  have computed : compute garbage data =
      some (finish data (64 * (size / 64))
        (absorb 64 compress (size / 64) data Registers.initial) w) := by
    rw [compute, last, looped]
    rfl
  rw [computed, Option.map_some, finished, Int.toNat_natCast,
    ← digest_absorbAll_rest _ _ _ _ (by omega), Nat.div_add_mod]

/-- A string whose size is negative as an `int`. -/
theorem compute_of_ge
    (garbage : Buffer)
    {data : Bytes}
    (large : 2 ^ 31 + 64 ≤ data.length % 2 ^ 32) :
    (compute garbage data).map (fun hash => hash.hash.toList) =
      some (hashWith (lengthField data.length) []) := by
  have wraps := Nat.div_add_mod data.length (2 ^ 32)
  have below := Nat.mod_lt data.length (by decide : 0 < 2 ^ 32)
  generalize data.length % 2 ^ 32 = size at large wraps below
  have last : StringUtil.toInt (StringUtil.ofInt (data.length - 64)) =
      (size : Int) - 64 - 2 ^ 32 :=
    toInt_ofInt (data.length / 2 ^ 32 + 1 : Nat) (by omega) (by omega)
      (by omega)
  have rest : StringUtil.toInt (StringUtil.ofInt
      (data.length - (0 : Nat))) = (size : Int) - 2 ^ 32 :=
    toInt_ofInt (data.length / 2 ^ 32 + 1 : Nat) (by omega) (by omega)
      (by omega)
  have finished := finish_eq Registers.initial garbage rest (by omega)
    (by omega)
  have none : ((size : Int) - 2 ^ 32).toNat = 0 := by omega
  have computed : compute garbage data =
      some (finish data 0 Registers.initial garbage) := by
    rw [compute, last, fullBlocks, if_neg (by omega)]
    rfl
  rw [computed, Option.map_some, finished, none, List.take_zero, hashWith]

/-- A string whose complete blocks are never left. -/
theorem fullBlocks_endless
    (state : Registers × Buffer)
    {data : Bytes}
    (lower : 2 ^ 31 ≤ data.length % 2 ^ 32)
    (upper : data.length % 2 ^ 32 < 2 ^ 31 + 64)
    (fuel : Nat) :
    fullBlocks data (StringUtil.toInt (StringUtil.ofInt (data.length - 64))) fuel 0
      state = none := by
  have wraps := Nat.div_add_mod data.length (2 ^ 32)
  have last : StringUtil.toInt (StringUtil.ofInt (data.length - 64)) =
      (data.length % 2 ^ 32 : Nat) - 64 :=
    toInt_ofInt (data.length / 2 ^ 32 : Nat) (by omega) (by omega) (by omega)
  rw [last]
  exact fullBlocks_eq_none _ _ _ _ (by omega) (Nat.dvd_zero 64) (by decide)

/-! ## Main results -/

/-- Below the size whose length in bits needs more than a word, the length field
is that of the standard. -/
theorem lengthField_of_lt
    {size : Nat}
    (short : size < 2 ^ 29) :
    lengthField size = Hash.Sha1.lengthField size := by
  rw [Hash.Sha1.lengthField_eq, Nat.div_eq_of_lt (by omega), lengthField]

/-- `compute` is SHA-1 on strings whose length in bits fits into a word,
whatever the round buffer holds before the call. -/
theorem compute_eq_hash
    (garbage : Buffer)
    {data : Bytes}
    (short : data.length < 2 ^ 29) :
    (compute garbage data).map (fun hash => hash.hash.toList) =
      some (Hash.Sha1.hash data) := by
  have size : data.length % 2 ^ 32 = data.length := Nat.mod_eq_of_lt (by omega)
  rw [compute_of_lt garbage (by omega), size, List.take_length,
    lengthField_of_lt short, Hash.Sha1.hash]

theorem compute_eq_hash_abc :
    (compute (Vector.replicate 80 0xdeadbeef) (bytes "abc")).map
        (fun hash => hash.hash.toList) =
      some (Hash.Sha1.hash (bytes "abc")) :=
  compute_eq_hash _ (by decide)

/-- What `compute` does with a string of any length, whatever the round buffer
holds before the call: the loop over the complete blocks never ends, or the bytes
that are read are hashed. -/
theorem compute_eq (garbage : Buffer) (data : Bytes) :
    if 2 ^ 31 ≤ data.length % 2 ^ 32 ∧ data.length % 2 ^ 32 < 2 ^ 31 + 64 then
      ∀ fuel, fullBlocks data
        (StringUtil.toInt (StringUtil.ofInt (data.length - 64))) fuel 0
        (Registers.initial, garbage) = none
    else
      (compute garbage data).map (fun hash => hash.hash.toList) =
        some (hashWith (lengthField data.length)
          (data.take (bytesRead data.length))) := by
  rw [bytesRead]
  split
  next window => exact fullBlocks_endless _ window.1 window.2
  next outside =>
    split
    next small => exact compute_of_lt garbage small
    next large =>
      rw [List.take_zero]
      exact compute_of_ge garbage (by omega)

end SHA1
end EvCollect
