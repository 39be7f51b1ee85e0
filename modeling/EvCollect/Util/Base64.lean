import EvCollect.Util.StringUtil

/-!
# Base64

`Base64::encode` and `Base64::decode`, and for which strings the one undoes the
other. `none` stands for a call that reads outside of the string it was given.
-/

namespace EvCollect
namespace Base64

def chrtbl : Bytes :=
  bytes "ABCDEFGHIJKLMNOPQRSTUVWXYZabcdefghijklmnopqrstuvwxyz0123456789+/"

def pr2six : List UInt8 :=
  [64, 64, 64, 64, 64, 64, 64, 64, 64, 64, 64, 64, 64, 64, 64, 64,
    64, 64, 64, 64, 64, 64, 64, 64, 64, 64, 64, 64, 64, 64, 64, 64,
    64, 64, 64, 64, 64, 64, 64, 64, 64, 64, 64, 62, 64, 64, 64, 63,
    52, 53, 54, 55, 56, 57, 58, 59, 60, 61, 64, 64, 64, 64, 64, 64,
    64, 0, 1, 2, 3, 4, 5, 6, 7, 8, 9, 10, 11, 12, 13, 14,
    15, 16, 17, 18, 19, 20, 21, 22, 23, 24, 25, 64, 64, 64, 64, 64,
    64, 26, 27, 28, 29, 30, 31, 32, 33, 34, 35, 36, 37, 38, 39, 40,
    41, 42, 43, 44, 45, 46, 47, 48, 49, 50, 51, 64, 64, 64, 64, 64,
    64, 64, 64, 64, 64, 64, 64, 64, 64, 64, 64, 64, 64, 64, 64, 64,
    64, 64, 64, 64, 64, 64, 64, 64, 64, 64, 64, 64, 64, 64, 64, 64,
    64, 64, 64, 64, 64, 64, 64, 64, 64, 64, 64, 64, 64, 64, 64, 64,
    64, 64, 64, 64, 64, 64, 64, 64, 64, 64, 64, 64, 64, 64, 64, 64,
    64, 64, 64, 64, 64, 64, 64, 64, 64, 64, 64, 64, 64, 64, 64, 64,
    64, 64, 64, 64, 64, 64, 64, 64, 64, 64, 64, 64, 64, 64, 64, 64,
    64, 64, 64, 64, 64, 64, 64, 64, 64, 64, 64, 64, 64, 64, 64, 64,
    64, 64, 64, 64, 64, 64, 64, 64, 64, 64, 64, 64, 64, 64, 64, 64]

/-- `pr2six[byte]`. The table has an entry for every byte. -/
def six (byte : UInt8) : UInt8 :=
  pr2six.getD byte.toNat 64

/-- A `char`, which is signed, as an `int`. -/
def promote (byte : UInt8) : Int32 :=
  byte.toInt8.toInt32

/-- `chrtbl[index]`. -/
def letter (index : Int32) : UInt8 :=
  chrtbl.getD index.toInt.toNat 0

/-! ## Encoding -/

/-- The first two bits of an index, from the last ones of a byte. -/
def high (byte : UInt8) : Int32 :=
  (promote byte &&& 0x3) <<< 4

/-- The first four bits of an index. -/
def middle (byte : UInt8) : Int32 :=
  (promote byte &&& 0xF) <<< 2

/-- The lines of `encode` behind its loop, with what is left of the string. -/
def encodeTail (len i : Nat) (s : Bytes) : Option Bytes :=
  if i < len then
    match s with
    | [] => none
    | first :: rest =>
        let start := letter ((promote first >>> 2) &&& 0x3F)
        if i = len - 1 then some [start, letter (high first), 0x3d, 0x3d]
        else
          match rest with
          | [] => none
          | second :: _ =>
              some [start,
                letter (high first ||| ((promote second &&& 0xF0) >>> 4)),
                letter (middle second), 0x3d]
  else some []

/-- `len - 2` of a `size_t`. -/
def lessTwo (len : Nat) : Nat :=
  (len + (2 ^ 64 - 2)) % 2 ^ 64

/-- The loop of `encode`, with what is left of the string. -/
def encodeLoop (len : Nat) : Nat → Bytes → Option Bytes
  | i, first :: second :: third :: s =>
      if i < lessTwo len then
        (encodeLoop len (i + 3) s).map
          ([letter ((promote first >>> 2) &&& 0x3F),
            letter (high first ||| ((promote second &&& 0xF0) >>> 4)),
            letter (middle second ||| ((promote third &&& 0xC0) >>> 6)),
            letter (promote third &&& 0x3F)] ++ ·)
      else encodeTail len i (first :: second :: third :: s)
  | i, s =>
      if i < lessTwo len then none
      else encodeTail len i s

/-- `Base64::encode`. -/
def encode (s : Bytes) : Option Bytes :=
  encodeLoop s.length 0 s

/-! ## Decoding -/

/-- A byte of the output: its first bits are in one character of the input, and
its last bits are in the next. -/
def join (first second left right : UInt8) : UInt8 :=
  (six first <<< left) ||| (six second >>> right)

/-- A byte of the input. Behind it stands a zero. -/
def byteAt (bufin : Bytes) (index : Nat) : UInt8 :=
  bufin.getD index 0

/-- The lines of `decode` behind its loop, with what is left of the input. -/
def decodeTail (nprbytes : Int) (bufin out : Bytes) : Bytes :=
  out ++
    (if 1 < nprbytes then [join (byteAt bufin 0) (byteAt bufin 1) 2 4] else []) ++
    (if 2 < nprbytes then [join (byteAt bufin 1) (byteAt bufin 2) 4 2] else []) ++
    (if 3 < nprbytes then [join (byteAt bufin 2) (byteAt bufin 3) 6 0] else [])

/-- The loop of `decode`, with what is left of the input. -/
def decodeLoop : Int → Bytes → Bytes → Option Bytes
  | nprbytes, a :: b :: c :: d :: bufin, out =>
      if 4 < nprbytes then
        decodeLoop (nprbytes - 4) bufin
          (out ++ [join a b 2 4, join b c 4 2, join c d 6 0])
      else some (decodeTail nprbytes (a :: b :: c :: d :: bufin) out)
  | nprbytes, bufin, out =>
      if 4 < nprbytes then none
      else some (decodeTail nprbytes bufin out)

/-- The number of characters up to the first one that is not in the alphabet. -/
def coded (input : Bytes) : Nat :=
  (input.takeWhile fun byte => six byte ≤ 63).length

/-- `Base64::decode`, which keeps the number of characters in an `int`. -/
def decode (input out : Bytes) : Option Bytes :=
  decodeLoop (StringUtil.toInt (coded input)) input out

/-! ## Indices of characters -/

theorem forall_byte
    {holds : UInt8 → Prop}
    (all : ∀ number : Fin 256, holds (UInt8.ofNat number))
    (byte : UInt8) : holds byte := by
  have holdsHere := all ⟨byte.toNat, byte.toNat_lt⟩
  rwa [UInt8.ofNat_toNat] at holdsHere

/-- The operations on the bits of a byte, in decimal arithmetic. -/
theorem bits (byte : UInt8) :
    ((promote byte >>> 2) &&& 0x3F).toInt.toNat = byte.toNat / 4 ∧
      (promote byte &&& 0x3F).toInt.toNat = byte.toNat % 64 ∧
      high byte = Int32.ofNat (byte.toNat % 4 * 16) ∧
      middle byte = Int32.ofNat (byte.toNat % 16 * 4) ∧
      (promote byte &&& 0xF0) >>> 4 = Int32.ofNat (byte.toNat / 16) ∧
      (promote byte &&& 0xC0) >>> 6 = Int32.ofNat (byte.toNat / 64) := by
  revert byte
  exact forall_byte (by decide +kernel)

/-- Bits of an index that are put together. -/
theorem or_bits :
    (∀ left : Fin 4, ∀ right : Fin 16,
      (Int32.ofNat (left * 16) ||| Int32.ofNat right).toInt.toNat =
        left * 16 + right) ∧
    (∀ left : Fin 16, ∀ right : Fin 4,
      (Int32.ofNat (left * 4) ||| Int32.ofNat right).toInt.toNat =
        left * 4 + right) := by
  decide +kernel

theorem toNat_first (byte : UInt8) :
    ((promote byte >>> 2) &&& 0x3F).toInt.toNat = byte.toNat / 4 :=
  (bits byte).1

theorem toNat_last (byte : UInt8) :
    (promote byte &&& 0x3F).toInt.toNat = byte.toNat % 64 :=
  (bits byte).2.1

theorem toNat_high_or (first second : UInt8) :
    (high first ||| ((promote second &&& 0xF0) >>> 4)).toInt.toNat =
      first.toNat % 4 * 16 + second.toNat / 16 := by
  obtain ⟨-, -, highEq, -⟩ := bits first
  obtain ⟨-, -, -, -, lowEq, -⟩ := bits second
  rw [highEq, lowEq]
  exact or_bits.1 ⟨_, Nat.mod_lt _ (by decide)⟩
    ⟨second.toNat / 16, Nat.div_lt_of_lt_mul second.toNat_lt⟩

theorem toNat_middle_or (second third : UInt8) :
    (middle second ||| ((promote third &&& 0xC0) >>> 6)).toInt.toNat =
      second.toNat % 16 * 4 + third.toNat / 64 := by
  obtain ⟨-, -, -, middleEq, -⟩ := bits second
  obtain ⟨-, -, -, -, -, lowEq⟩ := bits third
  rw [middleEq, lowEq]
  exact or_bits.2 ⟨_, Nat.mod_lt _ (by decide)⟩
    ⟨third.toNat / 64, Nat.div_lt_of_lt_mul third.toNat_lt⟩

theorem toNat_high (byte : UInt8) :
    (high byte).toInt.toNat = byte.toNat % 4 * 16 := by
  obtain ⟨-, -, highEq, -⟩ := bits byte
  rw [highEq, Int32.toInt_ofNat_of_lt (by omega)]
  rfl

theorem toNat_middle (byte : UInt8) :
    (middle byte).toInt.toNat = byte.toNat % 16 * 4 := by
  obtain ⟨-, -, -, middleEq, -⟩ := bits byte
  rw [middleEq, Int32.toInt_ofNat_of_lt (by omega)]
  rfl

/-! ## Characters -/

/-- The character for six bits. -/
def charOf (bits : Nat) : UInt8 :=
  chrtbl.getD bits 0

theorem letter_eq
    {index : Int32}
    {bits : Nat}
    (same : index.toInt.toNat = bits) :
    letter index = charOf bits := by
  rw [letter, same, charOf]

theorem mem_chrtbl
    {bits : Nat}
    (small : bits < 64) :
    charOf bits ∈ chrtbl := by
  have length : chrtbl.length = 64 := rfl
  rw [charOf, List.getD_eq_getElem?_getD, List.getElem?_eq_getElem (by omega)]
  exact List.getElem_mem _

theorem six_charOf
    {bits : Nat}
    (small : bits < 64) :
    six (charOf bits) = UInt8.ofNat bits := by
  have all : ∀ number : Fin 64,
      six (charOf number) = UInt8.ofNat number := by
    decide +kernel
  exact all ⟨bits, small⟩

/-- Bits that are moved up, and bits below them. -/
theorem toNat_shiftLeft_or
    (left right shift : UInt8)
    (small : shift.toNat < 8)
    (fits : right.toNat < 2 ^ shift.toNat) :
    ((left <<< shift) ||| right).toNat =
      left.toNat % 2 ^ (8 - shift.toNat) * 2 ^ shift.toNat + right.toNat := by
  have split : 2 ^ 8 = 2 ^ (8 - shift.toNat) * 2 ^ shift.toNat := by
    rw [← Nat.pow_add, Nat.sub_add_cancel (Nat.le_of_lt small)]
  rw [UInt8.toNat_or, UInt8.toNat_shiftLeft, Nat.mod_eq_of_lt small,
    Nat.shiftLeft_eq, split, Nat.mul_mod_mul_right, Nat.mul_comm,
    Nat.two_pow_add_eq_or_of_lt fits]

section

variable {first second : Nat}

theorem toNat_join
    (firstSmall : first < 64)
    (secondSmall : second < 64)
    {left right : UInt8}
    (leftSmall : left.toNat < 8)
    (rightSmall : right.toNat < 8)
    (fits : second / 2 ^ right.toNat < 2 ^ left.toNat) :
    (join (charOf first) (charOf second) left right).toNat =
      first % 2 ^ (8 - left.toNat) * 2 ^ left.toNat + second / 2 ^ right.toNat := by
  have low : (UInt8.ofNat second >>> right).toNat = second / 2 ^ right.toNat := by
    rw [UInt8.toNat_shiftRight,
      UInt8.toNat_ofNat_of_lt' (Nat.lt_trans secondSmall (by decide)),
      Nat.mod_eq_of_lt rightSmall, Nat.shiftRight_eq_div_pow]
  rw [join, six_charOf firstSmall, six_charOf secondSmall,
    toNat_shiftLeft_or _ _ _ leftSmall (by rwa [low]), low,
    UInt8.toNat_ofNat_of_lt' (Nat.lt_trans firstSmall (by decide))]

theorem join_two_four
    (firstSmall : first < 64)
    (secondSmall : second < 64) :
    (join (charOf first) (charOf second) 2 4).toNat = first * 4 + second / 16 := by
  have joined : (join (charOf first) (charOf second) 2 4).toNat =
      first % 64 * 4 + second / 16 :=
    toNat_join firstSmall secondSmall (by decide) (by decide)
      (Nat.div_lt_of_lt_mul secondSmall)
  rwa [Nat.mod_eq_of_lt firstSmall] at joined

theorem join_four_two
    (firstSmall : first < 64)
    (secondSmall : second < 64) :
    (join (charOf first) (charOf second) 4 2).toNat =
      first % 16 * 16 + second / 4 :=
  toNat_join firstSmall secondSmall (by decide) (by decide)
    (Nat.div_lt_of_lt_mul secondSmall)

theorem join_six_zero
    (firstSmall : first < 64)
    (secondSmall : second < 64) :
    (join (charOf first) (charOf second) 6 0).toNat = first % 4 * 64 + second := by
  have joined : (join (charOf first) (charOf second) 6 0).toNat =
      first % 4 * 64 + second / 1 :=
    toNat_join firstSmall secondSmall (by decide) (by decide)
      (Nat.div_lt_of_lt_mul secondSmall)
  rwa [Nat.div_one] at joined

end

/-! ## What is encoded -/

/-- The characters of the encoding of a string without its padding. -/
def letters : Bytes → Bytes
  | [] => []
  | [a] => [charOf (a.toNat / 4), charOf (a.toNat % 4 * 16)]
  | [a, b] =>
      [charOf (a.toNat / 4), charOf (a.toNat % 4 * 16 + b.toNat / 16),
        charOf (b.toNat % 16 * 4)]
  | a :: b :: c :: s =>
      charOf (a.toNat / 4) :: charOf (a.toNat % 4 * 16 + b.toNat / 16) ::
        charOf (b.toNat % 16 * 4 + c.toNat / 64) :: charOf (c.toNat % 64) ::
          letters s

/-- The padding of the encoding of a string. -/
def padding (s : Bytes) : Bytes :=
  List.replicate ((3 - s.length % 3) % 3) 0x3d

theorem padding_cons (a b c : UInt8) (s : Bytes) :
    padding (a :: b :: c :: s) = padding s := by
  simp only [padding, List.length_cons, Nat.add_assoc, Nat.reduceAdd,
    Nat.add_mod_right]

theorem length_letters (s : Bytes) :
    (letters s).length + (padding s).length = 4 * ((s.length + 2) / 3) := by
  rw [padding, List.length_replicate]
  fun_induction letters s with
  | case1 => rfl
  | case2 a => simp
  | case3 a b => simp
  | case4 a b c s inductionHypothesis =>
      simp only [List.length_cons]
      omega

theorem letters_mem (s : Bytes) :
    ∀ char ∈ letters s, char ∈ chrtbl := by
  fun_induction letters s with
  | case1 => exact nofun
  | case2 a =>
      have := a.toNat_lt
      simp only [List.forall_mem_cons]
      exact ⟨mem_chrtbl (by omega), mem_chrtbl (by omega), nofun⟩
  | case3 a b =>
      have := a.toNat_lt
      have := b.toNat_lt
      simp only [List.forall_mem_cons]
      exact ⟨mem_chrtbl (by omega), mem_chrtbl (by omega), mem_chrtbl (by omega),
        nofun⟩
  | case4 a b c s inductionHypothesis =>
      have := a.toNat_lt
      have := b.toNat_lt
      have := c.toNat_lt
      simp only [List.forall_mem_cons]
      exact ⟨mem_chrtbl (by omega), mem_chrtbl (by omega), mem_chrtbl (by omega),
        mem_chrtbl (by omega), inductionHypothesis⟩

theorem lessTwo_eq
    {len : Nat}
    (enough : 2 ≤ len)
    (fits : len < 2 ^ 64) :
    lessTwo len = len - 2 := by
  rw [lessTwo]
  omega

theorem encodeLoop_of_lt
    {len i : Nat}
    (goesOn : i < lessTwo len)
    (a b c : UInt8)
    (s : Bytes) :
    encodeLoop len i (a :: b :: c :: s) =
      (encodeLoop len (i + 3) s).map
        ([charOf (a.toNat / 4), charOf (a.toNat % 4 * 16 + b.toNat / 16),
          charOf (b.toNat % 16 * 4 + c.toNat / 64), charOf (c.toNat % 64)] ++ ·) := by
  rw [← letter_eq (toNat_first a), ← letter_eq (toNat_high_or a b),
    ← letter_eq (toNat_middle_or b c), ← letter_eq (toNat_last c)]
  exact if_pos goesOn

theorem encodeLoop_of_short
    {len i : Nat}
    (ends : ¬ i < lessTwo len)
    {s : Bytes}
    (short : s.length < 3) :
    encodeLoop len i s = encodeTail len i s :=
  match s, short with
  | [], _ | [_], _ | [_, _], _ => if_neg ends

theorem encodeTail_one
    {len i : Nat}
    (last : len = i + 1)
    (a : UInt8) :
    encodeTail len i [a] = some (letters [a] ++ [0x3d, 0x3d]) := by
  rw [encodeTail, if_pos (by omega)]
  dsimp only
  rw [if_pos (by omega), letter_eq (toNat_first a), letter_eq (toNat_high a)]
  rfl

theorem encodeTail_two
    {len i : Nat}
    (last : len = i + 2)
    (a b : UInt8) :
    encodeTail len i [a, b] = some (letters [a, b] ++ [0x3d]) := by
  rw [encodeTail, if_pos (by omega)]
  dsimp only
  rw [if_neg (by omega), letter_eq (toNat_first a), letter_eq (toNat_high_or a b),
    letter_eq (toNat_middle b)]
  rfl

/-- With two bytes or more the bound of the loop does not wrap around. -/
theorem encode_eq
    {s : Bytes}
    (enough : 2 ≤ s.length)
    (fits : s.length < 2 ^ 64) :
    encode s = some (letters s ++ padding s) := by
  have bound := lessTwo_eq enough fits
  have loop : ∀ (rest : Bytes) (i : Nat), i + rest.length = s.length →
      encodeLoop s.length i rest = some (letters rest ++ padding rest) := by
    intro rest
    fun_induction letters rest with
    | case1 =>
        intro i atEnd
        rw [List.length_nil] at atEnd
        have ends : ¬ i < lessTwo s.length := by omega
        rw [encodeLoop_of_short ends (by decide), encodeTail, if_neg (by omega)]
        rfl
    | case2 a =>
        intro i atEnd
        rw [List.length_singleton] at atEnd
        have ends : ¬ i < lessTwo s.length := by omega
        rw [encodeLoop_of_short ends (by simp), encodeTail_one atEnd.symm]
        rfl
    | case3 a b =>
        intro i atEnd
        simp only [List.length_cons, List.length_nil] at atEnd
        have ends : ¬ i < lessTwo s.length := by omega
        rw [encodeLoop_of_short ends (by simp), encodeTail_two atEnd.symm]
        rfl
    | case4 a b c rest inductionHypothesis =>
        intro i atEnd
        simp only [List.length_cons] at atEnd
        have goesOn : i < lessTwo s.length := by omega
        rw [encodeLoop_of_lt goesOn, inductionHypothesis (i + 3) (by omega),
          padding_cons]
        rfl
  exact loop s 0 (Nat.zero_add _)

/-! ## What is decoded -/

section

variable {byte : UInt8}
variable {left right : Nat}

theorem join_first
    (small : right < 16) :
    join (charOf (byte.toNat / 4)) (charOf (byte.toNat % 4 * 16 + right)) 2 4 =
      byte := by
  have bound := byte.toNat_lt
  rw [← UInt8.toNat_inj, join_two_four (by omega) (by omega)]
  omega

theorem join_second
    (leftSmall : left < 4)
    (rightSmall : right < 4) :
    join (charOf (left * 16 + byte.toNat / 16))
      (charOf (byte.toNat % 16 * 4 + right)) 4 2 = byte := by
  have bound := byte.toNat_lt
  rw [← UInt8.toNat_inj, join_four_two (by omega) (by omega)]
  omega

theorem join_third
    (small : left < 16) :
    join (charOf (left * 4 + byte.toNat / 64)) (charOf (byte.toNat % 64)) 6 0 =
      byte := by
  have bound := byte.toNat_lt
  rw [← UInt8.toNat_inj, join_six_zero (by omega) (by omega)]
  omega

end

/-- Three bytes are decoded from their four characters. -/
theorem join_group (a b c : UInt8) :
    [join (charOf (a.toNat / 4)) (charOf (a.toNat % 4 * 16 + b.toNat / 16)) 2 4,
      join (charOf (a.toNat % 4 * 16 + b.toNat / 16))
        (charOf (b.toNat % 16 * 4 + c.toNat / 64)) 4 2,
      join (charOf (b.toNat % 16 * 4 + c.toNat / 64)) (charOf (c.toNat % 64)) 6 0] =
      [a, b, c] := by
  have boundB := b.toNat_lt
  have boundC := c.toNat_lt
  rw [join_first (by omega), join_second (by omega) (by omega),
    join_third (by omega)]

theorem letters_ne_nil
    {s : Bytes}
    (nonempty : s ≠ []) :
    0 < (letters s).length := by
  match s with
  | [] => exact absurd rfl nonempty
  | [_] | [_, _] | _ :: _ :: _ :: _ => simp [letters]

/-- What is encoded is decoded. -/
theorem decodeLoop_letters (s out : Bytes) :
    decodeLoop (letters s).length (letters s ++ padding s) out = some (out ++ s) := by
  fun_induction letters s generalizing out with
  | case1 => simp [decodeLoop, decodeTail, padding]
  | case2 a =>
      have first := @join_first a 0 (by decide)
      rw [Nat.add_zero] at first
      simp [decodeLoop, decodeTail, byteAt, padding, first]
  | case3 a b =>
      have bound := b.toNat_lt
      have first := @join_first a (b.toNat / 16) (by omega)
      have second := @join_second b (a.toNat % 4) 0 (by omega) (by decide)
      rw [Nat.add_zero] at second
      simp [decodeLoop, decodeTail, byteAt, padding, first, second]
  | case4 a b c rest inductionHypothesis =>
      rw [padding_cons]
      by_cases isLast : rest = []
      · subst isLast
        have group := join_group a b c
        simpa [decodeLoop, decodeTail, byteAt, letters, padding] using group
      · have more := letters_ne_nil isLast
        have loops : (4 : Int) < ((letters rest).length + 1 + 1 + 1 + 1 : Nat) := by
          omega
        have left : (((letters rest).length + 1 + 1 + 1 + 1 : Nat) : Int) - 4 =
            (letters rest).length := by
          omega
        simp only [List.length_cons, List.cons_append]
        rw [decodeLoop, if_pos loops, left, join_group, inductionHypothesis,
          List.append_assoc]
        rfl

/-- The number of characters is the number of letters. -/
theorem coded_letters
    {text : Bytes}
    (inAlphabet : ∀ char ∈ text, char ∈ chrtbl)
    (s : Bytes) :
    coded (text ++ padding s) = text.length := by
  have table : (chrtbl.all fun char => six char ≤ 63) = true := by
    decide +kernel
  have inText : ∀ char ∈ text, decide (six char ≤ 63) = true :=
    fun char member => List.all_eq_true.mp table char (inAlphabet char member)
  have noPadding : ¬ decide (six 0x3d ≤ 63) = true := by decide
  rw [coded, List.takeWhile_append_of_pos inText, padding,
    List.takeWhile_replicate, if_neg noPadding, List.append_nil]

/-- What is decoded has three bytes for four characters, and no more. -/
theorem length_decodeLoop_le
    {nprbytes : Int}
    {input out output : Bytes}
    (decoded : decodeLoop nprbytes input out = some output) :
    (output.length : Int) ≤ out.length + max 0 (3 * nprbytes / 4) := by
  have tail : ∀ (nprbytes : Int) (bufin out : Bytes), ¬ 4 < nprbytes →
      ((decodeTail nprbytes bufin out).length : Int) ≤
        out.length + max 0 (3 * nprbytes / 4) := by
    intro nprbytes bufin out short
    simp only [decodeTail, List.length_append]
    split <;> split <;> split <;>
      simp only [List.length_cons, List.length_nil] <;> omega
  fun_induction decodeLoop nprbytes input out with
  | case1 nprbytes a b c d bufin out long inductionHypothesis =>
      have more := inductionHypothesis decoded
      simp only [List.length_append, List.length_cons, List.length_nil] at more
      omega
  | case2 nprbytes a b c d bufin out short =>
      cases decoded
      exact tail _ _ _ short
  | case3 => cases decoded
  | case4 nprbytes bufin out noGroup short =>
      cases decoded
      exact tail _ _ _ short

/-! ## Round trips -/

theorem encodeLoop_none
    {len i : Nat}
    (goesOn : i < lessTwo len)
    {s : Bytes}
    (short : s.length < 3) :
    encodeLoop len i s = none :=
  match s, short with
  | [], _ | [_], _ | [_, _], _ => if_pos goesOn

/-- With less than two bytes it does. -/
theorem encode_none
    {s : Bytes}
    (short : s.length < 2) :
    encode s = none := by
  have wraps : 0 < lessTwo s.length := by
    rw [lessTwo]
    omega
  exact encodeLoop_none wraps (by omega)

/-- That `encode` reads the string only, and writes letters of the alphabet and the
padding for it, four characters for three bytes, from which `decode` restores the
string. -/
structure Encodes (s text : Bytes) : Prop where
  reads : encode s = some (text ++ padding s)
  alphabet : ∀ char ∈ text, char ∈ chrtbl
  length : (text ++ padding s).length = 4 * ((s.length + 2) / 3)
  restores : decode (text ++ padding s) [] = some s

theorem length_padding (s : Bytes) :
    (padding s).length = (3 - s.length % 3) % 3 :=
  List.length_replicate

theorem encodes_letters
    {s : Bytes}
    (enough : 2 ≤ s.length)
    (short : s.length < 3 * 2 ^ 29) :
    Encodes s (letters s) := by
  have length := length_letters s
  refine ⟨encode_eq enough (by omega), letters_mem s, ?_, ?_⟩
  · rw [List.length_append, length]
  · rw [length_padding] at length
    rw [decode, coded_letters (letters_mem s),
      StringUtil.toInt_of_lt (by omega), decodeLoop_letters, List.nil_append]

/-- Encoding and decoding is a round trip if and only if the string has two bytes
or more, and less than 2^31 characters encode it. -/
theorem encodes_iff (s : Bytes) :
    (∃ text, Encodes s text) ↔ 2 ≤ s.length ∧ s.length < 3 * 2 ^ 29 := by
  constructor
  · rintro ⟨text, encodes⟩
    constructor
    · by_contra short
      have read := encodes.reads
      rw [encode_none (by omega)] at read
      cases read
    · have restored := encodes.restores
      rw [decode, coded_letters encodes.alphabet] at restored
      have short := length_decodeLoop_le restored
      have length := encodes.length
      rw [List.length_append, length_padding] at length
      rw [List.length_nil] at short
      by_contra long
      have wraps := @StringUtil.toInt_le_of_ge text.length (by omega)
      omega
  · rintro ⟨enough, short⟩
    exact ⟨letters s, encodes_letters enough short⟩

/-- For the empty string and for a single byte the bound of the loop of `encode`
wraps around: it reads behind the string. -/
theorem not_encodes_empty :
    encode [] = none ∧ ¬ ∃ text, Encodes [] text := by
  have outside : encode [] = none := encode_none (by decide)
  refine ⟨outside, ?_⟩
  rintro ⟨text, encodes⟩
  have read := encodes.reads
  rw [outside] at read
  cases read

end Base64
end EvCollect
