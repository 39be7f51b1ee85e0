import EvCollect.Util.Sha1

/-!
# Hashes as text

`SHA1Hash::toString` and `SHA1Hash::fromHexString`: the text of a hash is read
back, and a text of forty hexadecimal digits is that of the hash it is read as,
but for the case of its letters.
-/

namespace EvCollect
namespace SHA1Hash

/-- The byte that `fromHexString` reads at an index. -/
def pairAt (str : Bytes) (index : Nat) : UInt8 :=
  decodeChar (str.getD (2 * index) 0) <<< 4 +
    decodeChar (str.getD (2 * index + 1) 0)

/-- The two digits of a byte. -/
def hexByte (byte : UInt8) : Bytes :=
  [hexTable.getD ((byte &&& 0xf0) >>> 4).toNat 0,
    hexTable.getD (byte &&& 0x0f).toNat 0]

def IsHexDigit (c : UInt8) : Prop :=
  '0'.toUInt8 ≤ c ∧ c ≤ '9'.toUInt8 ∨ 'A'.toUInt8 ≤ c ∧ c ≤ 'F'.toUInt8 ∨
    'a'.toUInt8 ≤ c ∧ c ≤ 'f'.toUInt8

instance (c : UInt8) : Decidable (IsHexDigit c) :=
  inferInstanceAs (Decidable (_ ∨ _ ∨ _))

/-- A letter in lower case. -/
def lower (c : UInt8) : UInt8 :=
  if 'A'.toUInt8 ≤ c ∧ c ≤ 'F'.toUInt8 then c + 32 else c

/-! ## Digits -/

/-- The digits of a byte are read back. -/
theorem decodeChar_hexByte (byte : UInt8) :
    decodeChar (hexTable.getD ((byte &&& 0xf0) >>> 4).toNat 0) <<< 4 +
      decodeChar (hexTable.getD (byte &&& 0x0f).toNat 0) = byte := by
  have each : ∀ number : Fin 256,
      decodeChar (hexTable.getD
          ((UInt8.ofNat number &&& 0xf0) >>> 4).toNat 0) <<< 4 +
        decodeChar (hexTable.getD (UInt8.ofNat number &&& 0x0f).toNat 0) =
          UInt8.ofNat number := by
    decide +kernel
  have here := each ⟨byte.toNat, byte.toNat_lt⟩
  rwa [UInt8.ofNat_toNat] at here

/-- A digit has a value below sixteen, and is the digit of that value. -/
theorem decodeChar_of_isHexDigit
    {c : UInt8}
    (digit : IsHexDigit c) :
    (decodeChar c).toNat < 16 ∧
      hexTable.getD (decodeChar c).toNat 0 = lower c := by
  have each : ∀ number : Fin 256, IsHexDigit (UInt8.ofNat number) →
      (decodeChar (UInt8.ofNat number)).toNat < 16 ∧
        hexTable.getD (decodeChar (UInt8.ofNat number)).toNat 0 =
          lower (UInt8.ofNat number) := by
    decide +kernel
  have here := each ⟨c.toNat, c.toNat_lt⟩
  rw [UInt8.ofNat_toNat] at here
  exact here digit

/-- The halves of a byte that is put together from two digits. -/
theorem hexByte_add
    {high low : UInt8}
    (highSmall : high.toNat < 16)
    (lowSmall : low.toNat < 16) :
    hexByte (high <<< 4 + low) =
      [hexTable.getD high.toNat 0, hexTable.getD low.toNat 0] := by
  have each : ∀ high low : Fin 16,
      hexByte (UInt8.ofNat high <<< 4 + UInt8.ofNat low) =
        [hexTable.getD (UInt8.ofNat high).toNat 0,
          hexTable.getD (UInt8.ofNat low).toNat 0] := by
    decide +kernel
  have here := each ⟨high.toNat, highSmall⟩ ⟨low.toNat, lowSmall⟩
  rwa [UInt8.ofNat_toNat, UInt8.ofNat_toNat] at here

/-! ## The loop -/

/-- The number of passes, and the bytes that they store. -/
theorem decodeLoop_spec
    (str : Bytes)
    (passes off : Nat)
    (hash : Vector UInt8 20) :
    (decodeLoop str passes (2 * off) off hash).1 =
        off + min passes ((str.length + 1) / 2 - off) ∧
      ∀ index, (decodeLoop str passes (2 * off) off hash).2[index]? =
        if off ≤ index ∧ index < 20 ∧
            index < off + min passes ((str.length + 1) / 2 - off) then
          some (pairAt str index)
        else hash[index]? := by
  induction passes generalizing off hash with
  | zero =>
      rw [decodeLoop, Nat.zero_min, Nat.add_zero]
      exact ⟨rfl, fun index => (if_neg (by omega)).symm⟩
  | succ passes inductionHypothesis =>
      rw [decodeLoop]
      split
      next inside =>
        obtain ⟨stop, stored⟩ := inductionHypothesis (off + 1)
          (hash.setIfInBounds off (pairAt str off))
        constructor
        · exact stop.trans (by omega)
        · intro index
          refine (stored index).trans ?_
          rw [Vector.getElem?_setIfInBounds]
          rcases Nat.lt_trichotomy index off with before | rfl | later
          · rw [if_neg (by omega), if_neg (by omega), if_neg (by omega)]
          · rw [if_neg (by omega), if_pos rfl]
            by_cases inHash : index < 20
            · rw [if_pos inHash, if_pos (by omega)]
            · rw [if_neg inHash, if_neg (by omega),
                Vector.getElem?_eq_none (by omega)]
          · rw [if_neg (by omega : ¬ off = index)]
            congr 1
            exact propext (by omega)
      next past =>
        have none : (str.length + 1) / 2 - off = 0 := by omega
        rw [none, Nat.min_zero, Nat.add_zero]
        exact ⟨rfl, fun index => (if_neg (by omega)).symm⟩

/-- A text is accepted if it has a digit for each byte, of which the last one
may be missing. -/
theorem fromHexString_fst (str : Bytes) (hash : SHA1Hash) :
    (fromHexString str hash).1 = decide (39 ≤ str.length) := by
  apply decide_eq_decide.mpr
  change (decodeLoop str 20 (2 * 0) 0 hash.hash).1 = 20 ↔ 39 ≤ str.length
  rw [(decodeLoop_spec str 20 0 hash.hash).1]
  omega

/-- The bytes of an accepted text. -/
theorem fromHexString_snd
    {str : Bytes}
    (long : 39 ≤ str.length)
    (hash : SHA1Hash) :
    (fromHexString str hash).2.hash.toList =
      (List.range 20).map (pairAt str) := by
  have stored := (decodeLoop_spec str 20 0 hash.hash).2
  apply List.ext_getElem?
  intro index
  rw [Vector.getElem?_toList]
  refine (stored index).trans ?_
  rw [List.getElem?_map]
  by_cases inHash : index < 20
  · rw [if_pos (by omega), List.getElem?_range inHash, Option.map_some]
  · rw [if_neg (by omega), Vector.getElem?_eq_none (by omega),
      List.getElem?_eq_none (by simpa using inHash), Option.map_none]

theorem length_flatMap_hexByte (text : Bytes) :
    (text.flatMap hexByte).length = 2 * text.length := by
  induction text with
  | nil => rfl
  | cons byte text inductionHypothesis =>
      rw [List.flatMap_cons, List.length_append, inductionHypothesis,
        List.length_cons, hexByte]
      rw [List.length_cons, List.length_cons, List.length_nil]
      omega

/-- A byte is read from its digits. -/
theorem pairAt_flatMap_hexByte
    (text suffix : Bytes)
    {index : Nat}
    (inside : index < text.length) :
    pairAt (text.flatMap hexByte ++ suffix) index = text[index] := by
  induction text generalizing index with
  | nil => exact absurd inside (Nat.not_lt_zero _)
  | cons byte text inductionHypothesis =>
      cases index with
      | zero => exact decodeChar_hexByte byte
      | succ index =>
          rw [List.getElem_cons_succ,
            ← inductionHypothesis (Nat.lt_of_succ_lt_succ inside)]
          rfl

theorem length_toString (hash : SHA1Hash) : (toString hash).length = 40 := by
  rw [toString]
  exact (length_flatMap_hexByte hash.hash.toList).trans
    (congrArg (2 * ·) hash.hash.length_toList)

/-- Two digits for each byte. -/
theorem flatMap_lower
    (str : Bytes)
    {count : Nat}
    (long : 2 * count ≤ str.length) :
    ((List.range count).flatMap fun index =>
        [lower (str.getD (2 * index) 0), lower (str.getD (2 * index + 1) 0)]) =
      (str.take (2 * count)).map lower := by
  induction count with
  | zero => rfl
  | succ count inductionHypothesis =>
      have digits : str.take (2 * (count + 1)) =
          str.take (2 * count) ++
            [str.getD (2 * count) 0, str.getD (2 * count + 1) 0] := by
        have high : 2 * count < str.length := by omega
        have low : 2 * count + 1 < str.length := by omega
        rw [show 2 * (count + 1) = 2 * count + 1 + 1 by rfl, List.take_add_one,
          List.take_add_one, List.append_assoc, List.getD_eq_getElem?_getD,
          List.getD_eq_getElem?_getD, List.getElem?_eq_getElem high,
          List.getElem?_eq_getElem low]
        rfl
      rw [List.range_succ, List.flatMap_append, inductionHypothesis (by omega),
        digits, List.map_append]
      rfl

/-- The bytes of a hash are read from its text. -/
theorem fromHexString_toString_snd
    (hash before : SHA1Hash)
    (suffix : Bytes) :
    (fromHexString (toString hash ++ suffix) before).2 = hash := by
  have size : hash.hash.toList.length = 20 := hash.hash.length_toList
  have long : 39 ≤ (toString hash ++ suffix).length := by
    rw [List.length_append, length_toString]
    omega
  apply SHA1Hash.ext
  apply Vector.toList_inj.mp
  rw [fromHexString_snd long]
  apply List.ext_getElem (by simp)
  intro index _ inHash
  rw [List.getElem_map, List.getElem_range]
  exact pairAt_flatMap_hexByte hash.hash.toList suffix inHash

theorem toString_injective : Function.Injective toString := by
  intro left right same
  have readRight := fromHexString_toString_snd right left []
  rw [← same, fromHexString_toString_snd] at readRight
  exact readRight

/-! ## Main results -/

/-- The text of a hash is read back, whatever follows it and whatever the hash
was before. -/
theorem fromHexString_toString (hash before : SHA1Hash) (suffix : Bytes) :
    fromHexString (toString hash ++ suffix) before = (true, hash) := by
  apply Prod.ext
  · rw [fromHexString_fst, List.length_append, length_toString]
    exact decide_eq_true (by omega)
  · exact fromHexString_toString_snd hash before suffix

/-- The digits that are read are those of the text of the hash, but for their
case. -/
theorem toString_fromHexString
    (str : Bytes)
    (before : SHA1Hash)
    (long : 40 ≤ str.length)
    (digits : ∀ c ∈ str.take 40, IsHexDigit c) :
    toString (fromHexString str before).2 = (str.take 40).map lower := by
  have digitAt : ∀ place, place < 40 → IsHexDigit (str.getD place 0) := by
    intro place inside
    apply digits
    rw [List.getD_eq_getElem?_getD, List.getElem?_eq_getElem (by omega),
      Option.getD_some]
    exact List.mem_take_iff_getElem.mpr ⟨place, by omega, rfl⟩
  rw [toString, fromHexString_snd (by omega), List.flatMap_map,
    ← flatMap_lower str (by omega : 2 * 20 ≤ str.length)]
  apply List.flatMap_congr
  intro index member
  rw [List.mem_range] at member
  obtain ⟨highSmall, high⟩ := decodeChar_of_isHexDigit
    (digitAt (2 * index) (by omega))
  obtain ⟨lowSmall, low⟩ := decodeChar_of_isHexDigit
    (digitAt (2 * index + 1) (by omega))
  rw [← high, ← low]
  exact hexByte_add highSmall lowSmall

theorem toString_fromHexString_upper :
    toString (fromHexString (List.replicate 40 'F'.toUInt8)
        { hash := Vector.replicate 20 0 }).2 =
      ((List.replicate 40 'F'.toUInt8).take 40).map lower := by
  refine toString_fromHexString _ _ (by decide) fun c member => ?_
  rw [List.eq_of_mem_replicate (List.mem_of_mem_take member)]
  decide

end SHA1Hash
end EvCollect
