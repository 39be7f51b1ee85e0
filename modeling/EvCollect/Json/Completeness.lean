import Mathlib.Data.List.DropRight
import EvCollect.Json.Reader

/-!
# The reader reads every JSON text

By induction on how a text denotes a part: the reader, given enough fuel, returns
the part and stops behind the text. So a text denotes one value at most.
-/

namespace EvCollect
namespace Json

/-! ## Numbers -/

/-- A text that does not go on with a number. -/
def Stops (rest : List UInt8) : Prop :=
  ∀ byte ∈ rest.head?, isNumberByte byte = false

theorem readNumber_append
    {text rest : List UInt8}
    (number : isNumber text = true)
    (stops : Stops rest) :
    readNumber (text ++ rest) = some (.number text, rest) := by
  have fits := (isNumber_bytes number).2
  have stopped : rest.takeWhile isNumberByte = [] ∧
      rest.dropWhile isNumberByte = rest := by
    cases rest with
    | nil => exact ⟨rfl, rfl⟩
    | cons byte others =>
        have ends : isNumberByte byte = false := stops byte rfl
        simp [ends]
  have token : (text ++ rest).takeWhile isNumberByte = text := by
    rw [List.takeWhile_append_of_pos fits, stopped.1, List.append_nil]
  have left : (text ++ rest).dropWhile isNumberByte = rest := by
    rw [List.dropWhile_append_of_pos fits, stopped.2]
  rw [readNumber, token, left, if_pos number]

/-! ## White space -/

theorem skipBlank_append
    {blank : List UInt8}
    (isBlank : Blank blank)
    (rest : List UInt8) :
    skipBlank (blank ++ rest) = skipBlank rest :=
  List.dropWhile_append_of_pos isBlank

theorem skipBlank_cons
    {byte : UInt8}
    (solid : isBlank byte = false)
    (rest : List UInt8) :
    skipBlank (byte :: rest) = byte :: rest := by
  rw [skipBlank, List.dropWhile_cons_of_neg (by simp [solid])]

theorem skipBlank_skipBlank (text : List UInt8) :
    skipBlank (skipBlank text) = skipBlank text :=
  List.dropWhile_idempotent _ _

/-- A value begins with a byte that is no white space and closes nothing. -/
theorem Denotes.head
    {text : List UInt8}
    {value : Value}
    (denotes : Denotes text (.value value)) :
    ∃ byte rest, text = byte :: rest ∧ isBlank byte = Bool.false ∧
      byte ≠ 0x5d ∧ byte ≠ 0x7d := by
  cases denotes with
  | number number =>
      obtain ⟨nonempty, fits⟩ := isNumber_bytes number
      obtain ⟨byte, rest, rfl⟩ := List.exists_cons_of_ne_nil nonempty
      have isNumberByte := fits byte (by simp)
      refine ⟨byte, rest, rfl, ?_, ?_, ?_⟩
      · apply Bool.eq_false_iff.mpr
        intro blank
        rcases of_decide_eq_true blank with rfl | rfl | rfl | rfl <;>
          cases isNumberByte
      · rintro rfl
        cases isNumberByte
      · rintro rfl
        cases isNumberByte
  | null => exact ⟨_, _, rfl, by decide, by decide, by decide⟩
  | true => exact ⟨_, _, rfl, by decide, by decide, by decide⟩
  | false => exact ⟨_, _, rfl, by decide, by decide, by decide⟩
  | string => exact ⟨_, _, rfl, by decide, by decide, by decide⟩
  | noItems => exact ⟨_, _, rfl, by decide, by decide, by decide⟩
  | array => exact ⟨_, _, rfl, by decide, by decide, by decide⟩
  | noMembers => exact ⟨_, _, rfl, by decide, by decide, by decide⟩
  | object => exact ⟨_, _, rfl, by decide, by decide, by decide⟩

/-- Nothing is no text. -/
theorem Text.ne_nil
    {text : List UInt8}
    {value : Value}
    (isText : Text text value) : text ≠ [] := by
  obtain ⟨before, body, after, -, denotes, -, rfl⟩ := isText
  obtain ⟨byte, rest, rfl, -⟩ := denotes.head
  simp

theorem Denotes.skipBlank_append
    {text : List UInt8}
    {value : Value}
    (denotes : Denotes text (.value value))
    (rest : List UInt8) :
    skipBlank (text ++ rest) = text ++ rest := by
  obtain ⟨byte, others, rfl, solid, -⟩ := denotes.head
  exact skipBlank_cons solid _

/-- What is inside brackets does not begin with the closing bracket. -/
theorem Denotes.items_head
    {text : List UInt8}
    {items : List Value}
    (denotes : Denotes text (.items items))
    (rest : List UInt8) :
    ∃ byte others, skipBlank (text ++ rest) = byte :: others ∧
      byte ≠ 0x5d := by
  cases denotes with
  | lastItem before value after =>
      obtain ⟨byte, others, rfl, solid, differs, -⟩ := value.head
      rw [List.append_assoc, Json.skipBlank_append before]
      exact ⟨byte, _, skipBlank_cons solid _, differs⟩
  | item before value after others =>
      obtain ⟨byte, others, rfl, solid, differs, -⟩ := value.head
      rw [List.append_assoc, Json.skipBlank_append before]
      exact ⟨byte, _, skipBlank_cons solid _, differs⟩

theorem Denotes.members_head
    {text : List UInt8}
    {members : List (List UInt8 × Value)}
    (denotes : Denotes text (.members members))
    (rest : List UInt8) :
    ∃ others, skipBlank (text ++ rest) = 0x22 :: others := by
  cases denotes with
  | lastMember before =>
      rw [List.append_assoc, Json.skipBlank_append before]
      exact ⟨_, skipBlank_cons (by decide) _⟩
  | member before =>
      rw [List.append_assoc, Json.skipBlank_append before]
      exact ⟨_, skipBlank_cons (by decide) _⟩

theorem readItems_skipBlank
    (fuel : Nat)
    (text : List UInt8) :
    readItems fuel (skipBlank text) = readItems fuel text := by
  cases fuel with
  | zero => simp only [readItems]
  | succ fuel => simp only [readItems, skipBlank_skipBlank]

theorem readMembers_skipBlank
    (fuel : Nat)
    (text : List UInt8) :
    readMembers fuel (skipBlank text) = readMembers fuel text := by
  cases fuel with
  | zero => simp only [readMembers]
  | succ fuel => simp only [readMembers, skipBlank_skipBlank]

/-! ## Completeness -/

/-- What the reader makes of a text and what comes behind it. -/
def Reads (text : List UInt8) : Part → Prop
  | .value value =>
      ∀ fuel rest, 2 * text.length ≤ fuel → Stops rest →
        readValue fuel (text ++ rest) = some (value, rest)
  | .items items =>
      ∀ fuel rest, 2 * text.length < fuel →
        readItems fuel (text ++ 0x5d :: rest) = some (items, rest)
  | .members members =>
      ∀ fuel rest, 2 * text.length < fuel →
        readMembers fuel (text ++ 0x7d :: rest) = some (members, rest)

theorem stops_blank
    {blank rest : List UInt8}
    (isBlank : Blank blank)
    (stops : Stops rest) :
    Stops (blank ++ rest) := by
  cases blank with
  | nil => exact stops
  | cons byte others =>
      intro first present
      cases present
      rcases of_decide_eq_true (isBlank byte (by simp)) with
        rfl | rfl | rfl | rfl <;> rfl

theorem stops_cons
    {byte : UInt8}
    (ends : isNumberByte byte = false)
    (rest : List UInt8) :
    Stops (byte :: rest) := by
  intro first present
  cases present
  exact ends

theorem readValue_number
    {text rest : List UInt8}
    {fuel : Nat}
    (number : isNumber text = true)
    (stops : Stops rest) :
    readValue (fuel + 1) (text ++ rest) = some (.number text, rest) := by
  obtain ⟨nonempty, fits⟩ := isNumber_bytes number
  obtain ⟨byte, others, rfl⟩ := List.exists_cons_of_ne_nil nonempty
  have isNumberByte := fits byte (by simp)
  rw [← readNumber_append number stops, List.cons_append, readValue]
  all_goals
    intros
    rename_i equal
    rw [(List.cons.inj equal).1] at isNumberByte
    cases isNumberByte

/-- What is inside of brackets needs less fuel. -/
theorem exists_fuel_inside
    {opening closing : UInt8}
    {text : List UInt8}
    {fuel : Nat}
    (enough : 2 * (opening :: (text ++ [closing])).length ≤ fuel) :
    ∃ more, fuel = more + 1 ∧ 2 * text.length < more := by
  simp only [List.length_cons, List.length_append, List.length_nil] at enough
  exact ⟨fuel - 1, by omega, by omega⟩

theorem reads_array
    {text : List UInt8}
    {items : List Value}
    (inside : Denotes text (.items items))
    (reads : Reads text (.items items)) :
    Reads (0x5b :: (text ++ [0x5d])) (.value (.array items)) := by
  intro fuel rest enough _
  obtain ⟨fuel, rfl, fits⟩ := exists_fuel_inside enough
  have shape : (0x5b :: (text ++ [0x5d])) ++ rest =
      0x5b :: (text ++ 0x5d :: rest) := by simp
  obtain ⟨byte, others, head, differs⟩ := inside.items_head (0x5d :: rest)
  have read := reads fuel rest fits
  rw [← readItems_skipBlank, head] at read
  rw [shape, readValue, head]
  split
  next equal =>
    cases equal
    exact absurd rfl differs
  next => rw [read]; rfl

theorem reads_object
    {text : List UInt8}
    {members : List (List UInt8 × Value)}
    (inside : Denotes text (.members members))
    (reads : Reads text (.members members)) :
    Reads (0x7b :: (text ++ [0x7d])) (.value (.object members)) := by
  intro fuel rest enough _
  obtain ⟨fuel, rfl, fits⟩ := exists_fuel_inside enough
  have shape : (0x7b :: (text ++ [0x7d])) ++ rest =
      0x7b :: (text ++ 0x7d :: rest) := by simp
  obtain ⟨others, head⟩ := inside.members_head (0x7d :: rest)
  have read := reads fuel rest fits
  rw [← readMembers_skipBlank, head] at read
  rw [shape, readValue, head]
  split
  next equal => cases equal
  next => rw [read]; rfl

theorem readItems_succ
    {before text tail : List UInt8}
    {value : Value}
    {fuel : Nat}
    (blankBefore : Blank before)
    (denotes : Denotes text (.value value))
    (reads : Reads text (.value value))
    (enough : 2 * text.length ≤ fuel)
    (stops : Stops tail) :
    readItems (fuel + 1) (before ++ (text ++ tail)) =
      match skipBlank tail with
      | 0x5d :: rest => some ([value], rest)
      | 0x2c :: rest =>
          (readItems fuel rest).map fun read => (value :: read.1, read.2)
      | _ => none := by
  rewrite [readItems, skipBlank_append blankBefore, denotes.skipBlank_append,
    reads fuel tail enough stops]
  rfl

theorem readMembers_succ
    {before name between lead text tail : List UInt8}
    {elements : List Element}
    {value : Value}
    {fuel : Nat}
    (blankBefore : Blank before)
    (letters : Letters elements name)
    (blankBetween : Blank between)
    (blankLead : Blank lead)
    (denotes : Denotes text (.value value))
    (reads : Reads text (.value value))
    (enough : 2 * text.length ≤ fuel)
    (stops : Stops tail) :
    readMembers (fuel + 1) (before ++ (quoted name ++ (between ++ 0x3a ::
        (lead ++ (text ++ tail))))) =
      match skipBlank tail with
      | 0x7d :: rest => some ([(decode elements, value)], rest)
      | 0x2c :: rest =>
          (readMembers fuel rest).map fun read =>
            ((decode elements, value) :: read.1, read.2)
      | _ => none := by
  have shape (tail : List UInt8) :
      quoted name ++ tail = 0x22 :: (name ++ 0x22 :: tail) := by
    simp [quoted]
  rw [readMembers, skipBlank_append blankBefore, shape,
    skipBlank_cons (by decide)]
  simp only []
  rw [readLetters_append letters]
  simp only []
  rw [skipBlank_append blankBetween, skipBlank_cons (by decide)]
  simp only []
  rewrite [skipBlank_append blankLead, denotes.skipBlank_append,
    reads fuel tail enough stops]
  rfl

theorem exists_fuel
    {text : List UInt8}
    {fuel : Nat}
    (nonempty : 0 < text.length)
    (enough : 2 * text.length ≤ fuel) :
    ∃ more, fuel = more + 1 :=
  Nat.exists_eq_succ_of_ne_zero (by omega)

/-- The reader reads whatever denotes a part. -/
theorem reads_of_denotes
    {text : List UInt8}
    {part : Part}
    (denotes : Denotes text part) :
    Reads text part := by
  induction denotes with
  | null =>
      intro fuel rest enough _
      obtain ⟨fuel, rfl⟩ := exists_fuel (by simp) enough
      rw [readValue.eq_def]
      rfl
  | true =>
      intro fuel rest enough _
      obtain ⟨fuel, rfl⟩ := exists_fuel (by simp) enough
      rw [readValue.eq_def]
      rfl
  | false =>
      intro fuel rest enough _
      obtain ⟨fuel, rfl⟩ := exists_fuel (by simp) enough
      rw [readValue.eq_def]
      rfl
  | number number =>
      intro fuel rest enough stops
      obtain ⟨fuel, rfl⟩ := exists_fuel
        (List.length_pos_of_ne_nil (isNumber_bytes number).1) enough
      exact readValue_number number stops
  | @string elements text letters =>
      intro fuel rest enough _
      obtain ⟨fuel, rfl⟩ := exists_fuel (by simp [quoted]) enough
      have shape : quoted text ++ rest = 0x22 :: (text ++ 0x22 :: rest) := by
        simp [quoted]
      rw [shape, readValue, readLetters_append letters]
      rfl
  | @noItems blank isBlank =>
      intro fuel rest enough _
      obtain ⟨fuel, rfl⟩ := exists_fuel (by simp) enough
      have shape : (0x5b :: (blank ++ [0x5d])) ++ rest =
          0x5b :: (blank ++ 0x5d :: rest) := by simp
      rw [shape, readValue, skipBlank_append isBlank,
        skipBlank_cons (by decide)]
      rfl
  | array inside inductionHypothesis =>
      exact reads_array inside inductionHypothesis
  | @noMembers blank isBlank =>
      intro fuel rest enough _
      obtain ⟨fuel, rfl⟩ := exists_fuel (by simp) enough
      have shape : (0x7b :: (blank ++ [0x7d])) ++ rest =
          0x7b :: (blank ++ 0x7d :: rest) := by simp
      rw [shape, readValue, skipBlank_append isBlank,
        skipBlank_cons (by decide)]
      rfl
  | object inside inductionHypothesis =>
      exact reads_object inside inductionHypothesis
  | @lastItem before text after value blankBefore value blankAfter
      inductionHypothesis =>
      intro fuel rest enough
      obtain ⟨fuel, rfl⟩ := Nat.exists_eq_succ_of_ne_zero
        (show fuel ≠ 0 by omega)
      have fits : 2 * text.length ≤ fuel := by
        simp only [List.length_append] at enough
        omega
      have shape : (before ++ (text ++ after)) ++ 0x5d :: rest =
          before ++ (text ++ (after ++ 0x5d :: rest)) := by simp
      rw [shape, readItems_succ blankBefore value inductionHypothesis fits
          (stops_blank blankAfter (stops_cons (by decide) _)),
        skipBlank_append blankAfter, skipBlank_cons (by decide)]
      rfl
  | @item before text after others value items blankBefore value blankAfter
      _ first remaining =>
      intro fuel rest enough
      obtain ⟨fuel, rfl⟩ := Nat.exists_eq_succ_of_ne_zero
        (show fuel ≠ 0 by omega)
      simp only [List.length_append, List.length_cons] at enough
      have shape : (before ++ (text ++ (after ++ 0x2c :: others))) ++
            0x5d :: rest =
          before ++ (text ++ (after ++ 0x2c :: (others ++ 0x5d :: rest))) := by
        simp
      rw [shape, readItems_succ blankBefore value first (by omega)
          (stops_blank blankAfter (stops_cons (by decide) _)),
        skipBlank_append blankAfter, skipBlank_cons (by decide)]
      simp only []
      rw [remaining fuel rest (by omega)]
      rfl
  | @lastMember before name between lead text after elements value
      blankBefore letters blankBetween blankLead value blankAfter
      inductionHypothesis =>
      intro fuel rest enough
      obtain ⟨fuel, rfl⟩ := Nat.exists_eq_succ_of_ne_zero
        (show fuel ≠ 0 by omega)
      simp only [List.length_append, List.length_cons] at enough
      have shape : (before ++ (quoted name ++ (between ++ 0x3a ::
            (lead ++ (text ++ after))))) ++ 0x7d :: rest =
          before ++ (quoted name ++ (between ++ 0x3a ::
            (lead ++ (text ++ (after ++ 0x7d :: rest))))) := by
        simp
      rw [shape, readMembers_succ blankBefore letters blankBetween blankLead
          value inductionHypothesis (by omega)
          (stops_blank blankAfter (stops_cons (by decide) _)),
        skipBlank_append blankAfter, skipBlank_cons (by decide)]
      rfl
  | @member before name between lead text after others elements value members
      blankBefore letters blankBetween blankLead value blankAfter _ first
      remaining =>
      intro fuel rest enough
      obtain ⟨fuel, rfl⟩ := Nat.exists_eq_succ_of_ne_zero
        (show fuel ≠ 0 by omega)
      simp only [List.length_append, List.length_cons] at enough
      have shape : (before ++ (quoted name ++ (between ++ 0x3a ::
            (lead ++ (text ++ (after ++ 0x2c :: others)))))) ++ 0x7d :: rest =
          before ++ (quoted name ++ (between ++ 0x3a ::
            (lead ++ (text ++ (after ++ 0x2c ::
              (others ++ 0x7d :: rest)))))) := by
        simp
      rw [shape, readMembers_succ blankBefore letters blankBetween blankLead
          value first (by omega)
          (stops_blank blankAfter (stops_cons (by decide) _)),
        skipBlank_append blankAfter, skipBlank_cons (by decide)]
      simp only []
      rw [remaining fuel rest (by omega)]
      rfl

theorem readText_of_text
    {text : List UInt8}
    {value : Value}
    (isText : Text text value) :
    readText text = some value := by
  obtain ⟨before, body, after, blankBefore, denotes, blankAfter, rfl⟩ := isText
  have stops : Stops after := by
    have := stops_blank blankAfter (show Stops [] from fun _ present => by
      cases present)
    rwa [List.append_nil] at this
  have trailing : skipBlank after = [] := by
    have := skipBlank_append blankAfter []
    rwa [List.append_nil] at this
  have read := reads_of_denotes denotes
    (2 * (before ++ (body ++ after)).length) after (by simp; omega) stops
  rw [readText, skipBlank_append blankBefore, denotes.skipBlank_append, read]
  simp only [trailing]
  rfl

/-- A text denotes one value at most. -/
theorem Text.unique
    {text : List UInt8}
    {first second : Value}
    (left : Text text first)
    (right : Text text second) :
    first = second :=
  Option.some.inj
    ((readText_of_text left).symm.trans (readText_of_text right))

end Json
end EvCollect
