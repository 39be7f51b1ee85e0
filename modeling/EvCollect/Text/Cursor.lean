import EvCollect.Text.Records

/-!
# A cursor with a buffer of records

A reader that starts at a position of a text has consumed some records and has
buffered some more. The cursor says that these are the records of the text from
the start on, and where the two positions behind them are.
-/

namespace EvCollect
namespace Text

variable {α : Type}

/-- From `start` on, the text begins with the consumed and the buffered
records, which end at the two positions. -/
structure Cursor
    (text : List α)
    (start : Nat)
    (lines buffer : List (List α))
    (consumed offset : Nat) : Prop where
  inside : offset ≤ text.length
  content : text.take offset =
    text.take start ++ lines.flatten ++ buffer.flatten
  consumed_eq : consumed = start + lines.flatten.length
  offset_eq : offset = consumed + buffer.flatten.length

namespace Cursor

variable {text : List α}
variable {start consumed offset : Nat}
variable {lines buffer : List (List α)}

/-- At the start nothing has been consumed or buffered. -/
theorem begin
    (inside : start ≤ text.length) :
    Cursor text start [] [] start start where
  inside := inside
  content := by simp
  consumed_eq := by simp
  offset_eq := by simp

/-- Appending to the text does not move the cursor. -/
theorem append
    (cursor : Cursor text start lines buffer consumed offset)
    {longer : List α}
    (isPrefix : text <+: longer) :
    Cursor longer start lines buffer consumed offset := by
  obtain ⟨more, rfl⟩ := isPrefix
  have consumedEq := cursor.consumed_eq
  have offsetEq := cursor.offset_eq
  have inside := cursor.inside
  refine ⟨inside.trans (by simp), ?_, consumedEq, offsetEq⟩
  rw [List.take_append_of_le_length inside, cursor.content,
    List.take_append_of_le_length (by omega)]

/-- Buffering the next record of the text. -/
theorem push
    (cursor : Cursor text start lines buffer consumed offset)
    {raw rest : List α}
    {position : Nat}
    (inside : position ≤ text.length)
    (next : text.take position = text.take offset ++ raw ++ rest) :
    Cursor text start lines (buffer ++ [raw]) consumed
      (offset + raw.length) := by
  have lengths := congrArg List.length next
  have offsetInside := cursor.inside
  simp only [List.length_append, List.length_take] at lengths
  have taken : text.take (offset + raw.length) = text.take offset ++ raw := by
    have shorter := congrArg (List.take (offset + raw.length)) next
    rw [List.take_take, Nat.min_eq_left (by omega)] at shorter
    rw [shorter, List.take_append_of_le_length]
    · rw [List.take_of_length_le]
      simp only [List.length_append, List.length_take]
      omega
    · simp only [List.length_append, List.length_take]
      omega
  refine ⟨by omega, ?_, cursor.consumed_eq, ?_⟩
  · rw [taken, cursor.content]
    simp
  · have offsetEq := cursor.offset_eq
    simp only [List.flatten_append, List.flatten_singleton,
      List.length_append]
    omega

/-- Consuming the first buffered record. -/
theorem pop
    {raw : List α}
    (cursor : Cursor text start lines (raw :: buffer) consumed offset) :
    Cursor text start (lines ++ [raw]) buffer (consumed + raw.length)
      offset := by
  have consumedEq := cursor.consumed_eq
  have offsetEq := cursor.offset_eq
  refine ⟨cursor.inside, ?_, ?_, ?_⟩
  · rw [cursor.content]
    simp
  · simp only [List.flatten_append, List.flatten_singleton,
      List.length_append]
    omega
  · simp only [List.flatten_cons, List.length_append] at offsetEq
    omega

/-- Behind the consumed records a cursor without a buffer could stand. -/
theorem unbuffered
    (cursor : Cursor text start lines buffer consumed offset) :
    Cursor text start lines [] consumed consumed := by
  have consumedEq := cursor.consumed_eq
  have offsetEq := cursor.offset_eq
  have inside := cursor.inside
  refine ⟨by omega, ?_, consumedEq, by simp⟩
  have shorter := congrArg (List.take consumed) cursor.content
  rw [List.take_take, Nat.min_eq_left (by omega)] at shorter
  rw [shorter, List.take_append_of_le_length]
  · rw [List.take_of_length_le]
    · simp
    · simp only [List.length_append, List.length_take]
      omega
  · simp only [List.length_append, List.length_take]
    omega

/-- The buffered records stand behind the consumed ones. -/
theorem buffered
    (cursor : Cursor text start lines buffer consumed offset) :
    buffer.flatten <+: text.drop consumed := by
  have consumedEq := cursor.consumed_eq
  have offsetEq := cursor.offset_eq
  have inside := cursor.inside
  have before : (text.take start ++ lines.flatten).length = consumed := by
    rw [List.length_append, List.length_take]
    omega
  have behind : buffer.flatten = (text.drop consumed).take (offset - consumed) := by
    rw [← List.drop_take, cursor.content, ← before, List.drop_left]
  rw [behind]
  exact List.take_prefix _ _

theorem consumed_le
    (cursor : Cursor text start lines buffer consumed offset) :
    consumed ≤ offset := by
  have offsetEq := cursor.offset_eq
  omega

/-- The text up to the end of some of the consumed records. -/
theorem take_consumed
    (cursor : Cursor text start lines buffer consumed offset)
    {done left : List (List α)}
    (split : lines = done ++ left) :
    text.take (start + done.flatten.length) =
      text.take start ++ done.flatten := by
  have consumedEq := cursor.consumed_eq
  have offsetEq := cursor.offset_eq
  have inside := cursor.inside
  subst split
  simp only [List.flatten_append, List.length_append] at consumedEq
  have shorter := congrArg (List.take (start + done.flatten.length))
    cursor.content
  rw [List.take_take, Nat.min_eq_left (by omega)] at shorter
  rw [shorter, List.flatten_append, ← List.append_assoc, List.append_assoc,
    List.take_append_of_le_length]
  · rw [List.take_of_length_le]
    simp only [List.length_append, List.length_take]
    omega
  · simp only [List.length_append, List.length_take]
    omega

/-- A consumed record is where the records before it end. -/
theorem recordAt
    {separator : α}
    (cursor : Cursor text start lines buffer consumed offset)
    {done left : List (List α)}
    {raw : List α}
    (split : lines = done ++ raw :: left)
    (areRecords : ∀ raw ∈ lines, IsRecord separator raw)
    (boundary : Boundary separator text start) :
    RecordAt separator text (start + done.flatten.length) raw := by
  have upTo := cursor.take_consumed split
  have splitBehind : lines = done ++ [raw] ++ left := by
    rw [split]
    simp
  have through := cursor.take_consumed splitBehind
  have consumedEq := cursor.consumed_eq
  have inside := cursor.consumed_le.trans cursor.inside
  rw [split, List.flatten_append, List.length_append] at consumedEq
  have begins : Boundary separator text (start + done.flatten.length) :=
    boundary.of_take (fun other present => areRecords other
      (by rw [split]; exact List.mem_append_left _ present)) (by omega) upTo rfl
  refine ⟨areRecords raw (by rw [split]; simp),
    text.take (start + done.flatten.length),
    text.drop (start + (done ++ [raw]).flatten.length), ?_,
    List.length_take_of_le begins.1, ?_⟩
  · calc text
        = text.take (start + (done ++ [raw]).flatten.length) ++
            text.drop (start + (done ++ [raw]).flatten.length) :=
          (List.take_append_drop _ _).symm
      _ = _ := by
          rw [through, upTo]
          simp
  · exact begins.2.imp_left fun atZero => by rw [atZero, List.take_zero]

/-- The text is what was before the start, the consumed and the buffered
records, and a rest. -/
theorem split
    (cursor : Cursor text start lines buffer consumed offset) :
    text = text.take start ++ lines.flatten ++ buffer.flatten ++
      text.drop offset := by
  rw [← cursor.content, List.take_append_drop]

/-- From the start on, the text is made of the records and a rest. -/
theorem drop_start
    (cursor : Cursor text start lines buffer consumed offset) :
    text.drop start = (lines ++ buffer).flatten ++ text.drop offset := by
  have consumedEq := cursor.consumed_eq
  have offsetEq := cursor.offset_eq
  have inside := cursor.inside
  have length : (text.take start).length = start := by
    rw [List.length_take]
    omega
  calc text.drop start
      = (text.take start ++ ((lines ++ buffer).flatten ++
          text.drop offset)).drop start := by
        rw [List.flatten_append, ← List.append_assoc, ← List.append_assoc,
          ← cursor.split]
    _ = (lines ++ buffer).flatten ++ text.drop offset := by
        rw [List.drop_left' length]

/-- What has been consumed and buffered are the first records of the text from
the start on. -/
theorem isPrefix_records
    [DecidableEq α]
    {separator : α}
    (cursor : Cursor text start lines buffer consumed offset)
    (areRecords : ∀ raw ∈ lines ++ buffer, IsRecord separator raw) :
    (lines ++ buffer).map List.dropLast <+:
      records separator (text.drop start) := by
  rw [cursor.drop_start, records_flatten_append areRecords]
  exact List.prefix_append _ _

end Cursor

end Text
end EvCollect
