import Mathlib.Data.List.Infix

/-!
# Records that end in a separator

A text is a sequence of records, each of which ends in a separator, and of a
tail that is not terminated. The records of a text are found by reading it from
left to right, and any sequence of records that a text begins with is a prefix
of them.
-/

namespace EvCollect
namespace Text

variable {α : Type} [DecidableEq α]

/-- The records of a text without their separators, where `current` is the
part of the first one that has been read. -/
def recordsFrom (separator : α) (current : List α) : List α → List (List α)
  | [] => []
  | symbol :: rest =>
      if symbol = separator then current :: recordsFrom separator [] rest
      else recordsFrom separator (current ++ [symbol]) rest

/-- The terminated records of a text, without their separators. -/
def records (separator : α) (text : List α) : List (List α) :=
  recordsFrom separator [] text

/-- A record together with its separator. -/
def IsRecord (separator : α) (raw : List α) : Prop :=
  ∃ body, raw = body ++ [separator] ∧ separator ∉ body

/-- A position of a text at which a record begins. -/
def Boundary (separator : α) (text : List α) (position : Nat) : Prop :=
  position ≤ text.length ∧
    (position = 0 ∨ ∃ before, text.take position = before ++ [separator])

theorem recordsFrom_body
    {separator : α}
    {body : List α}
    (absent : separator ∉ body)
    (current rest : List α) :
    recordsFrom separator current (body ++ separator :: rest) =
      (current ++ body) :: records separator rest := by
  induction body generalizing current with
  | nil => simp [recordsFrom, records]
  | cons symbol body inductionHypothesis =>
      rw [List.mem_cons, not_or] at absent
      rw [List.cons_append, recordsFrom, if_neg (Ne.symm absent.1),
        inductionHypothesis absent.2]
      simp

theorem IsRecord.records_append
    {separator : α}
    {raw : List α}
    (isRecord : IsRecord separator raw)
    (rest : List α) :
    records separator (raw ++ rest) =
      raw.dropLast :: records separator rest := by
  obtain ⟨body, rfl, absent⟩ := isRecord
  rw [List.append_assoc, List.singleton_append, List.dropLast_concat]
  exact recordsFrom_body absent [] rest

/-- The records that a text begins with are its first records. -/
theorem records_flatten_append
    {separator : α}
    {raws : List (List α)}
    (areRecords : ∀ raw ∈ raws, IsRecord separator raw)
    (rest : List α) :
    records separator (raws.flatten ++ rest) =
      raws.map List.dropLast ++ records separator rest := by
  induction raws with
  | nil => rfl
  | cons raw raws inductionHypothesis =>
      rw [List.flatten_cons, List.append_assoc,
        (areRecords raw (by simp)).records_append,
        inductionHypothesis fun other present =>
          areRecords other (List.mem_cons_of_mem _ present)]
      rfl

omit [DecidableEq α] in
/-- Behind a sequence of records there is a boundary if there is one before. -/
theorem Boundary.of_take
    {separator : α}
    {text : List α}
    {start position : Nat}
    {raws : List (List α)}
    (boundary : Boundary separator text start)
    (areRecords : ∀ raw ∈ raws, IsRecord separator raw)
    (inside : position ≤ text.length)
    (split : text.take position = text.take start ++ raws.flatten)
    (length : position = start + raws.flatten.length) :
    Boundary separator text position := by
  refine ⟨inside, ?_⟩
  rcases List.eq_nil_or_concat' raws with rfl | ⟨rest, last, rfl⟩
  · simp only [List.flatten_nil, List.length_nil, Nat.add_zero] at length
    exact length ▸ boundary.2
  · obtain ⟨body, equal, _⟩ := areRecords last (by simp)
    right
    refine ⟨text.take start ++ rest.flatten ++ body, ?_⟩
    rw [split, equal]
    simp

omit [DecidableEq α] in
/-- Appending to a text keeps its boundaries. -/
theorem Boundary.append
    {separator : α}
    {text : List α}
    {position : Nat}
    (boundary : Boundary separator text position)
    (more : List α) :
    Boundary separator (text ++ more) position := by
  refine ⟨boundary.1.trans (by simp), ?_⟩
  rw [List.take_append_of_le_length boundary.1]
  exact boundary.2

/-- The records of a text that is divided where a record ends. -/
theorem recordsFrom_append
    (separator : α)
    (current before rest : List α) :
    recordsFrom separator current (before ++ [separator] ++ rest) =
      recordsFrom separator current (before ++ [separator]) ++
        records separator rest := by
  induction before generalizing current with
  | nil => simp [recordsFrom, records]
  | cons symbol before inductionHypothesis =>
      simp only [List.cons_append, recordsFrom]
      split
      · exact congrArg (current :: ·) (inductionHypothesis [])
      · exact inductionHypothesis _

/-! ## Records at positions -/

/-- A record of a text that begins at a position. -/
def RecordAt
    (separator : α)
    (text : List α)
    (position : Nat)
    (raw : List α) : Prop :=
  IsRecord separator raw ∧
    ∃ before after, text = before ++ raw ++ after ∧
      before.length = position ∧
      (before = [] ∨ ∃ body, before = body ++ [separator])

/-- A record at a position is one of the records. -/
theorem RecordAt.mem_records
    {separator : α}
    {text raw : List α}
    {position : Nat}
    (found : RecordAt separator text position raw) :
    raw.dropLast ∈ records separator text := by
  obtain ⟨isRecord, before, after, rfl, -, rfl | ⟨body, rfl⟩⟩ := found
  · rw [List.nil_append, isRecord.records_append]
    exact List.mem_cons_self
  · rw [List.append_assoc, records, recordsFrom_append, isRecord.records_append]
    exact List.mem_append_right _ List.mem_cons_self

section RecordAt

omit [DecidableEq α]

variable {separator : α}

/-- What is behind a text without separators shows where that ends. -/
theorem eq_nil_of_append_separator
    {first more rest rest' : List α}
    (absent : separator ∉ first ++ more)
    (equal : separator :: rest = more ++ separator :: rest') :
    more = [] := by
  cases more with
  | nil => rfl
  | cons symbol more =>
      rw [List.cons_append, List.cons.injEq] at equal
      exact absurd (by simp [equal.1]) absent

/-- Two records that a text begins with are the same one. -/
theorem IsRecord.append_inj
    {first second rest rest' : List α}
    (isFirst : IsRecord separator first)
    (isSecond : IsRecord separator second)
    (equal : first ++ rest = second ++ rest') :
    first = second ∧ rest = rest' := by
  obtain ⟨body, rfl, absent⟩ := isFirst
  obtain ⟨body', rfl, absent'⟩ := isSecond
  rw [List.append_assoc, List.append_assoc, List.singleton_append,
    List.singleton_append] at equal
  have same : body = body' := by
    rcases List.append_eq_append_iff.mp equal with
      ⟨more, rfl, tail⟩ | ⟨more, rfl, tail⟩
    · rw [eq_nil_of_append_separator absent' tail, List.append_nil]
    · rw [eq_nil_of_append_separator absent tail, List.append_nil]
  subst same
  have tails := List.append_cancel_left equal
  rw [List.cons.injEq] at tails
  exact ⟨rfl, tails.2⟩

/-- A record does not go beyond the next separator. -/
theorem IsRecord.isPrefix
    {raw rest body post : List α}
    (isRecord : IsRecord separator raw)
    (equal : raw ++ rest = body ++ [separator] ++ post) :
    raw <+: body ++ [separator] := by
  obtain ⟨start, tail, split, absent⟩ :=
    List.eq_append_cons_of_mem (show separator ∈ body ++ [separator] by simp)
  have first : IsRecord separator (start ++ [separator]) :=
    ⟨start, rfl, absent⟩
  have same : raw ++ rest = start ++ [separator] ++ (tail ++ post) := by
    rw [equal, split]
    simp
  refine ⟨tail, ?_⟩
  rw [(isRecord.append_inj first same).1, split]
  simp

/-- A record of a text that is divided where a record begins is in one of the
two parts. -/
theorem RecordAt.of_append
    {pre post raw : List α}
    {position : Nat}
    (found : RecordAt separator (pre ++ post) position raw)
    (divided : pre = [] ∨ ∃ body, pre = body ++ [separator]) :
    RecordAt separator pre position raw ∨
      ∃ inner, position = pre.length + inner ∧
        RecordAt separator post inner raw := by
  obtain ⟨isRecord, before, after, equal, length, begins⟩ := found
  rw [List.append_assoc] at equal
  rcases List.append_eq_append_iff.mp equal.symm with
    ⟨middle, isPre, isRest⟩ | ⟨middle, isBefore, isPost⟩
  · rcases List.eq_nil_or_concat' middle with rfl | ⟨start, last, rfl⟩
    · rw [List.append_nil] at isPre
      subst isPre
      exact Or.inr ⟨0, by omega, isRecord, [], after, by simpa using isRest.symm,
        rfl, Or.inl rfl⟩
    · left
      have isLast : last = separator := by
        rcases divided with empty | ⟨body, ends⟩
        · simp [empty] at isPre
        · rw [ends, ← List.append_assoc] at isPre
          exact (List.append_inj' isPre rfl).2 |> List.singleton_inj.mp |>.symm
      subst isLast
      obtain ⟨more, split⟩ := isRecord.isPrefix isRest
      refine ⟨isRecord, before, more, ?_, length, begins⟩
      rw [isPre, ← split, List.append_assoc]
  · right
    refine ⟨middle.length, ?_, isRecord, middle, after, ?_, rfl, ?_⟩
    · rw [← length, isBefore, List.length_append]
    · rw [isPost, List.append_assoc]
    · rcases List.eq_nil_or_concat' middle with rfl | ⟨start, last, rfl⟩
      · exact Or.inl rfl
      · right
        refine ⟨start, ?_⟩
        rcases begins with empty | ⟨body, ends⟩
        · simp [empty] at isBefore
        · rw [ends, ← List.append_assoc] at isBefore
          have isLast := (List.append_inj' isBefore rfl).2
          rw [← List.singleton_inj.mp isLast]

/-- The records of a sequence of records are these records, where they begin. -/
theorem RecordAt.of_flatten
    {raws : List (List α)}
    {raw : List α}
    {position : Nat}
    (areRecords : ∀ raw ∈ raws, IsRecord separator raw)
    (found : RecordAt separator raws.flatten position raw) :
    ∃ earlier later, raws = earlier ++ raw :: later ∧
      position = earlier.flatten.length := by
  induction raws generalizing position with
  | nil =>
      obtain ⟨⟨body, rfl, _⟩, before, after, equal, _⟩ := found
      simp at equal
  | cons first raws inductionHypothesis =>
      have isFirst := areRecords first (by simp)
      obtain ⟨isRecord, before, after, equal, length, begins⟩ := found
      rcases begins with rfl | ⟨body, rfl⟩
      · refine ⟨[], raws, ?_, by simpa using length.symm⟩
        rw [List.flatten_cons, List.nil_append] at equal
        rw [(isFirst.append_inj isRecord equal).1]
        rfl
      · rw [List.flatten_cons, List.append_assoc] at equal
        obtain ⟨middle, split⟩ := isFirst.isPrefix equal
        rw [← split, List.append_assoc] at equal
        have rest := List.append_cancel_left equal
        have ends : middle = [] ∨ ∃ body, middle = body ++ [separator] := by
          rcases List.eq_nil_or_concat' middle with rfl | ⟨start, last, rfl⟩
          · exact Or.inl rfl
          · right
            refine ⟨start, ?_⟩
            rw [← List.append_assoc] at split
            have isLast := (List.append_inj' split rfl).2
            rw [List.singleton_inj.mp isLast]
        obtain ⟨earlier, later, equalRest, lengthRest⟩ := inductionHypothesis
          (fun other present => areRecords other (List.mem_cons_of_mem _ present))
          ⟨isRecord, middle, after, by rw [rest, List.append_assoc], rfl, ends⟩
        refine ⟨first :: earlier, later, by rw [equalRest]; rfl, ?_⟩
        rw [← length, ← split, List.flatten_cons, List.length_append,
          List.length_append, lengthRest]

/-- In a text without records there is none at any position. -/
theorem not_recordAt_nil
    {raw : List α}
    {position : Nat} :
    ¬RecordAt separator ([] : List α) position raw := by
  rintro ⟨⟨body, rfl, _⟩, before, after, equal, _⟩
  simp at equal

end RecordAt

/-! ## Records with their separators -/

/-- The terminated records of a text, with their separators. -/
def terminated (separator : α) (text : List α) : List (List α) :=
  (records separator text).map (· ++ [separator])

/-- The position right behind the last separator of a text. -/
def behindLast (separator : α) (text : List α) : Nat :=
  (terminated separator text).flatten.length

section Terminated

variable {separator : α}

theorem IsRecord.terminated_append
    {raw : List α}
    (isRecord : IsRecord separator raw)
    (rest : List α) :
    terminated separator (raw ++ rest) = raw :: terminated separator rest := by
  rw [terminated, isRecord.records_append, List.map_cons]
  obtain ⟨body, rfl, -⟩ := isRecord
  rw [List.dropLast_concat]
  rfl

theorem terminated_flatten_append
    {raws : List (List α)}
    (areRecords : ∀ raw ∈ raws, IsRecord separator raw)
    (rest : List α) :
    terminated separator (raws.flatten ++ rest) =
      raws ++ terminated separator rest := by
  induction raws with
  | nil => rfl
  | cons raw raws inductionHypothesis =>
      rw [List.flatten_cons, List.append_assoc,
        (areRecords raw List.mem_cons_self).terminated_append,
        inductionHypothesis fun other present =>
          areRecords other (List.mem_cons_of_mem _ present)]
      rfl

theorem recordsFrom_of_not_mem
    {text : List α}
    (absent : separator ∉ text)
    (current : List α) :
    recordsFrom separator current text = [] := by
  induction text generalizing current with
  | nil => rfl
  | cons symbol text inductionHypothesis =>
      rw [List.mem_cons, not_or] at absent
      rw [recordsFrom, if_neg (Ne.symm absent.1)]
      exact inductionHypothesis absent.2 _

theorem terminated_of_not_mem
    {text : List α}
    (absent : separator ∉ text) :
    terminated separator text = [] := by
  rw [terminated, records, recordsFrom_of_not_mem absent, List.map_nil]

/-- A text is its terminated records, and a tail that is not terminated. -/
theorem exists_terminated (separator : α) (text : List α) :
    ∃ (raws : List (List α)) (tail : List α),
      text = raws.flatten ++ tail ∧ separator ∉ tail ∧
        ∀ raw ∈ raws, IsRecord separator raw := by
  induction length : text.length using Nat.strongRecOn generalizing text with
  | ind length inductionHypothesis =>
      by_cases present : separator ∈ text
      · obtain ⟨body, rest, rfl, absent⟩ := List.eq_append_cons_of_mem present
        obtain ⟨raws, tail, split, noMore, areRecords⟩ := inductionHypothesis
          rest.length (by simp at length; omega) rest rfl
        refine ⟨(body ++ [separator]) :: raws, tail, ?_, noMore, ?_⟩
        · rw [List.flatten_cons, List.append_assoc, List.append_assoc, ← split]
          rfl
        · rw [List.forall_mem_cons]
          exact ⟨⟨body, rfl, absent⟩, areRecords⟩
      · exact ⟨[], text, rfl, present, List.forall_mem_nil _⟩

theorem terminated_eq
    {raws : List (List α)}
    {tail : List α}
    (areRecords : ∀ raw ∈ raws, IsRecord separator raw)
    (absent : separator ∉ tail) :
    terminated separator (raws.flatten ++ tail) = raws := by
  rw [terminated_flatten_append areRecords, terminated_of_not_mem absent,
    List.append_nil]

omit [DecidableEq α] in
/-- A sequence of records is empty or ends in a separator. -/
theorem flatten_ends
    {raws : List (List α)}
    (areRecords : ∀ raw ∈ raws, IsRecord separator raw) :
    raws.flatten = [] ∨ ∃ before, raws.flatten = before ++ [separator] := by
  rcases List.eq_nil_or_concat' raws with rfl | ⟨rest, last, rfl⟩
  · exact .inl rfl
  · obtain ⟨body, rfl, -⟩ := areRecords last (by simp)
    exact .inr ⟨rest.flatten ++ body, by simp⟩

omit [DecidableEq α] in
/-- Only one beginning of a text ends in its last separator. -/
theorem ends_unique
    {first second tail tail' : List α}
    (equal : first ++ tail = second ++ tail')
    (isFirst : first = [] ∨ ∃ before, first = before ++ [separator])
    (isSecond : second = [] ∨ ∃ before, second = before ++ [separator])
    (absent : separator ∉ tail)
    (absent' : separator ∉ tail') : first = second := by
  have noMore {shorter longer more rest : List α}
      (ends : longer = [] ∨ ∃ before, longer = before ++ [separator])
      (split : longer = shorter ++ more)
      (noSeparator : separator ∉ more ++ rest) : more = [] := by
    rcases List.eq_nil_or_concat' more with empty | ⟨start, last, rfl⟩
    · exact empty
    · rcases ends with rfl | ⟨before, rfl⟩
      · simp at split
      · rw [← List.append_assoc] at split
        have isLast := List.singleton_inj.mp (List.append_inj' split rfl).2
        simp [isLast] at noSeparator
  rcases List.append_eq_append_iff.mp equal with
    ⟨more, split, rest⟩ | ⟨more, split, rest⟩
  · rw [split, noMore isSecond split (rest ▸ absent), List.append_nil]
  · rw [split, noMore isFirst split (rest ▸ absent'), List.append_nil]

/-- Reading on from a position leads behind the last separator, unless there is
none behind a position that is no boundary. -/
theorem behindLast_drop_iff
    {text : List α}
    {start : Nat}
    (inside : start ≤ text.length) :
    start + behindLast separator (text.drop start) =
        behindLast separator text ↔
      separator ∈ text.drop start ∨ Boundary separator text start := by
  obtain ⟨raws, tail, whole, absent, areRecords⟩ :=
    exists_terminated separator text
  obtain ⟨raws', tail', behind, absent', areRecords'⟩ :=
    exists_terminated separator (text.drop start)
  have taken : (text.take start).length = start :=
    List.length_take_of_le inside
  have both : raws.flatten ++ tail =
      (text.take start ++ raws'.flatten) ++ tail' := by
    rw [← whole, List.append_assoc, ← behind, List.take_append_drop]
  have isLast : behindLast separator text = raws.flatten.length := by
    rw [behindLast]
    conv_lhs => rw [whole]
    rw [terminated_eq areRecords absent]
  have isLast' : behindLast separator (text.drop start) =
      raws'.flatten.length := by
    rw [behindLast, behind, terminated_eq areRecords' absent']
  rw [isLast, isLast']
  rcases List.eq_nil_or_concat' raws' with rfl | ⟨rest, last, rfl⟩
  · have noMore : separator ∉ text.drop start := by
      rw [behind]
      exact absent'
    rw [or_iff_right noMore]
    constructor
    · intro equal
      refine ⟨inside, ?_⟩
      have same : raws.flatten = text.take start := by
        apply (List.append_inj both _).1.trans (List.append_nil _)
        simp only [List.flatten_nil, List.append_nil, List.length_nil,
          Nat.add_zero] at equal ⊢
        rw [taken, equal]
      rcases flatten_ends areRecords with empty | ⟨before, ends⟩
      · left
        rw [← taken, ← same, empty, List.length_nil]
      · exact .inr ⟨before, by rw [← same, ends]⟩
    · rintro ⟨-, boundary⟩
      have ends : text.take start = [] ∨
          ∃ before, text.take start = before ++ [separator] :=
        boundary.imp_left fun zero => by rw [zero, List.take_zero]
      rw [List.flatten_nil, List.append_nil] at both
      rw [ends_unique both (flatten_ends areRecords) ends absent absent', taken]
      rfl
  · obtain ⟨body, rfl, -⟩ := areRecords' last (by simp)
    have present : separator ∈ text.drop start := by
      rw [behind]
      simp
    rw [iff_true_right (.inl present)]
    have ends : ∃ before, text.take start ++
        (rest ++ [body ++ [separator]]).flatten = before ++ [separator] :=
      ⟨text.take start ++ rest.flatten ++ body, by simp⟩
    rw [ends_unique both (flatten_ends areRecords) (.inr ends) absent absent',
      List.length_append, taken]

end Terminated

end Text
end EvCollect
