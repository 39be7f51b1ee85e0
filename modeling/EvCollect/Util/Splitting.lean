import EvCollect.Text.Separators
import EvCollect.Util.StringUtil

/-!
# Splitting and replacing

`StringUtil::split` and `StringUtil::replaceAll` look for the same occurrences of
a pattern, the one in the string as it is and the other in the string as it
changes, with a cursor that is an `int`.
-/

namespace EvCollect
namespace StringUtil

open Text

/-- The loop of `join` over the parts from an index on, which is an `int`, with what
has been written. A negative one, as a `size_t`, is behind the end of every list. -/
def joinFrom (separator : Bytes) : Int → Bytes → List Bytes → Bytes
  | _, out, [] => out
  | i, out, part :: list =>
      if i < 0 then out
      else
        joinFrom separator (increment i)
          ((if 0 < i then out ++ separator else out) ++ part) list

/-- `StringUtil::join`. -/
def join (list : List Bytes) (separator : Bytes) : Bytes :=
  joinFrom separator 0 [] list

/-- From a position on the loop joins what its index gets to. -/
theorem joinFrom_eq
    (separator : Bytes)
    {position : Nat}
    (later : 0 < position)
    {list : List Bytes}
    (inRange : position + list.length ≤ 2 ^ 31)
    (out part : Bytes) :
    joinFrom separator (toInt position) (out ++ part) list =
      out ++ separator.intercalate (part :: list) := by
  induction list generalizing position out part with
  | nil => rw [joinFrom, List.intercalate_singleton]
  | cons next list inductionHypothesis =>
      rw [List.length_cons] at inRange
      have index := toInt_of_lt (show position < 2 ^ 31 by omega)
      rw [joinFrom, increment_toInt, index, if_neg (by omega), if_pos (by omega),
        inductionHypothesis position.succ_pos (by omega),
        List.intercalate_cons_cons]
      simp only [List.append_assoc]

/-- An `int` is enough for 2^31 parts. -/
theorem join_eq
    {list : List Bytes}
    (few : list.length ≤ 2 ^ 31)
    (separator : Bytes) : join list separator = separator.intercalate list := by
  cases list with
  | nil => rfl
  | cons part list =>
      have second : increment 0 = toInt 1 := by decide
      rw [join, joinFrom, if_neg (by decide), if_neg (by decide), second]
      exact joinFrom_eq separator Nat.one_pos
        (by rw [List.length_cons] at few; omega) [] part

/-! ## What is found -/

section

variable {pattern str : Bytes}

/-- Nothing is found if the pattern does not occur. -/
theorem findIn_eq_none_iff :
    findIn pattern str = none ↔ ¬ pattern <:+: str := by
  induction str with
  | nil => cases pattern <;> simp [findIn]
  | cons byte rest inductionHypothesis =>
      rw [findIn, List.infix_cons_iff, not_or]
      split
      next isPrefix =>
        have here := List.isPrefixOf_iff_prefix.mp isPrefix
        exact iff_of_false (Option.some_ne_none _) fun absent => absent.1 here
      next noPrefix =>
        rw [Option.map_eq_none_iff, inductionHypothesis]
        exact (and_iff_right fun here =>
          noPrefix (List.isPrefixOf_iff_prefix.mpr here)).symm

/-- What is found is the first occurrence. -/
theorem not_isPrefix_of_lt_findIn
    {position : Nat}
    (found : findIn pattern str = some position) :
    ∀ earlier < position, ¬ pattern <+: str.drop earlier := by
  induction str generalizing position with
  | nil =>
      unfold findIn at found
      split at found
      · cases found
        exact fun _ less => absurd less (Nat.not_lt_zero _)
      · cases found
  | cons byte rest inductionHypothesis =>
      rw [findIn] at found
      split at found
      next =>
        cases found
        exact fun _ less => absurd less (Nat.not_lt_zero _)
      next noPrefix =>
        obtain ⟨inRest, foundInRest, rfl⟩ := Option.map_eq_some_iff.mp found
        intro earlier less
        cases earlier with
        | zero => exact fun here => noPrefix (List.isPrefixOf_iff_prefix.mpr here)
        | succ earlier =>
            exact inductionHypothesis foundInRest earlier (by omega)

/-- Where the separator of two parts stands, it is found. -/
theorem findIn_firstBehind
    {before rest : Bytes}
    (first : FirstBehind pattern before rest) :
    findIn pattern (before ++ (pattern ++ rest)) = some before.length := by
  cases found : findIn pattern (before ++ (pattern ++ rest)) with
  | none =>
      refine absurd ?_ (findIn_eq_none_iff.mp found)
      exact ⟨before, rest, List.append_assoc _ _ _⟩
  | some position =>
      have notLater : ¬ before.length < position := fun later =>
        not_isPrefix_of_lt_findIn found _ later (by
          rw [List.drop_left]
          exact List.prefix_append _ _)
      have notEarlier : ¬ position < before.length := fun earlier =>
        first position earlier (findIn_isPrefix found)
      rw [Nat.le_antisymm (Nat.le_of_not_lt notLater) (Nat.le_of_not_lt notEarlier)]

/-- The text behind what is found, taken apart. -/
theorem firstBehind_of_findIn
    {position : Nat}
    (found : findIn pattern str = some position) :
    ∃ rest, str = str.take position ++ (pattern ++ rest) ∧
      FirstBehind pattern (str.take position) rest := by
  obtain ⟨rest, same⟩ := findIn_isPrefix found
  have split : str = str.take position ++ (pattern ++ rest) := by
    rw [same, List.take_append_drop]
  refine ⟨rest, split, fun earlier less => ?_⟩
  rw [← split]
  refine not_isPrefix_of_lt_findIn found earlier ?_
  rw [List.length_take] at less
  omega

end

/-! ## The loop of `split` -/

section

variable {pattern replacement : Bytes}

/-- `split` takes a string apart. -/
theorem splitFrom_separated
    (nonempty : pattern ≠ [])
    {str : Bytes}
    (fuel : Nat) :
    ∀ {start : Nat}, str.length - start < fuel → start ≤ str.length →
      ∃ parts, splitFrom str pattern fuel start = some parts ∧
        Separated pattern (str.drop start) parts := by
  have positive := List.length_pos_of_ne_nil nonempty
  induction fuel with
  | zero =>
      intro start enough
      omega
  | succ fuel inductionHypothesis =>
      intro start enough inside
      rw [splitFrom, find, if_neg (Nat.not_lt.mpr inside)]
      cases found : findIn pattern (str.drop start) with
      | none => exact ⟨_, rfl, .last (findIn_eq_none_iff.mp found)⟩
      | some position =>
          obtain ⟨rest, split, first⟩ := firstBehind_of_findIn found
          have bound := findIn_add_length_le found
          rw [List.length_drop] at bound
          have behind : str.drop (position + start + pattern.length) = rest := by
            rw [Nat.add_comm position, Nat.add_assoc, ← List.drop_drop, split,
              ← List.append_assoc]
            exact List.drop_left' (by simp; omega)
          obtain ⟨parts, returned, separated⟩ :=
            @inductionHypothesis (position + start + pattern.length) (by omega)
              (by omega)
          dsimp only [Option.map_some]
          rw [returned, Nat.add_sub_cancel]
          rw [behind] at separated
          have parted := Separated.next first separated
          rw [← split] at parted
          exact ⟨_, rfl, parted⟩

theorem split_separated
    (nonempty : pattern ≠ [])
    (str : Bytes) :
    ∃ parts, split str pattern = some parts ∧ Separated pattern str parts :=
  splitFrom_separated nonempty (str.length + 1) (by omega) (Nat.zero_le _)

/-- Splitting at a single byte. -/
theorem split_singleton (str : Bytes) (byte : UInt8) :
    split str [byte] = some (str.splitOn byte) := by
  obtain ⟨parts, isSplit, separated⟩ := split_separated (List.cons_ne_nil byte []) str
  rw [isSplit, separated.eq_splitOn]

theorem length_splitOn (str : Bytes) (byte : UInt8) :
    (str.splitOn byte).length = str.count byte + 1 := by
  induction str with
  | nil => rfl
  | cons first str inductionHypothesis =>
      rw [List.splitOn_cons_eq_if_modifyHead, List.count_cons]
      split
      · rw [List.length_cons, inductionHypothesis]
      · rw [List.length_modifyHead, inductionHypothesis, Nat.add_zero]

/-! ## The loop of `replaceAll` -/

/-- Behind what is done, `find` finds the end of the next part. -/
theorem find_firstBehind
    {done before rest : Bytes}
    (inside : done.length < 2 ^ 31)
    (first : FirstBehind pattern before rest) :
    find (done ++ (before ++ (pattern ++ rest))) pattern
        (ofInt (toInt done.length)) =
      some (before.length + done.length) := by
  rw [toInt_of_lt inside, ofInt_natCast (by omega), find, if_neg (by simp),
    List.drop_left, findIn_firstBehind first, Option.map_some]

/-- A replacement behind what is done. -/
theorem replaced_append (done rest : Bytes) :
    (done ++ (pattern ++ rest)).take done.length ++ replacement ++
        (done ++ (pattern ++ rest)).drop (done.length + pattern.length) =
      done ++ replacement ++ rest := by
  rw [List.take_left, List.drop_length_add_append, List.drop_left]

/-- A pass that finds the end of the next part where the cursor can get to. -/
theorem replaceLoop_next
    {done before rest : Bytes}
    (first : FirstBehind pattern before rest)
    (inside : done.length + before.length < 2 ^ 31)
    (fuel : Nat) :
    replaceLoop pattern replacement (fuel + 1) (toInt done.length)
        (done ++ (before ++ (pattern ++ rest))) =
      replaceLoop pattern replacement fuel
        (toInt (done ++ before ++ replacement).length)
        (done ++ before ++ replacement ++ rest) := by
  have start : ofInt (toInt (before.length + done.length)) =
      (done ++ before).length := by
    rw [toInt_of_lt (by omega), ofInt_natCast (by omega), List.length_append,
      Nat.add_comm]
  rw [replaceLoop, find_firstBehind (by omega) first]
  dsimp only
  rw [start, if_neg (by rw [List.length_append]; omega),
    ← List.append_assoc done, if_neg (by rw [List.length_append]; omega),
    replaced_append, ← List.length_append]

/-- A pass with a cursor that has become negative finds nothing. -/
theorem replaceLoop_negative
    {done text : Bytes}
    (large : 2 ^ 31 ≤ done.length)
    (bound : done.length < 2 ^ 32)
    (short : text.length < 2 ^ 63)
    (fuel : Nat) :
    replaceLoop pattern replacement (fuel + 1) (toInt done.length)
        (done ++ text) =
      some (done ++ text) := by
  rw [replaceLoop, find, if_pos]
  rw [toInt_of_ge large bound, ofInt, List.length_append]
  omega

/-- Behind what is done, the loop joins the parts of what is left. -/
theorem replaceLoop_separated
    (nonempty : pattern ≠ [])
    {text : Bytes}
    {parts : List Bytes}
    (separated : Separated pattern text parts) :
    ∀ {fuel : Nat} {done : Bytes}, text.length < fuel → done.length < 2 ^ 32 →
      (∀ start ∈ starts replacement.length done.length parts,
        start < 2 ^ 31 ∧ start + replacement.length < 2 ^ 32) →
      (∀ part ∈ parts, part.length < 2 ^ 63) →
      replaceLoop pattern replacement fuel (toInt done.length) (done ++ text) =
        some (done ++ replacement.intercalate parts) := by
  have positive := List.length_pos_of_ne_nil nonempty
  induction separated with
  | @last text absent =>
      rintro (_ | fuel) done enough reached - short
      · omega
      rw [List.intercalate_singleton]
      by_cases inside : done.length < 2 ^ 31
      · rw [replaceLoop, toInt_of_lt inside, ofInt_natCast (by omega), find,
          if_neg (by simp), List.drop_left, findIn_eq_none_iff.mpr absent]
        rfl
      · exact replaceLoop_negative (Nat.le_of_not_lt inside) reached
          (short _ (List.mem_singleton_self text)) fuel
  | @next before rest parts first behind inductionHypothesis =>
      rintro (_ | fuel) done enough reached inReach short
      · omega
      have more := behind.ne_nil
      rw [starts_cons more, List.forall_mem_cons] at inReach
      obtain ⟨⟨inside, small⟩, later⟩ := inReach
      simp only [List.length_append] at enough
      have length : (done ++ before ++ replacement).length =
          done.length + before.length + replacement.length := by
        rw [List.length_append, List.length_append]
      rw [replaceLoop_next first inside, List.intercalate_cons_of_ne_nil more,
        ← List.append_assoc, ← List.append_assoc done]
      exact inductionHypothesis (by omega) (by omega) (by rwa [length])
        fun part member => short part (List.mem_cons_of_mem _ member)

/-- If the cursor does not get to all of the places, the result is another one:
the loop throws, or ends with a shorter text. -/
theorem replaceLoop_ne
    (longer : pattern.length < replacement.length)
    {text : Bytes}
    {parts : List Bytes}
    (separated : Separated pattern text parts) :
    ∀ {fuel : Nat} {done : Bytes}, text.length < 2 ^ 31 → done.length < 2 ^ 32 →
      (∀ start ∈ starts replacement.length done.length parts,
        start < 2 ^ 31 → start + replacement.length < 2 ^ 32) →
      (∃ start ∈ starts replacement.length done.length parts, 2 ^ 31 ≤ start) →
      replaceLoop pattern replacement fuel (toInt done.length) (done ++ text) ≠
        some (done ++ replacement.intercalate parts) := by
  induction separated with
  | last absent => exact fun _ _ _ ⟨_, member, _⟩ => absurd member List.not_mem_nil
  | @next before rest parts first behind inductionHypothesis =>
      rintro (_ | fuel) done short reached unwrapped ⟨start, member, large⟩
      · exact nofun
      have more := behind.ne_nil
      rw [starts_cons more, List.forall_mem_cons] at unwrapped
      have unfinished : some (done ++ (before ++ (pattern ++ rest))) ≠
          some (done ++ replacement.intercalate (before :: parts)) := by
        intro same
        have lengths := congrArg List.length (Option.some.inj same)
        have rests := length_intercalate_le (Nat.le_of_lt longer) parts
        rw [behind.intercalate_eq] at rests
        rw [List.intercalate_cons_of_ne_nil more] at lengths
        simp only [List.length_append] at lengths
        omega
      simp only [List.length_append] at short
      by_cases reached' : done.length < 2 ^ 31
      · by_cases inside : done.length + before.length < 2 ^ 31
        · rw [starts_cons more, List.mem_cons] at member
          have later := member.resolve_left (by omega)
          have length : (done ++ before ++ replacement).length =
              done.length + before.length + replacement.length := by
            rw [List.length_append, List.length_append]
          rw [replaceLoop_next first inside, List.intercalate_cons_of_ne_nil more,
            ← List.append_assoc, ← List.append_assoc done]
          have next := unwrapped.1 inside
          exact inductionHypothesis (by omega) (by omega)
            (by rw [length]; exact unwrapped.2) ⟨start, by rwa [length], large⟩
        · -- The position that is found is negative as an `int`.
          have negative : (done ++ (before ++ (pattern ++ rest))).length <
              ofInt (toInt (before.length + done.length)) := by
            rw [toInt_of_ge (by omega) (by omega), ofInt]
            simp only [List.length_append]
            omega
          rw [replaceLoop, find_firstBehind reached' first]
          dsimp only
          rw [if_pos negative]
          split
          · exact unfinished
          · exact (Option.some_ne_none _).symm
      · rw [replaceLoop_negative (Nat.le_of_not_lt reached') reached
          (by simp only [List.length_append]; omega)]
        exact unfinished

theorem replaceAll_eq_replaceLoop
    {s : Bytes}
    (nonempty : s ≠ []) :
    replaceAll s pattern replacement =
      replaceLoop pattern replacement (s.length + 1) (toInt ([] : Bytes).length)
        ([] ++ s) :=
  if_neg (List.length_eq_zero_iff.not.mpr nonempty)

/-- Where the cursor gets to all of the places, replacing joins the parts. -/
theorem replaceAll_separated
    (nonempty : pattern ≠ [])
    {s : Bytes}
    {parts : List Bytes}
    (separated : Separated pattern s parts)
    (inReach : ∀ start ∈ starts replacement.length 0 parts,
      start < 2 ^ 31 ∧ start + replacement.length < 2 ^ 32)
    (short : ∀ part ∈ parts, part.length < 2 ^ 63) :
    replaceAll s pattern replacement = some (replacement.intercalate parts) := by
  by_cases empty : s = []
  · subst empty
    have alone : Separated pattern [] [[]] :=
      .last (mt List.infix_nil.mp nonempty)
    rw [separated.unique alone]
    rfl
  · rw [replaceAll_eq_replaceLoop empty]
    exact replaceLoop_separated nonempty separated (Nat.lt_succ_self _)
      (by decide) inReach short

/-- A pattern that stands once is replaced. -/
theorem replaceAll_between
    {before behind : Bytes}
    (nonempty : pattern ≠ [])
    (first : FirstBehind pattern before behind)
    (absent : ¬ pattern <:+: behind)
    (short : before.length + behind.length < 2 ^ 31)
    (fits : before.length + replacement.length < 2 ^ 32) :
    replaceAll (before ++ (pattern ++ behind)) pattern replacement =
      some (before ++ (replacement ++ behind)) := by
  have joined : replacement.intercalate [before, behind] =
      before ++ (replacement ++ behind) := by
    rw [List.intercalate_cons_cons, List.intercalate_singleton, List.append_assoc]
  rw [← joined]
  refine replaceAll_separated nonempty (.next first (.last absent)) ?_ ?_
  · intro start member
    rw [starts, starts, List.mem_singleton] at member
    omega
  · simp only [List.forall_mem_cons]
    exact ⟨by omega, by omega, List.forall_mem_nil _⟩

/-- A longer replacement makes no text shorter. -/
theorem length_le_replaceLoop
    (longer : pattern.length ≤ replacement.length)
    {fuel : Nat} :
    ∀ {cursor : Int} {str result : Bytes},
      replaceLoop pattern replacement fuel cursor str = some result →
      str.length ≤ result.length := by
  induction fuel with
  | zero => exact nofun
  | succ fuel inductionHypothesis =>
      intro cursor str result returned
      rw [replaceLoop] at returned
      split at returned
      · cases returned
        exact Nat.le_refl _
      · dsimp only at returned
        split at returned
        · cases returned
          exact Nat.le_refl _
        split at returned
        · cases returned
        next inside =>
          have later := inductionHypothesis returned
          simp only [List.length_append, List.length_take, List.length_drop] at later
          omega

/-- Replacing keeps the first byte if it does not begin the pattern, or the text has
become too long for positions of 32 bits. -/
theorem replaceLoop_head
    {first : UInt8}
    (other : pattern.head? ≠ some first)
    (nonempty : pattern ≠ [])
    {fuel : Nat} :
    ∀ {cursor : Int} {str result : Bytes}, str.head? = some first →
      str.length < 2 ^ 32 →
      replaceLoop pattern replacement fuel cursor str = some result →
      result.head? = some first ∨ 2 ^ 32 ≤ result.length := by
  have positive := List.length_pos_of_ne_nil nonempty
  induction fuel with
  | zero => exact nofun
  | succ fuel inductionHypothesis =>
      intro cursor str result begins short returned
      rw [replaceLoop] at returned
      split at returned
      · cases returned
        exact .inl begins
      next position found =>
        dsimp only at returned
        split at returned
        · cases returned
          exact .inl begins
        split at returned
        · cases returned
        next inside =>
          have bounds := find_bounds found
          have start : ofInt (toInt position) = position := by
            rcases Nat.lt_or_ge position (2 ^ 31) with small | large
            · rw [toInt_of_lt small, ofInt_natCast (by omega)]
            · rw [toInt_of_ge large (by omega), ofInt] at inside
              omega
          rw [start] at returned
          -- The pattern does not begin where the text does.
          have behind : 0 < position := by
            refine Nat.pos_of_ne_zero fun isFirst => other ?_
            obtain ⟨rest, same⟩ := find_isPrefix found
            rw [isFirst, List.drop_zero] at same
            rwa [← same, List.head?_append_of_ne_nil _ nonempty] at begins
          obtain ⟨text, rfl⟩ := List.head?_eq_some_iff.mp begins
          obtain ⟨position, rfl⟩ := Nat.exists_eq_succ_of_ne_zero behind.ne'
          rw [List.take_succ_cons, List.cons_append, List.cons_append] at returned
          by_cases longer : pattern.length ≤ replacement.length
          · rcases Nat.lt_or_ge (first :: (text.take position ++ replacement ++
              (first :: text).drop (position + 1 + pattern.length))).length
              (2 ^ 32) with still | huge
            · exact inductionHypothesis rfl still returned
            · exact .inr (huge.trans (length_le_replaceLoop longer returned))
          · refine inductionHypothesis rfl ?_ returned
            simp only [List.length_cons, List.length_append, List.length_take,
              List.length_drop] at short bounds ⊢
            omega

theorem replaceAll_head
    {first : UInt8}
    (other : pattern.head? ≠ some first)
    (nonempty : pattern ≠ [])
    {str result : Bytes}
    (begins : str.head? = some first)
    (short : str.length < 2 ^ 32)
    (returned : replaceAll str pattern replacement = some result) :
    result.head? = some first ∨ 2 ^ 32 ≤ result.length := by
  rw [replaceAll] at returned
  split at returned
  · cases returned
    exact .inl begins
  · exact replaceLoop_head other nonempty begins short returned

/-- Where it does not, replacing gives another result. -/
theorem replaceAll_ne
    (longer : pattern.length < replacement.length)
    {s : Bytes}
    {parts : List Bytes}
    (separated : Separated pattern s parts)
    (short : s.length < 2 ^ 31)
    (unwrapped : ∀ start ∈ starts replacement.length 0 parts,
      start < 2 ^ 31 → start + replacement.length < 2 ^ 32)
    (outOfReach : ∃ start ∈ starts replacement.length 0 parts, 2 ^ 31 ≤ start) :
    replaceAll s pattern replacement ≠ some (replacement.intercalate parts) := by
  by_cases empty : s = []
  · obtain ⟨start, member, large⟩ := outOfReach
    have inResult := add_length_le_of_mem_starts member
    intro replaced
    rw [replaceAll, if_pos (List.length_eq_zero_iff.mpr empty), empty] at replaced
    rw [← Option.some.inj replaced, List.length_nil] at inResult
    omega
  · rw [replaceAll_eq_replaceLoop empty]
    exact @replaceLoop_ne _ _ longer _ _ separated (s.length + 1) [] short
      (by decide) unwrapped outOfReach

/-! ## Splitting and replacing agree -/

/-- Splitting takes a string apart at the occurrences of the pattern, and replacing
joins the parts with the replacement. -/
structure Agree
    (s pattern replacement : Bytes)
    (parts : List Bytes) : Prop where
  split : split s pattern = some parts
  joined : join parts pattern = s
  absent : ∀ part ∈ parts, ¬ pattern <:+: part
  replaced : replaceAll s pattern replacement = some (join parts replacement)

/-- The `int` cursor gets to the places of the result at which the replacement is
put in. Behind none of them does it wrap around to a position that is not
negative. -/
def FitsInt (s pattern replacement : Bytes) : Prop :=
  ∀ parts, Separated pattern s parts →
    ∀ start ∈ starts replacement.length 0 parts,
      start < 2 ^ 31 ∧ start + replacement.length < 2 ^ 32

/-- There are few enough parts for the `int` index of `join`. -/
theorem join_separated
    (nonempty : pattern ≠ [])
    {s : Bytes}
    (short : s.length < 2 ^ 31)
    {parts : List Bytes}
    (separated : Separated pattern s parts)
    (separator : Bytes) : join parts separator = separator.intercalate parts :=
  join_eq (by
    have few := separated.length_le nonempty
    omega) separator

theorem agree_of_fitsInt
    (nonempty : pattern ≠ [])
    {s : Bytes}
    (short : s.length < 2 ^ 31)
    (fits : FitsInt s pattern replacement) :
    ∃ parts, Agree s pattern replacement parts := by
  obtain ⟨parts, isSplit, separated⟩ := split_separated nonempty s
  have inReach := fits parts separated
  refine ⟨parts, isSplit, ?_, separated.absent nonempty, ?_⟩
  · rw [join_separated nonempty short separated, separated.intercalate_eq]
  · rw [join_separated nonempty short separated]
    refine replaceAll_separated nonempty separated inReach fun part member => ?_
    have bound := length_le_intercalate pattern member
    rw [separated.intercalate_eq] at bound
    omega

/-- A place is in the string or behind a replacement. If the cursor gets to it, then
behind it the cursor is at the end of what is put in, or negative. -/
theorem unwrapped_of_mem_starts
    {s : Bytes}
    (bound : s.length + replacement.length < 2 ^ 32)
    {parts : List Bytes}
    (separated : Separated pattern s parts)
    {start : Nat}
    (member : start ∈ starts replacement.length 0 parts)
    (inside : start < 2 ^ 31) :
    start + replacement.length < 2 ^ 32 := by
  obtain ⟨part, others, rfl⟩ := List.exists_cons_of_ne_nil separated.ne_nil
  have inString := length_le_intercalate pattern (@List.mem_cons_self _ part others)
  rw [separated.intercalate_eq] at inString
  rcases eq_or_le_of_mem_starts member with isFirst | behind
  · omega
  · omega

theorem Agree.fitsInt
    (nonempty : pattern ≠ [])
    {s : Bytes}
    (short : s.length < 2 ^ 31)
    (bound : s.length + replacement.length < 2 ^ 32)
    {parts : List Bytes}
    (agree : Agree s pattern replacement parts) :
    FitsInt s pattern replacement := by
  obtain ⟨others, isSplit, separated⟩ := split_separated nonempty s
  cases agree.split.symm.trans isSplit
  intro same isParts
  cases separated.unique isParts
  have replaced := agree.replaced
  rw [join_separated nonempty short separated] at replaced
  have unwrapped start (member : start ∈ starts replacement.length 0 parts) :=
    unwrapped_of_mem_starts bound separated member
  have inReach : ∀ start ∈ starts replacement.length 0 parts, start < 2 ^ 31 := by
    intro start member
    by_contra large
    have inResult := add_length_le_of_mem_starts member
    have longer : pattern.length < replacement.length := by
      by_contra notLonger
      have shrinks := length_intercalate_le (Nat.le_of_not_lt notLonger) parts
      rw [separated.intercalate_eq] at shrinks
      omega
    exact replaceAll_ne longer separated short unwrapped
      ⟨start, member, Nat.le_of_not_lt large⟩ replaced
  exact fun start member =>
    ⟨inReach start member, unwrapped start member (inReach start member)⟩

/-- Splitting and replacing agree if the `int`s are large enough, and only then if
string and replacement have less than 2^32 bytes. -/
theorem agree_iff
    {s : Bytes}
    (short : s.length < 2 ^ 31)
    (nonempty : pattern ≠ []) :
    (FitsInt s pattern replacement → ∃ parts, Agree s pattern replacement parts) ∧
      (s.length + replacement.length < 2 ^ 32 →
        (∃ parts, Agree s pattern replacement parts) →
          FitsInt s pattern replacement) :=
  ⟨agree_of_fitsInt nonempty short,
    fun bound ⟨_, agree⟩ => agree.fitsInt nonempty short bound⟩

end

theorem separated_comma :
    Separated (bytes ",") (bytes "a,,b") [bytes "a", [], bytes "b"] := by
  have first (rest : Bytes) : FirstBehind (bytes ",") (bytes "a") rest := by
    intro position less
    cases Nat.lt_one_iff.mp less
    exact fun here => absurd (List.cons_prefix_cons.mp here).1 (by decide)
  exact .next (first (bytes ",b"))
    (.next (firstBehind_nil _ (bytes "b")) (.last (by decide)))

theorem agree_comma :
    FitsInt (bytes "a,,b") (bytes ",") (bytes ", ") ∧
      ∃ parts, Agree (bytes "a,,b") (bytes ",") (bytes ", ") parts := by
  have fits : FitsInt (bytes "a,,b") (bytes ",") (bytes ", ") := by
    intro parts separated
    rw [separated.unique separated_comma]
    decide
  obtain ⟨enough, needed⟩ := @agree_iff (bytes ",") (bytes ", ")
    (bytes "a,,b") (by decide) (by decide)
  exact ⟨needed (by decide) (enough fits), enough fits⟩

section

variable {long : Bytes}

theorem separated_twice : Separated (bytes "a") (bytes "aa") [[], [], []] := by
  have last : Separated (bytes "a") [] [[]] := .last (by decide)
  exact .next (firstBehind_nil _ (bytes "a")) (.next (firstBehind_nil _ []) last)

/-- Behind the first of two places the cursor is negative, and the second is left
as it is. -/
theorem replaceAll_twice
    (length : long.length = 2 ^ 31) :
    replaceAll (bytes "aa") (bytes "a") long = some (long ++ bytes "a") := by
  have next := @replaceLoop_next (bytes "a") long [] [] (bytes "a")
    (firstBehind_nil _ _) (by decide) 2
  rw [replaceAll_eq_replaceLoop (by decide)]
  refine next.trans ?_
  rw [List.nil_append, List.nil_append]
  exact replaceLoop_negative (by omega) (by omega) (by decide) 1

theorem not_fitsInt_twice
    (length : long.length = 2 ^ 31) :
    ¬ FitsInt (bytes "aa") (bytes "a") long := by
  intro fits
  have second := fits _ separated_twice (2 ^ 31)
  rw [length] at second
  exact absurd (second (by decide)).1 (Nat.lt_irrefl _)

end

/-- A replacement of 2^31 bytes is put in for the first of two places only. -/
theorem not_agree_long :
    replaceAll (bytes "aa") (bytes "a") (List.replicate (2 ^ 31) 0x62) =
        some (List.replicate (2 ^ 31) 0x62 ++ bytes "a") ∧
      ¬ ∃ parts,
        Agree (bytes "aa") (bytes "a") (List.replicate (2 ^ 31) 0x62) parts := by
  refine ⟨replaceAll_twice List.length_replicate, fun ⟨parts, agree⟩ => ?_⟩
  have bound : (bytes "aa").length + (List.replicate (2 ^ 31) (0x62 : UInt8)).length <
      2 ^ 32 := by
    rw [List.length_replicate]
    decide
  exact not_fitsInt_twice List.length_replicate
    (agree.fitsInt (by decide) (by decide) bound)

end StringUtil
end EvCollect
