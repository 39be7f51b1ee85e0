import EvCollect.Util.FlagParser

/-!
# Names of flags

Which flag an argument names. A flag is found by its own names unless a flag that
was defined before it takes them for its own.
-/

namespace EvCollect

section

variable (text : Pointer → Bytes)

namespace FlagState

/-- A name of a flag as it is written. -/
def spelled (flag : FlagState) (short : Bool) : Bytes :=
  if short then bytes "-" ++ (flag.shortopt.map text).getD []
  else flag.long text

/-- A flag that takes a name of another flag for its own: by its short name `-`
or with the `=` behind its long name, or because its long name is empty. -/
def Grabs (earlier flag : FlagState) (short : Bool) : Prop :=
  if short then
    flag.shortopt.map text = some (bytes "-") ∧ text earlier.longopt = []
  else
    text flag.longopt = text earlier.longopt ++ bytes "=" ∨
      earlier.shortopt.map text = some (bytes "-")

end FlagState

variable (flags : List FlagState)

/-- Flags as they are defined: with distinct long names and distinct short names
of one character. -/
structure Defined : Prop where
  longNames : flags.Pairwise fun one other =>
    text one.longopt ≠ text other.longopt
  shortNames : flags.Pairwise fun one other =>
    ∀ first ∈ one.shortopt, ∀ second ∈ other.shortopt, text first ≠ text second
  oneCharacter : ∀ flag ∈ flags, ∀ name ∈ flag.shortopt, (text name).length = 1
  fresh : ∀ flag ∈ flags, flag.values = []

/-- The index of the flag that an argument names. -/
def rank (arg : Bytes) : Nat :=
  ((findFlag text flags arg).map Prod.fst).getD flags.length

end

section

variable {text : Pointer → Bytes}
variable {flags : List FlagState}
variable {flag : FlagState}
variable {arg : Bytes}

/-! ## Flags that accept an argument -/

theorem startsWith_iff {name : Bytes} :
    startsWith arg name = true ↔ name <+: arg := by
  rw [startsWith, beq_iff_eq, List.prefix_iff_eq_take, eq_comm]

theorem length_and_startsWith_iff {name : Bytes} :
    (arg.length = name.length ∧ startsWith arg name = true) ↔ arg = name := by
  rw [startsWith_iff]
  constructor
  · rintro ⟨sameLength, starts⟩
    exact (starts.eq_of_length sameLength.symm).symm
  · rintro rfl
    exact ⟨rfl, List.prefix_rfl⟩

theorem accepts_eq_none_iff :
    flag.accepts text arg = none ↔
      arg ≠ flag.long text ∧ arg ≠ flag.long text ++ bytes "=" ∧
        ∀ name ∈ flag.shortopt, ¬ bytes "-" ++ text name <+: arg := by
  simp only [FlagState.accepts, length_and_startsWith_iff]
  by_cases long : arg = flag.long text
  · simp [long]
  by_cases longEq : arg = flag.long text ++ bytes "="
  · rw [if_neg long, if_pos longEq]
    simp [longEq]
  rw [if_neg long, if_neg longEq]
  cases shortopt : flag.shortopt with
  | none => simp [long, longEq]
  | some name =>
      by_cases short : bytes "-" ++ text name <+: arg
      · simp [startsWith_iff, short]
      · have shortEq : ¬ bytes "-" ++ text name ++ bytes "=" <+: arg :=
          fun starts => short ((List.prefix_append _ _).trans starts)
        simp only [startsWith_iff, if_neg short, if_neg shortEq]
        simp [long, longEq, short]

/-- Where an argument is accepted with a value attached, there is none. -/
theorem length_of_accepts
    {length : Nat}
    (accepted : flag.accepts text arg = some (some length)) :
    arg.length = length := by
  simp only [FlagState.accepts, length_and_startsWith_iff] at accepted
  split at accepted
  · cases accepted
  split at accepted
  · next longEq =>
      cases accepted
      rw [longEq]
  split at accepted
  · cases accepted
  · next name _ =>
      simp only [startsWith_iff] at accepted
      have noEq : bytes "-" ++ text name ++ bytes "=" <+: arg →
          bytes "-" ++ text name <+: arg :=
        fun starts => (List.prefix_append _ _).trans starts
      split at accepted
      · cases accepted
      · next short =>
          rw [if_neg (mt noEq short)] at accepted
          cases accepted

/-- No flag accepts an argument that does not begin with a dash. -/
theorem accepts_positional
    (noDash : arg.head? ≠ some 0x2d) :
    flag.accepts text arg = none := by
  have noStart : ∀ behind, ¬ bytes "-" ++ behind <+: arg := by
    rintro behind ⟨rest, rfl⟩
    exact noDash rfl
  have long : flag.long text = bytes "-" ++ (bytes "-" ++ text flag.longopt) := rfl
  rw [accepts_eq_none_iff, long, List.append_assoc]
  refine ⟨?_, ?_, fun name _ => noStart _⟩
  · rintro rfl
    exact noStart _ List.prefix_rfl
  · rintro rfl
    exact noStart _ List.prefix_rfl

/-- A flag accepts its own names, with the value in the next argument. -/
theorem accepts_spelled
    (oneCharacter : ∀ name ∈ flag.shortopt, (text name).length = 1)
    {short : Bool}
    (named : short = true → flag.shortopt ≠ none) :
    flag.accepts text (flag.spelled text short) = some none := by
  simp only [FlagState.accepts, length_and_startsWith_iff]
  cases short with
  | false => exact if_pos rfl
  | true =>
      obtain ⟨name, shortopt⟩ := Option.ne_none_iff_exists'.mp (named rfl)
      have spelled : flag.spelled text true = bytes "-" ++ text name := by
        rw [FlagState.spelled, if_pos rfl, shortopt]
        rfl
      have noEq : bytes "-" ++ text name ≠ flag.long text ++ bytes "=" := by
        intro same
        have lengths := congrArg List.length same
        have dashes : (bytes "--").length = 2 := rfl
        have one := oneCharacter name shortopt
        simp only [FlagState.long, List.length_append, one, dashes] at lengths
        have dash : (bytes "-").length = 1 := rfl
        have eq : (bytes "=").length = 1 := rfl
        omega
      have accepted : startsWith (bytes "-" ++ text name)
          (bytes "-" ++ text name) = true := startsWith_iff.mpr List.prefix_rfl
      rw [spelled, if_neg noEq, shortopt]
      simp only [accepted, if_true, ite_self]

/-- Only the short name `-` begins the long names. -/
theorem short_prefix_long_iff
    {name behind : Bytes}
    (one : name.length = 1) :
    bytes "-" ++ name <+: bytes "--" ++ behind ↔ name = bytes "-" := by
  obtain ⟨letter, rfl⟩ := List.length_eq_one_iff.mp one
  have dashes : bytes "--" = bytes "-" ++ bytes "-" := rfl
  rw [dashes, List.append_assoc, List.prefix_append_right_inj]
  constructor
  · rintro ⟨rest, same⟩
    exact congrArg (fun letter => [letter]) (List.head_eq_of_cons_eq same)
  · intro same
    rw [same]
    exact List.prefix_append _ _

/-- What an earlier flag makes of the long name of another one. -/
theorem accepts_long_iff
    {earlier : FlagState}
    (longNames : text earlier.longopt ≠ text flag.longopt)
    (oneCharacter : ∀ name ∈ earlier.shortopt, (text name).length = 1) :
    earlier.accepts text (flag.spelled text false) = none ↔
      ¬ earlier.Grabs text flag false := by
  have spelled : flag.spelled text false = bytes "--" ++ text flag.longopt := rfl
  have noShort : (∀ name ∈ earlier.shortopt,
      ¬ bytes "-" ++ text name <+: bytes "--" ++ text flag.longopt) ↔
      earlier.shortopt.map text ≠ some (bytes "-") := by
    rw [ne_eq, Option.map_eq_some_iff, not_exists]
    refine forall_congr' fun name => ?_
    rw [not_and]
    refine forall_congr' fun shortopt => ?_
    rw [short_prefix_long_iff (oneCharacter name shortopt)]
  rw [accepts_eq_none_iff, spelled, noShort, FlagState.long, List.append_assoc,
    ne_eq, ne_eq, List.append_cancel_left_eq, List.append_cancel_left_eq,
    FlagState.Grabs]
  simp [longNames.symm]

/-- What an earlier flag makes of the short name of another one. -/
theorem accepts_short_iff
    {earlier : FlagState}
    (shortNames : ∀ first ∈ earlier.shortopt, ∀ second ∈ flag.shortopt,
      text first ≠ text second)
    (oneEarlier : ∀ name ∈ earlier.shortopt, (text name).length = 1)
    {name : Pointer}
    (shortopt : flag.shortopt = some name)
    (oneCharacter : (text name).length = 1) :
    earlier.accepts text (flag.spelled text true) = none ↔
      ¬ earlier.Grabs text flag true := by
  have spelled : flag.spelled text true = bytes "-" ++ text name := by
    rw [FlagState.spelled, if_pos rfl, shortopt]
    rfl
  have dashes : bytes "--" = bytes "-" ++ bytes "-" := rfl
  have noShort : ∀ other ∈ earlier.shortopt,
      ¬ bytes "-" ++ text other <+: bytes "-" ++ text name := by
    intro other isShort starts
    rw [List.prefix_append_right_inj] at starts
    exact shortNames other isShort name shortopt (starts.eq_of_length
      ((oneEarlier other isShort).trans oneCharacter.symm))
  obtain ⟨letter, isLetter⟩ := List.length_eq_one_iff.mp oneCharacter
  rw [accepts_eq_none_iff, spelled, FlagState.long, dashes, List.append_assoc,
    List.append_assoc, ne_eq, ne_eq, List.append_cancel_left_eq,
    List.append_cancel_left_eq, FlagState.Grabs, if_pos rfl, shortopt,
    Option.map_some, isLetter]
  rw [isLetter] at noShort
  have dash : bytes "-" = [0x2d] := rfl
  have eq : bytes "=" = [0x3d] := rfl
  simp only [dash, eq] at noShort ⊢
  have noEq : [letter] ≠ [0x2d] ++ text earlier.longopt ++ [0x3d] := by simp
  constructor
  · rintro ⟨noLong, -, -⟩ ⟨isDash, isEmpty⟩
    rw [isEmpty] at noLong
    exact noLong (Option.some.inj isDash)
  · intro noGrab
    refine ⟨fun same => noGrab ?_, noEq, noShort⟩
    obtain ⟨isDash, isEmpty⟩ := List.cons.inj same
    exact ⟨by rw [isDash], isEmpty.symm⟩

/-! ## The flag that an argument names -/

theorem findFlag_eq_none_iff
    {flags : List FlagState} :
    findFlag text flags arg = none ↔
      ∀ flag ∈ flags, flag.accepts text arg = none := by
  induction flags with
  | nil => simp [findFlag]
  | cons first flags inductionHypothesis =>
      rw [findFlag, List.forall_mem_cons]
      cases accepted : first.accepts text arg with
      | none => simp [inductionHypothesis]
      | some eqLen => simp

theorem findFlag_eq_some_iff
    {flags : List FlagState}
    {index : Nat}
    {eqLen : Option Nat} :
    findFlag text flags arg = some (index, flag, eqLen) ↔
      flags[index]? = some flag ∧ flag.accepts text arg = some eqLen ∧
        ∀ earlier ∈ flags.take index, earlier.accepts text arg = none := by
  induction flags generalizing index with
  | nil => simp [findFlag]
  | cons first flags inductionHypothesis =>
      rw [findFlag]
      cases accepted : first.accepts text arg with
      | none =>
          cases index with
          | zero =>
              simp only [Option.map_eq_some_iff, List.getElem?_cons_zero,
                Option.some.injEq]
              constructor
              · rintro ⟨found, -, same⟩
                cases same
              · rintro ⟨rfl, accepts, -⟩
                rw [accepted] at accepts
                cases accepts
          | succ index =>
              simp [inductionHypothesis, accepted]
      | some found =>
          cases index with
          | zero =>
              simp only [Option.some.injEq, Prod.mk.injEq, true_and,
                List.getElem?_cons_zero, List.take_zero, List.not_mem_nil,
                false_implies, implies_true, and_true]
              refine and_congr_right fun same => ?_
              rw [← same, accepted, Option.some.injEq]
          | succ index => simp [accepted]

/-! ## Flags found by their names -/

section

variable {index : Nat}
variable {short : Bool}

/-- Flags with the same long name are the same. -/
theorem Defined.index_eq
    (defined : Defined text flags)
    {other : FlagState}
    {place : Nat}
    (atPlace : flags[place]? = some other)
    (atIndex : flags[index]? = some flag)
    (sameName : text other.longopt = text flag.longopt) :
    place = index := by
  have distinct := List.pairwise_iff_getElem.mp defined.longNames
  obtain ⟨placeInRange, rfl⟩ := List.getElem?_eq_some_iff.mp atPlace
  obtain ⟨inRange, rfl⟩ := List.getElem?_eq_some_iff.mp atIndex
  rcases Nat.lt_trichotomy place index with before | same | behind
  · exact absurd sameName (distinct _ _ _ _ before)
  · exact same
  · exact absurd sameName.symm (distinct _ _ _ _ behind)

theorem Defined.accepts_spelled_iff
    (defined : Defined text flags)
    (atIndex : flags[index]? = some flag)
    (named : short = true → flag.shortopt ≠ none)
    {earlier : FlagState}
    (isEarlier : earlier ∈ flags.take index) :
    earlier.accepts text (flag.spelled text short) = none ↔
      ¬ earlier.Grabs text flag short := by
  obtain ⟨inRange, isFlag⟩ := List.getElem?_eq_some_iff.mp atIndex
  have split : flags = flags.take index ++ flag :: flags.drop (index + 1) := by
    rw [← isFlag, ← List.drop_eq_getElem_cons inRange, List.take_append_drop]
  have isDefined := List.mem_of_mem_take isEarlier
  cases short with
  | false =>
      have longNames := defined.longNames
      rw [split, List.pairwise_append] at longNames
      exact accepts_long_iff (longNames.2.2 _ isEarlier _ List.mem_cons_self)
        (defined.oneCharacter _ isDefined)
  | true =>
      have shortNames := defined.shortNames
      rw [split, List.pairwise_append] at shortNames
      obtain ⟨name, shortopt⟩ := Option.ne_none_iff_exists'.mp (named rfl)
      exact accepts_short_iff
        (shortNames.2.2 _ isEarlier _ List.mem_cons_self)
        (defined.oneCharacter _ isDefined) shortopt
        (defined.oneCharacter _ (List.mem_of_getElem? atIndex) _ shortopt)

theorem Defined.findFlag_spelled
    (defined : Defined text flags)
    (atIndex : flags[index]? = some flag)
    (named : short = true → flag.shortopt ≠ none)
    (clear : ∀ earlier ∈ flags.take index, ¬ earlier.Grabs text flag short) :
    findFlag text flags (flag.spelled text short) = some (index, flag, none) := by
  have isDefined := List.mem_of_getElem? atIndex
  refine findFlag_eq_some_iff.mpr ⟨atIndex,
    accepts_spelled (defined.oneCharacter _ isDefined) named, ?_⟩
  intro earlier isEarlier
  exact (defined.accepts_spelled_iff atIndex named isEarlier).mpr
    (clear earlier isEarlier)

/-- The name of a flag names this flag or an earlier one, -/
theorem Defined.rank_spelled_le
    (defined : Defined text flags)
    (atIndex : flags[index]? = some flag)
    (named : short = true → flag.shortopt ≠ none) :
    rank text flags (flag.spelled text short) ≤ index := by
  have isDefined := List.mem_of_getElem? atIndex
  have accepted := accepts_spelled (defined.oneCharacter _ isDefined) named
  cases found : findFlag text flags (flag.spelled text short) with
  | none =>
      have refused := findFlag_eq_none_iff.mp found _ isDefined
      rw [accepted] at refused
      cases refused
  | some named =>
      obtain ⟨first, state, eqLen⟩ := named
      rw [rank, found, Option.map_some, Option.getD_some]
      by_contra behind
      have isEarlier : flag ∈ flags.take first := by
        have taken := List.getElem?_take_of_lt (l := flags) (Nat.lt_of_not_le behind)
        exact List.mem_of_getElem? (taken.trans atIndex)
      have refused := (findFlag_eq_some_iff.mp found).2.2 _ isEarlier
      rw [accepted] at refused
      cases refused

/-- and this flag if no earlier one grabs it. -/
theorem Defined.clear_of_rank
    (defined : Defined text flags)
    (atIndex : flags[index]? = some flag)
    (named : short = true → flag.shortopt ≠ none)
    (ranked : index ≤ rank text flags (flag.spelled text short)) :
    ∀ earlier ∈ flags.take index, ¬ earlier.Grabs text flag short := by
  intro earlier isEarlier
  rw [← defined.accepts_spelled_iff atIndex named isEarlier]
  cases found : findFlag text flags (flag.spelled text short) with
  | none => exact findFlag_eq_none_iff.mp found _ (List.mem_of_mem_take isEarlier)
  | some named =>
      obtain ⟨first, state, eqLen⟩ := named
      rw [rank, found, Option.map_some, Option.getD_some] at ranked
      have taken := List.take_sublist_take_left ranked |>.subset isEarlier
      exact (findFlag_eq_some_iff.mp found).2.2 _ taken

end

end

end EvCollect
