import Mathlib.Algebra.Order.BigOperators.Group.List
import Mathlib.Algebra.Order.Ring.Nat
import Mathlib.Data.List.Perm.Subperm
import EvCollect.Util.FlagNames

/-!
# Command lines

What a command line of switches, flags with values and positional arguments says,
and when `parseArgv` makes of it what it says: if no value is attached with `=`,
and no flag is given by a name that a flag defined before it takes for its own.
-/

namespace EvCollect

/-- A part of a command line. A flag is given by its long or by its short name,
and its value is attached with `=` or is the next argument. -/
inductive Item
  | switch (flag : Nat) (short : Bool)
  | value (flag : Nat) (short attached : Bool) (given : Bytes)
  | positional (arg : Bytes)
  deriving DecidableEq, Repr

section

variable (text : Pointer → Bytes)

variable (flags : List FlagState)

/-- A name of the flag with this index. -/
def spell (index : Nat) (short : Bool) : Bytes :=
  (flags[index]?).elim [] fun flag => flag.spelled text short

namespace Item

/-- The arguments that the part is written as. -/
def arguments : Item → List Bytes
  | switch flag short => [spell text flags flag short]
  | value flag short attached given =>
      if attached then [spell text flags flag short ++ bytes "=" ++ given]
      else [spell text flags flag short, given]
  | positional arg => [arg]

/-- What the part sets. A switch is set to `true`. -/
def argument : Item → Argument
  | switch flag _ => .value flag (bytes "true")
  | value flag _ _ given => .value flag given
  | positional arg => .positional arg

/-- A part that fits the flags. -/
def Fits : Item → Prop
  | switch flag short => ∃ state, flags[flag]? = some state ∧
      state.type = .switch ∧ (short = true → state.shortopt ≠ none)
  | value flag short _ _ => ∃ state, flags[flag]? = some state ∧
      state.type ≠ .switch ∧ (short = true → state.shortopt ≠ none)
  | positional arg => arg ≠ [] ∧ arg.head? ≠ some 0x2d

/-- Whether the part attaches a value with `=`. -/
def attaches : Item → Bool
  | value _ _ attached _ => attached
  | _ => false

/-- A part that gives a flag by a name that no earlier flag grabs. -/
def Clear : Item → Prop
  | switch flag short | value flag short _ _ => ∀ state, flags[flag]? = some state →
      ∀ earlier ∈ flags.take flag, ¬ earlier.Grabs text state short
  | positional _ => True

end Item

/-- What `parseArgv` makes of a command line. -/
def parsed (items : List Item) : ReturnCode × FlagParser :=
  FlagParser.parseArgv text { flags := flags }
    (items.flatMap (Item.arguments text flags))

end

/-- The values that are set for a flag. -/
def valuesOf (index : Nat) (arguments : List Argument) : List Bytes :=
  arguments.filterMap fun
    | .value flag value => if flag = index then some value else none
    | .positional _ => none

/-- The positional arguments. -/
def positionalsOf (arguments : List Argument) : List Bytes :=
  arguments.filterMap fun
    | .value _ _ => none
    | .positional arg => some arg

section

variable {index : Nat}
variable {value arg : Bytes}
variable {arguments : List Argument}

@[simp] theorem valuesOf_nil : valuesOf index [] = [] := rfl

@[simp] theorem valuesOf_self :
    valuesOf index (.value index value :: arguments) =
      value :: valuesOf index arguments := by
  simp [valuesOf]

theorem valuesOf_other
    {flag : Nat}
    (other : flag ≠ index) :
    valuesOf index (.value flag value :: arguments) = valuesOf index arguments := by
  simp [valuesOf, other]

@[simp] theorem valuesOf_positional :
    valuesOf index (.positional arg :: arguments) = valuesOf index arguments := rfl

@[simp] theorem positionalsOf_value :
    positionalsOf (.value index value :: arguments) = positionalsOf arguments :=
  rfl

@[simp] theorem positionalsOf_positional :
    positionalsOf (.positional arg :: arguments) =
      arg :: positionalsOf arguments := rfl

theorem count_valuesOf :
    (valuesOf index arguments).count value =
      arguments.count (.value index value) := by
  induction arguments with
  | nil => rfl
  | cons argument arguments inductionHypothesis =>
      cases argument with
      | positional arg => simpa using inductionHypothesis
      | value flag given =>
          by_cases here : flag = index
          · subst here
            rw [valuesOf_self, List.count_cons, List.count_cons,
              inductionHypothesis]
            simp
          · rw [valuesOf_other here, List.count_cons, inductionHypothesis]
            simp [here]

theorem mem_valuesOf :
    value ∈ valuesOf index arguments ↔ .value index value ∈ arguments := by
  rw [← List.count_pos_iff, count_valuesOf, List.count_pos_iff]

theorem count_positionalsOf :
    (positionalsOf arguments).count arg =
      arguments.count (.positional arg) := by
  induction arguments with
  | nil => rfl
  | cons argument arguments inductionHypothesis =>
      cases argument with
      | value flag given => simpa using inductionHypothesis
      | positional given =>
          rw [positionalsOf_positional, List.count_cons, List.count_cons,
            inductionHypothesis]
          simp

end

/-- The values that a command line gives for a flag. -/
def givenFor (index : Nat) (items : List Item) : List Bytes :=
  valuesOf index (items.map Item.argument)

/-- That `parseArgv` understands a command line: it succeeds, each flag that is
given has its values, the getters return them if asked with the pointer `ask`,
and the positional arguments are as they are. -/
structure Understood
    (text : Pointer → Bytes)
    (ask : Nat → Pointer)
    (flags : List FlagState)
    (items : List Item) : Prop where
  succeeds : (parsed text flags items).1 = ReturnCode.success
  values : ∀ index, givenFor index items ≠ [] →
    ((parsed text flags items).2.flags[index]?).map FlagState.values =
      some (givenFor index items)
  getStrings : ∀ (index : Nat) flag, flags[index]? = some flag →
    flag.type = .string → givenFor index items ≠ [] →
      (parsed text flags items).2.getStrings text (ask index) =
        some (givenFor index items)
  getString : ∀ (index : Nat) flag, flags[index]? = some flag →
    flag.type = .string → ∀ last ∈ (givenFor index items).getLast?,
      (parsed text flags items).2.getString text (ask index) = some last
  getArgv : (parsed text flags items).2.getArgv =
    positionalsOf (items.map Item.argument)

section

variable {text : Pointer → Bytes}
variable {flags : List FlagState}
variable {flag : FlagState}
variable {arg : Bytes}

/-! ## What the arguments are read as -/

/-- A flag without its values. -/
def FlagState.unset (flag : FlagState) : FlagState :=
  { flag with values := [] }

/-- What `parseArgs` records, or `none` if it fails. -/
def readArgs (text : Pointer → Bytes) (flags : List FlagState) :
    List Bytes → Option (List Argument)
  | [] => some []
  | arg :: rest =>
      if arg.length = 0 then readArgs text flags rest
      else
        match findFlag text flags arg with
        | none => (readArgs text flags rest).map (.positional arg :: ·)
        | some (index, flag, eqLen) =>
            if flag.type = .switch then
              (readArgs text flags rest).map (.value index (bytes "true") :: ·)
            else
              match eqLen, rest with
              | none, value :: rest =>
                  (readArgs text flags rest).map (.value index value :: ·)
              | _, _ => none

theorem findFlag_unset {flags : List FlagState} :
    findFlag text (flags.map FlagState.unset) arg =
      (findFlag text flags arg).map fun found =>
        (found.1, found.2.1.unset, found.2.2) := by
  induction flags with
  | nil => rfl
  | cons first flags inductionHypothesis =>
      have same : first.unset.accepts text arg = first.accepts text arg := rfl
      rw [List.map_cons, findFlag, findFlag, same, inductionHypothesis]
      cases first.accepts text arg with
      | none => rw [Option.map_map, Option.map_map]; rfl
      | some eqLen => rfl

namespace FlagParser

variable {parser : FlagParser}

theorem unset_record (event : Argument) :
    (parser.record event).flags.map FlagState.unset =
      parser.flags.map FlagState.unset := by
  cases event with
  | positional arg => rfl
  | value index value =>
      refine List.ext_getElem? fun at_ => ?_
      rw [List.getElem?_map, List.getElem?_map, record]
      by_cases here : index = at_
      · subst here
        rw [List.getElem?_modify_eq]
        cases parser.flags[index]? <;> rfl
      · rw [List.getElem?_modify_ne _ _ here]

/-- What `parseArgs` does with the arguments, by what they are read as. -/
def Outcome
    (parser : FlagParser)
    (result : ReturnCode × FlagParser) : Option (List Argument) → Prop
  | some events => result = (ReturnCode.success, events.foldl record parser)
  | none => result.1 ≠ ReturnCode.success

theorem Outcome.cons
    {event : Argument}
    {result : ReturnCode × FlagParser}
    {read : Option (List Argument)}
    (outcome : Outcome (parser.record event) result read) :
    Outcome parser result (read.map (event :: ·)) := by
  cases read <;> exact outcome

theorem outcome_parseArgs
    {flags : List FlagState}
    (same : parser.flags.map FlagState.unset = flags)
    (args : List Bytes) :
    Outcome parser (parseArgs text args parser) (readArgs text flags args) := by
  have found {parser : FlagParser} {arg index flag eqLen}
      (same : parser.flags.map FlagState.unset = flags)
      (located : findFlag text parser.flags arg = some (index, flag, eqLen)) :
      findFlag text flags arg = some (index, flag.unset, eqLen) := by
    rw [← same, findFlag_unset, located]
    rfl
  fun_induction parseArgs text args parser with
  | case1 parser => rfl
  | case2 parser arg rest empty inductionHypothesis =>
      rw [readArgs, if_pos empty]
      exact inductionHypothesis same
  | case3 arg rest parser nonempty missing inductionHypothesis =>
      have missed : findFlag text flags arg = none := by
        rw [← same, findFlag_unset, missing]
        rfl
      rw [readArgs, if_neg nonempty, missed]
      exact (inductionHypothesis ((unset_record _).trans same)).cons
  | case4 arg rest parser nonempty index flag eqLen located isSwitch
      inductionHypothesis =>
      rw [readArgs, if_neg nonempty, found same located]
      dsimp only
      rw [if_pos (by exact isSwitch)]
      exact (inductionHypothesis ((unset_record _).trans same)).cons
  | case5 arg parser nonempty index flag noSwitch rest located =>
      rw [readArgs, if_neg nonempty, found same located]
      dsimp only
      rw [if_neg (by exact noSwitch)]
      exact nofun
  | case6 arg parser nonempty index flag noSwitch length rest longer located =>
      obtain ⟨-, accepted, -⟩ := findFlag_eq_some_iff.mp located
      exact absurd (length_of_accepts accepted) longer
  | case7 arg parser nonempty index flag noSwitch located =>
      rw [readArgs, if_neg nonempty, found same located]
      dsimp only
      rw [if_neg (by exact noSwitch)]
      exact nofun
  | case8 arg parser nonempty index flag noSwitch value rest located
      inductionHypothesis =>
      rw [readArgs, if_neg nonempty, found same located]
      dsimp only
      rw [if_neg (by exact noSwitch)]
      exact (inductionHypothesis ((unset_record _).trans same)).cons

theorem argv_foldl (events : List Argument) :
    (events.foldl record parser).argv = parser.argv ++ positionalsOf events := by
  induction events generalizing parser with
  | nil => exact (List.append_nil _).symm
  | cons event events inductionHypothesis =>
      rw [List.foldl_cons, inductionHypothesis]
      cases event <;> simp [record]

theorem flags_foldl (events : List Argument) (index : Nat) :
    (events.foldl record parser).flags[index]? =
      (parser.flags[index]?).map fun flag =>
        { flag with values := flag.values ++ valuesOf index events } := by
  induction events generalizing parser with
  | nil => simp
  | cons event events inductionHypothesis =>
      rw [List.foldl_cons, inductionHypothesis]
      cases event with
      | positional arg => rfl
      | value flag value =>
          by_cases here : flag = index
          · subst here
            rw [record, List.getElem?_modify_eq, valuesOf_self]
            cases parser.flags[flag]? <;> simp
          · rw [record, List.getElem?_modify_ne _ _ here, valuesOf_other here]

end FlagParser

/-! ## Command lines that are read as they are -/

variable {items : List Item}
variable {args : List Bytes}
variable {events : List Argument}

theorem findFlag_positional
    (noDash : arg.head? ≠ some 0x2d) :
    findFlag text flags arg = none :=
  findFlag_eq_none_iff.mpr fun _ _ => accepts_positional noDash

theorem spell_eq
    {index : Nat}
    {state : FlagState}
    (atIndex : flags[index]? = some state)
    (short : Bool) :
    spell text flags index short = state.spelled text short := by
  rw [spell, atIndex]
  rfl

theorem length_spelled_ne
    {state : FlagState}
    {short : Bool} :
    (state.spelled text short).length ≠ 0 := by
  cases short <;> simp [FlagState.spelled, FlagState.long, bytes]

theorem readArgs_item
    (defined : Defined text flags)
    {item : Item}
    (fits : item.Fits flags)
    (detached : item.attaches = false)
    (clear : item.Clear text flags)
    (rest : List Bytes) :
    readArgs text flags (item.arguments text flags ++ rest) =
      (readArgs text flags rest).map (item.argument :: ·) := by
  cases item with
  | switch index short =>
      obtain ⟨state, atIndex, isSwitch, named⟩ := fits
      rw [Item.arguments, spell_eq atIndex, List.singleton_append, readArgs,
        if_neg length_spelled_ne,
        defined.findFlag_spelled atIndex named (clear state atIndex)]
      dsimp only
      rw [if_pos isSwitch]
      rfl
  | value index short attached given =>
      obtain ⟨state, atIndex, noSwitch, named⟩ := fits
      cases detached
      rw [Item.arguments, if_neg Bool.false_ne_true, spell_eq atIndex,
        List.cons_append, List.singleton_append, readArgs,
        if_neg length_spelled_ne,
        defined.findFlag_spelled atIndex named (clear state atIndex)]
      dsimp only
      rw [if_neg noSwitch]
      rfl
  | positional arg =>
      obtain ⟨nonempty, noDash⟩ := fits
      rw [Item.arguments, List.singleton_append, readArgs,
        if_neg (mt List.length_eq_zero_iff.mp nonempty), findFlag_positional noDash]
      rfl

theorem readArgs_items
    (defined : Defined text flags)
    (fits : ∀ item ∈ items, item.Fits flags)
    (clear : ∀ item ∈ items, item.attaches = false ∧ item.Clear text flags) :
    readArgs text flags (items.flatMap (Item.arguments text flags)) =
      some (items.map Item.argument) := by
  induction items with
  | nil => rfl
  | cons item items inductionHypothesis =>
      rw [List.forall_mem_cons] at fits clear
      rw [List.flatMap_cons, readArgs_item defined fits.1 clear.1.1 clear.1.2,
        inductionHypothesis fits.2 clear.2]
      rfl

/-! ## What the arguments can pay for

Whatever is read is paid for by the arguments it is read from. -/

/-- Weights of what is recorded that the charges of arguments pay for. -/
structure Pays
    (text : Pointer → Bytes)
    (flags : List FlagState)
    (weight : Argument → Nat)
    (charge : Bytes → Nat) : Prop where
  positional : ∀ arg, findFlag text flags arg = none →
    weight (.positional arg) ≤ charge arg
  switch : ∀ arg index flag eqLen,
    findFlag text flags arg = some (index, flag, eqLen) → flag.type = .switch →
      weight (.value index (bytes "true")) ≤ charge arg
  value : ∀ arg index flag,
    findFlag text flags arg = some (index, flag, none) → flag.type ≠ .switch →
      ∀ value, weight (.value index value) ≤ charge arg + charge value

theorem Pays.sum_le
    {weight : Argument → Nat}
    {charge : Bytes → Nat}
    (pays : Pays text flags weight charge)
    (read : readArgs text flags args = some events) :
    (events.map weight).sum ≤ (args.map charge).sum := by
  fun_induction readArgs text flags args generalizing events with
  | case1 =>
      cases read
      exact Nat.le_refl 0
  | case2 arg rest empty inductionHypothesis =>
      rw [List.map_cons, List.sum_cons]
      exact (inductionHypothesis read).trans (Nat.le_add_left _ _)
  | case3 arg rest nonempty missing inductionHypothesis =>
      obtain ⟨behind, readBehind, rfl⟩ := Option.map_eq_some_iff.mp read
      rw [List.map_cons, List.map_cons, List.sum_cons, List.sum_cons]
      exact Nat.add_le_add (pays.positional arg missing)
        (inductionHypothesis readBehind)
  | case4 arg rest nonempty index flag eqLen found isSwitch inductionHypothesis =>
      obtain ⟨behind, readBehind, rfl⟩ := Option.map_eq_some_iff.mp read
      rw [List.map_cons, List.map_cons, List.sum_cons, List.sum_cons]
      exact Nat.add_le_add (pays.switch arg index flag eqLen found isSwitch)
        (inductionHypothesis readBehind)
  | case5 arg nonempty index flag noSwitch value rest found inductionHypothesis =>
      obtain ⟨behind, readBehind, rfl⟩ := Option.map_eq_some_iff.mp read
      rw [List.map_cons, List.map_cons, List.map_cons, List.sum_cons,
        List.sum_cons, List.sum_cons, ← Nat.add_assoc]
      exact Nat.add_le_add (pays.value arg index flag found noSwitch value)
        (inductionHypothesis readBehind)
  | case6 => cases read

/-- If a command line needs no more than what it says weighs, and all it says is
read, then it needs as much, part by part. -/
theorem Pays.weight_le
    {weight : Argument → Nat}
    {charge : Bytes → Nat}
    (pays : Pays text flags weight charge)
    (read : readArgs text flags (items.flatMap (Item.arguments text flags)) =
      some events)
    (allRead : (items.map Item.argument).Subperm events)
    (needed : ∀ item ∈ items,
      ((item.arguments text flags).map charge).sum ≤ weight item.argument) :
    ∀ item ∈ items,
      weight item.argument ≤ ((item.arguments text flags).map charge).sum := by
  have paid := pays.sum_le read
  obtain ⟨said, same, sublist⟩ := allRead
  have weighs : ((items.map Item.argument).map weight).sum ≤
      (events.map weight).sum := by
    rw [← (same.map weight).sum_eq]
    exact (sublist.map weight).sum_le_sum fun _ _ => Nat.zero_le _
  have total := weighs.trans paid
  rw [List.map_flatMap, List.flatMap_def, List.sum_flatten, List.map_map,
    List.map_map] at total
  intro item isItem
  by_contra less
  exact absurd (List.sum_lt_sum _ _ needed ⟨item, isItem, Nat.lt_of_not_le less⟩)
    (Nat.not_lt.mpr total)

variable (flags) in
/-- Whether the flag with this index is a switch. -/
def isSwitch (index : Nat) : Bool :=
  (flags[index]?).any fun flag => flag.type = .switch

variable (flags) in
/-- The number of arguments of what is recorded. -/
def span : Argument → Nat
  | .value flag _ => if isSwitch flags flag then 1 else 2
  | .positional _ => 1

variable (text flags) in
/-- The indices of the flags that the arguments of what is recorded name. -/
def ranks : Argument → Nat
  | .value flag value =>
      flag + if isSwitch flags flag then 0 else rank text flags value
  | .positional arg => rank text flags arg

theorem isSwitch_eq
    {index : Nat}
    (atIndex : flags[index]? = some flag) :
    isSwitch flags index = decide (flag.type = .switch) := by
  rw [isSwitch, atIndex, Option.any_some]

theorem rank_eq
    {index : Nat}
    {eqLen : Option Nat}
    (found : findFlag text flags arg = some (index, flag, eqLen)) :
    rank text flags arg = index := by
  rw [rank, found]
  rfl

theorem pays_span : Pays text flags (span flags) fun _ => 1 where
  positional _ _ := Nat.le_refl 1
  switch arg index flag eqLen found switch := by
    rw [span, isSwitch_eq (findFlag_eq_some_iff.mp found).1]
    simp [switch]
  value arg index flag found noSwitch value := by
    rw [span]
    split <;> omega

theorem pays_ranks : Pays text flags (ranks text flags) (rank text flags) where
  positional _ _ := Nat.le_refl _
  switch arg index flag eqLen found switch := by
    rw [ranks, isSwitch_eq (findFlag_eq_some_iff.mp found).1, rank_eq found]
    simp [switch]
  value arg index flag found noSwitch value := by
    rw [ranks, rank_eq found]
    split <;> omega

/-- No value is attached in a command line that is read as it is, -/
theorem attaches_eq_false
    (fits : ∀ item ∈ items, item.Fits flags)
    (read : readArgs text flags (items.flatMap (Item.arguments text flags)) =
      some events)
    (allRead : (items.map Item.argument).Subperm events) :
    ∀ item ∈ items, item.attaches = false := by
  have isSpan : ∀ item ∈ items, span flags item.argument =
      (item.arguments text flags).length + if item.attaches then 1 else 0 := by
    intro item isItem
    have fitsItem := fits item isItem
    cases item with
    | switch index short =>
        obtain ⟨state, atIndex, switch, -⟩ := fitsItem
        simp [Item.argument, span, isSwitch_eq atIndex, switch, Item.arguments,
          Item.attaches]
    | value index short attached given =>
        obtain ⟨state, atIndex, noSwitch, -⟩ := fitsItem
        cases attached <;>
          simp [Item.argument, span, isSwitch_eq atIndex, noSwitch, Item.arguments,
            Item.attaches]
    | positional arg => rfl
  have needed := pays_span.weight_le read allRead fun item isItem => by
    rw [List.map_const', List.sum_replicate, isSpan item isItem]
    simp
  intro item isItem
  have enough := needed item isItem
  rw [List.map_const', List.sum_replicate, isSpan item isItem] at enough
  cases attaches : item.attaches with
  | false => rfl
  | true => simp [attaches] at enough

/-- and its flags are given by names that no earlier flag grabs. -/
theorem clear_of_read
    (defined : Defined text flags)
    (fits : ∀ item ∈ items, item.Fits flags)
    (detached : ∀ item ∈ items, item.attaches = false)
    (read : readArgs text flags (items.flatMap (Item.arguments text flags)) =
      some events)
    (allRead : (items.map Item.argument).Subperm events) :
    ∀ item ∈ items, item.Clear text flags := by
  have needed := pays_ranks.weight_le read allRead fun item isItem => by
    have fitsItem := fits item isItem
    cases item with
    | switch index short =>
        obtain ⟨state, atIndex, -, named⟩ := fitsItem
        have ranked := defined.rank_spelled_le atIndex named
        simpa [Item.arguments, Item.argument, ranks, spell_eq atIndex] using
          ranked.trans (Nat.le_add_right _ _)
    | value index short attached given =>
        obtain ⟨state, atIndex, noSwitch, named⟩ := fitsItem
        have ranked := defined.rank_spelled_le atIndex named
        cases detached _ isItem
        simpa [Item.arguments, Item.argument, ranks, spell_eq atIndex,
          isSwitch_eq atIndex, noSwitch] using ranked
    | positional arg => simp [Item.arguments, Item.argument, ranks]
  intro item isItem
  have fitsItem := fits item isItem
  have enough := needed item isItem
  cases item with
  | switch index short =>
      obtain ⟨state, atIndex, switch, named⟩ := fitsItem
      intro other isOther
      cases atIndex.symm.trans isOther
      refine defined.clear_of_rank atIndex named ?_
      simpa [Item.arguments, Item.argument, ranks, spell_eq atIndex,
        isSwitch_eq atIndex, switch] using enough
  | value index short attached given =>
      obtain ⟨state, atIndex, noSwitch, named⟩ := fitsItem
      intro other isOther
      cases atIndex.symm.trans isOther
      refine defined.clear_of_rank atIndex named ?_
      cases detached _ isItem
      simpa [Item.arguments, Item.argument, ranks, spell_eq atIndex,
        isSwitch_eq atIndex, noSwitch] using enough
  | positional arg => trivial

/-! ## What `parseArgv` understands -/

theorem Defined.unset
    (defined : Defined text flags) :
    flags.map FlagState.unset = flags := by
  refine (List.map_congr_left fun flag isFlag => ?_).trans flags.map_id
  have fresh := defined.fresh flag isFlag
  cases flag
  cases fresh
  rfl

variable (flags) in
/-- The parser when it has read the arguments as this. -/
def readParser (events : List Argument) : FlagParser :=
  events.foldl FlagParser.record { flags := flags }

theorem parsed_of_read
    (defined : Defined text flags)
    (read : readArgs text flags (items.flatMap (Item.arguments text flags)) =
      some events) :
    parsed text flags items =
      ((readParser flags events).checkRequired text, readParser flags events) := by
  have outcome := @FlagParser.outcome_parseArgs text { flags := flags } flags
    defined.unset (items.flatMap (Item.arguments text flags))
  rw [read] at outcome
  rw [parsed, FlagParser.parseArgv, outcome]
  rfl

theorem parsed_of_not_read
    (defined : Defined text flags)
    (read : readArgs text flags (items.flatMap (Item.arguments text flags)) =
      none) :
    (parsed text flags items).1 ≠ ReturnCode.success := by
  have outcome := @FlagParser.outcome_parseArgs text { flags := flags } flags
    defined.unset (items.flatMap (Item.arguments text flags))
  rw [read] at outcome
  rw [parsed, FlagParser.parseArgv]
  split
  · exact nofun
  · next same => exact absurd (congrArg Prod.fst same) outcome

theorem flags_readParser
    (defined : Defined text flags)
    (events : List Argument)
    {index : Nat}
    (atIndex : flags[index]? = some flag) :
    (readParser flags events).flags[index]? =
      some { flag with values := valuesOf index events } := by
  have fresh := defined.fresh flag (List.mem_of_getElem? atIndex)
  rw [readParser, FlagParser.flags_foldl, atIndex, Option.map_some, fresh,
    List.nil_append]

theorem exists_of_readParser
    (defined : Defined text flags)
    {index : Nat}
    {state : FlagState}
    (atIndex : (readParser flags events).flags[index]? = some state) :
    ∃ flag, flags[index]? = some flag ∧
      { flag with values := valuesOf index events } = state := by
  cases defines : flags[index]? with
  | none =>
      rw [readParser, FlagParser.flags_foldl, defines] at atIndex
      cases atIndex
  | some flag =>
      rw [flags_readParser defined events defines] at atIndex
      exact ⟨flag, rfl, Option.some.inj atIndex⟩

/-- A flag is found by its pointer only. -/
theorem lookup_readParser
    (defined : Defined text flags)
    (events : List Argument)
    {index : Nat}
    (atIndex : flags[index]? = some flag)
    {pointer : Pointer}
    (asked : text pointer = text flag.longopt) :
    (readParser flags events).lookup pointer =
      if pointer = flag.longopt then
        some { flag with values := valuesOf index events }
      else none := by
  have isFlag := flags_readParser defined events atIndex
  cases found : (readParser flags events).lookup pointer with
  | none =>
      rw [if_neg]
      rintro rfl
      have missed := List.find?_eq_none.mp found _ (List.mem_of_getElem? isFlag)
      exact missed (decide_eq_true rfl)
  | some other =>
      have samePointer : other.longopt = pointer := by
        simpa using List.find?_some found
      obtain ⟨place, atPlace⟩ :=
        List.mem_iff_getElem?.mp (List.mem_of_find?_eq_some found)
      obtain ⟨state, atState, rfl⟩ := exists_of_readParser defined atPlace
      have samePlace : place = index := by
        refine defined.index_eq atState atIndex ?_
        rw [← asked, ← samePointer]
      subst samePlace
      cases atState.symm.trans atIndex
      exact (if_pos samePointer.symm).symm

/-- What a command line sets is set for a flag. -/
theorem exists_flag
    (fits : ∀ item ∈ items, item.Fits flags)
    {index : Nat}
    {value : Bytes}
    (isSaid : .value index value ∈ items.map Item.argument) :
    ∃ flag, flags[index]? = some flag := by
  obtain ⟨item, isItem, same⟩ := List.mem_map.mp isSaid
  have fitsItem := fits item isItem
  cases item with
  | positional arg => cases same
  | switch _ _ | value _ _ _ _ =>
      cases same
      obtain ⟨state, atIndex, -⟩ := fitsItem
      exact ⟨state, atIndex⟩

/-- All that a command line says is read if it is understood. -/
theorem allRead_of_understood
    {ask : Nat → Pointer}
    (defined : Defined text flags)
    (fits : ∀ item ∈ items, item.Fits flags)
    (read : readArgs text flags (items.flatMap (Item.arguments text flags)) =
      some events)
    (understood : Understood text ask flags items) :
    (items.map Item.argument).Subperm events := by
  have result := congrArg Prod.snd (parsed_of_read defined read)
  rw [List.subperm_ext_iff]
  intro said isSaid
  cases said with
  | positional arg =>
      have argv := understood.getArgv
      rw [result, FlagParser.getArgv, readParser, FlagParser.argv_foldl,
        List.nil_append] at argv
      rw [← count_positionalsOf, ← count_positionalsOf, argv]
  | value index value =>
      obtain ⟨flag, atIndex⟩ := exists_flag fits isSaid
      have given : givenFor index items ≠ [] :=
        List.ne_nil_of_mem (mem_valuesOf.mpr isSaid)
      have values := understood.values index given
      rw [result, flags_readParser defined events atIndex] at values
      rw [← count_valuesOf, ← count_valuesOf, ← givenFor,
        ← Option.some.inj values]

/-- `parseArgv` understands a command line if and only if it attaches no value
with `=`, gives no flag by a name that an earlier flag grabs, and the getters are
asked with the pointers that the flags were defined with. -/
theorem understood_iff
    {ask : Nat → Pointer}
    (defined : Defined text flags)
    (asked : ∀ (index : Nat) flag, flags[index]? = some flag →
      text (ask index) = text flag.longopt)
    (fits : ∀ item ∈ items, item.Fits flags)
    (complete : ∀ (index : Nat) flag, flags[index]? = some flag →
      flag.required = true → givenFor index items ≠ []) :
    Understood text ask flags items ↔
      (∀ item ∈ items, item.attaches = false ∧ item.Clear text flags) ∧
        ∀ (index : Nat) flag, flags[index]? = some flag → flag.type = .string →
          givenFor index items ≠ [] → ask index = flag.longopt := by
  constructor
  · intro understood
    cases read : readArgs text flags
        (items.flatMap (Item.arguments text flags)) with
    | none => exact absurd understood.succeeds (parsed_of_not_read defined read)
    | some events =>
        have allRead := allRead_of_understood defined fits read understood
        have detached := attaches_eq_false fits read allRead
        have clear := clear_of_read defined fits detached read allRead
        refine ⟨fun item isItem => ⟨detached item isItem, clear item isItem⟩, ?_⟩
        intro index flag atIndex isString given
        have strings := understood.getStrings index flag atIndex isString given
        rw [parsed_of_read defined read, FlagParser.getStrings,
          lookup_readParser defined events atIndex (asked index flag atIndex)]
          at strings
        by_contra otherPointer
        rw [if_neg otherPointer] at strings
        exact given (Option.some.inj strings).symm
  · rintro ⟨clear, pointers⟩
    have read := readArgs_items defined fits clear
    have result := parsed_of_read defined read
    have found (index : Nat) flag (atIndex : flags[index]? = some flag)
        (isString : flag.type = .string) (given : givenFor index items ≠ []) :
        (readParser flags (items.map Item.argument)).lookup (ask index) =
          some { flag with values := givenFor index items } := by
      rw [lookup_readParser defined _ atIndex (asked index flag atIndex),
        if_pos (pointers index flag atIndex isString given)]
      rfl
    constructor
    · rw [result, FlagParser.checkRequired]
      have noneMissing : (readParser flags (items.map Item.argument)).flags.find?
          (fun flag => flag.required && flag.values.isEmpty) = none := by
        refine List.find?_eq_none.mpr fun state isState => ?_
        obtain ⟨index, atIndex⟩ := List.mem_iff_getElem?.mp isState
        obtain ⟨flag, isFlag, rfl⟩ := exists_of_readParser defined atIndex
        have given := complete index flag isFlag
        rw [givenFor] at given
        simpa using given
      rw [noneMissing]
    · intro index given
      obtain ⟨value, isGiven⟩ := List.exists_mem_of_ne_nil _ given
      obtain ⟨flag, atIndex⟩ := exists_flag fits (mem_valuesOf.mp isGiven)
      rw [result, flags_readParser defined _ atIndex]
      rfl
    · intro index flag atIndex isString given
      rw [result, FlagParser.getStrings, found index flag atIndex isString given]
      simp [isString, given]
    · intro index flag atIndex isString last isLast
      have given : givenFor index items ≠ [] :=
        List.ne_nil_of_mem (List.mem_of_getLast? isLast)
      rw [Option.mem_def] at isLast
      rw [result, FlagParser.getString, found index flag atIndex isString given]
      simp [isString, isLast]
    · rw [result, FlagParser.getArgv, readParser, FlagParser.argv_foldl,
        List.nil_append]

/-- The texts and flags of a program with the flag `--config` or `-c`. -/
def configText : Pointer → Bytes
  | 0 => bytes "config"
  | _ => bytes "c"

def configFlags : List FlagState :=
  [{ type := .string, required := false, longopt := 0, shortopt := some 1 }]

theorem defined_configFlags : Defined configText configFlags where
  longNames := List.pairwise_singleton _ _
  shortNames := List.pairwise_singleton _ _
  oneCharacter := by decide
  fresh := by decide

theorem understood_iff_detached :
    Understood configText (fun _ => 0) configFlags
        [.value 0 true false (bytes "/etc/evcollect.conf")] ↔
      (∀ item ∈ [Item.value 0 true false (bytes "/etc/evcollect.conf")],
        item.attaches = false ∧ item.Clear configText configFlags) ∧
        ∀ (index : Nat) flag, configFlags[index]? = some flag →
          flag.type = .string → givenFor index
            [.value 0 true false (bytes "/etc/evcollect.conf")] ≠ [] →
          0 = flag.longopt := by
  refine understood_iff defined_configFlags ?_ ?_ ?_
  · rintro (_ | index) flag atIndex <;> cases atIndex
    rfl
  · rw [List.forall_mem_singleton]
    exact ⟨_, rfl, by decide, by decide⟩
  · rintro (_ | index) flag atIndex <;> cases atIndex
    exact nofun

/-- The value that is attached with `=` becomes a positional argument. -/
theorem not_understood_attached :
    Defined configText configFlags ∧
      Item.Fits configFlags
        (.value 0 false true (bytes "/etc/evcollect.conf")) ∧
      (parsed configText configFlags
        [.value 0 false true (bytes "/etc/evcollect.conf")]) =
        (ReturnCode.success, {
          argv := [bytes "--config=/etc/evcollect.conf"]
          flags := configFlags }) ∧
      ¬ Understood configText (fun _ => 0) configFlags
        [.value 0 false true (bytes "/etc/evcollect.conf")] := by
  have result : parsed configText configFlags
      [.value 0 false true (bytes "/etc/evcollect.conf")] =
        (ReturnCode.success, {
          argv := [bytes "--config=/etc/evcollect.conf"]
          flags := configFlags }) := by
    decide
  refine ⟨defined_configFlags,
    ⟨_, rfl, by decide, by decide⟩, result, ?_⟩
  intro understood
  have argv := understood.getArgv
  rw [result] at argv
  exact absurd argv (by decide)

end

end EvCollect
