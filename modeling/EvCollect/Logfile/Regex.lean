import Mathlib.Data.List.Nodup
import EvCollect.Logfile.Encoding

/-!
# Named groups of regular expressions

What `setRegex` reads out of the name table of the regular expression library, and
what becomes of the groups of a match. A name is taken with the width of the
longest one, and the offsets of a match have room for 36 groups.
-/

namespace EvCollect
namespace Logfile

open Process Json StringUtil

/-! ## Name tables -/

/-- An entry of a name table: the number of a group, its name and what stands
behind the zero byte. -/
structure NamedGroup where
  number : Nat
  name : Bytes
  padding : Bytes
  deriving DecidableEq, Repr

namespace NamedGroup

def entry (group : NamedGroup) : Bytes :=
  UInt8.ofNat (group.number / 256) :: UInt8.ofNat (group.number % 256) ::
    (group.name ++ 0 :: group.padding)

/-- What `setRegex` takes for the name. -/
def field (pcre : Pcre) (group : NamedGroup) : Bytes :=
  (group.name ++ 0 :: group.padding).take (pcre.nameEntrySize - 3)

end NamedGroup

/-- What the regular expression library promises of its name table. -/
structure NameTable (pcre : Pcre) (groups : List NamedGroup) : Prop where
  count : pcre.nameCount = groups.length
  table : pcre.nameTable = groups.flatMap NamedGroup.entry
  size : ∀ group ∈ groups, group.entry.length = pcre.nameEntrySize
  /-- The entries are as long as the longest name needs. -/
  longest : groups ≠ [] →
    ∃ group ∈ groups, pcre.nameEntrySize = group.name.length + 3
  name : ∀ group ∈ groups, group.name ≠ [] ∧ 0 ∉ group.name
  /-- Names have 32 characters at most. -/
  short : ∀ group ∈ groups, group.name.length ≤ 32
  number : ∀ group ∈ groups,
    0 < group.number ∧ group.number ≤ pcre.captureCount
  /-- Groups are counted in two bytes. -/
  captures : pcre.captureCount < 2 ^ 16
  numbers : (groups.map NamedGroup.number).Nodup

theorem number_of_bytes
    {number : Nat}
    (small : number < 2 ^ 16) :
    (UInt8.ofNat (number / 256)).toNat * 256 +
      (UInt8.ofNat (number % 256)).toNat = number := by
  rw [UInt8.toNat_ofNat', UInt8.toNat_ofNat']
  omega

theorem NamedGroup.length_entry (group : NamedGroup) :
    group.entry.length = group.name.length + group.padding.length + 3 := by
  simp only [entry, List.length_cons, List.length_append]
  omega

/-- The loop over the table stores one field for each entry. -/
theorem nameFields_eq
    {pcre : Pcre}
    (groups : List NamedGroup)
    (size : ∀ group ∈ groups, group.entry.length = pcre.nameEntrySize)
    (small : ∀ group ∈ groups, group.number < 2 ^ 16)
    (fields : List Bytes) :
    LogfileSource.nameFields pcre groups.length
        (groups.flatMap NamedGroup.entry) fields =
      groups.foldl (fun fields group =>
        fields.set group.number (group.field pcre)) fields := by
  induction groups generalizing fields with
  | nil => rfl
  | cons group groups inductionHypothesis =>
      have length := size group List.mem_cons_self
      have rest := inductionHypothesis
        (fun other member => size other (List.mem_cons_of_mem _ member))
        (fun other member => small other (List.mem_cons_of_mem _ member))
      have number : ((group.entry ++
            groups.flatMap NamedGroup.entry).getD 0 0).toNat * 256 +
          ((group.entry ++ groups.flatMap NamedGroup.entry).getD 1 0).toNat =
            group.number :=
        number_of_bytes (small group List.mem_cons_self)
      have name : ((group.entry ++ groups.flatMap NamedGroup.entry).drop 2).take
          (pcre.nameEntrySize - 3) = group.field pcre := by
        rw [group.length_entry] at length
        apply List.take_append_of_le_length
        simp only [List.length_append, List.length_cons]
        omega
      rw [List.flatMap_cons, List.length_cons, LogfileSource.nameFields, number,
        name, ← length, List.drop_left, rest]
      rfl

section

variable {value : NamedGroup → Bytes}
variable {groups : List NamedGroup}
variable {fields : List Bytes}

theorem length_foldl_set :
    (groups.foldl (fun fields group =>
      fields.set group.number (value group)) fields).length = fields.length := by
  induction groups generalizing fields with
  | nil => rfl
  | cons group groups inductionHypothesis =>
      rw [List.foldl_cons, inductionHypothesis, List.length_set]

/-- Groups of another number leave a field. -/
theorem foldl_set_other
    {number : Nat}
    (other : number ∉ groups.map NamedGroup.number) :
    (groups.foldl (fun fields group =>
      fields.set group.number (value group)) fields)[number]? =
        fields[number]? := by
  induction groups generalizing fields with
  | nil => rfl
  | cons group groups inductionHypothesis =>
      rw [List.map_cons, List.mem_cons, not_or] at other
      rw [List.foldl_cons, inductionHypothesis other.2,
        List.getElem?_set_ne (Ne.symm other.1)]

/-- Among groups with distinct numbers each sets its own field. -/
theorem foldl_set_mem
    (numbers : (groups.map NamedGroup.number).Nodup)
    {group : NamedGroup}
    (member : group ∈ groups)
    (inside : group.number < fields.length) :
    (groups.foldl (fun fields group =>
      fields.set group.number (value group)) fields)[group.number]? =
        some (value group) := by
  induction groups generalizing fields with
  | nil => cases member
  | cons first groups inductionHypothesis =>
      rw [List.map_cons, List.nodup_cons] at numbers
      rw [List.foldl_cons]
      rcases List.mem_cons.mp member with rfl | member
      · rw [foldl_set_other numbers.1, List.getElem?_set_self inside]
      · exact inductionHypothesis numbers.2 member (by simpa using inside)

end

/-! ## The fields that `setRegex` leaves -/

/-- The fields of a regular expression with these groups. -/
def tableFields (pcre : Pcre) : List Bytes :=
  LogfileSource.nameFields pcre pcre.nameCount pcre.nameTable
    (List.replicate (pcre.captureCount + 1) [])

variable {pcre : Pcre}
variable {groups : List NamedGroup}

theorem NameTable.fields_eq (table : NameTable pcre groups) :
    tableFields pcre =
      groups.foldl (fun fields group =>
        fields.set group.number (group.field pcre))
        (List.replicate (pcre.captureCount + 1) []) := by
  have small : ∀ group ∈ groups, group.number < 2 ^ 16 := fun group member =>
    Nat.lt_of_le_of_lt (table.number group member).2 table.captures
  rw [tableFields, table.count, table.table]
  exact nameFields_eq groups table.size small _

theorem NameTable.length_fields (table : NameTable pcre groups) :
    (tableFields pcre).length = pcre.captureCount + 1 := by
  rw [table.fields_eq, length_foldl_set, List.length_replicate]

theorem NameTable.field_mem
    (table : NameTable pcre groups)
    {group : NamedGroup}
    (member : group ∈ groups) :
    (tableFields pcre)[group.number]? = some (group.field pcre) := by
  have inside := (table.number group member).2
  rw [table.fields_eq]
  exact foldl_set_mem table.numbers member (by simpa using Nat.lt_succ_of_le inside)

theorem NameTable.field_other
    (table : NameTable pcre groups)
    {number : Nat}
    (unnamed : number ∉ groups.map NamedGroup.number)
    (inside : number ≤ pcre.captureCount) :
    (tableFields pcre)[number]? = some [] := by
  rw [table.fields_eq, foldl_set_other unnamed,
    List.getElem?_replicate_of_lt (Nat.lt_succ_of_le inside)]

/-- A name is taken as it is if and only if it is as long as the longest one. -/
theorem field_eq_name_iff
    {group : NamedGroup}
    (length : group.entry.length = pcre.nameEntrySize) :
    group.field pcre = group.name ↔
      pcre.nameEntrySize = group.name.length + 3 := by
  rw [group.length_entry] at length
  constructor
  · intro equal
    have lengths := congrArg List.length equal
    rw [NamedGroup.field, List.length_take, List.length_append,
      List.length_cons] at lengths
    omega
  · intro longest
    rw [NamedGroup.field, longest, Nat.add_sub_cancel, List.take_left]

/-- Every named group has its name for a field, and every other one none. -/
structure RightFields
    (pcre : Pcre)
    (groups : List NamedGroup)
    (fields : List Bytes) : Prop where
  length : fields.length = pcre.captureCount + 1
  named : ∀ group ∈ groups, fields[group.number]? = some group.name
  unnamed : ∀ number ≤ pcre.captureCount,
    number ∉ groups.map NamedGroup.number → fields[number]? = some []

theorem rightFields_iff (table : NameTable pcre groups) :
    RightFields pcre groups (tableFields pcre) ↔
      ∀ group ∈ groups, ∀ other ∈ groups,
        group.name.length = other.name.length := by
  have asLong (group : NamedGroup) (member : group ∈ groups) :
      (tableFields pcre)[group.number]? = some group.name ↔
        pcre.nameEntrySize = group.name.length + 3 := by
    rw [table.field_mem member, ← field_eq_name_iff (table.size group member)]
    exact Option.some_inj
  constructor
  · intro right group member other otherMember
    have first := (asLong group member).mp (right.named group member)
    have second := (asLong other otherMember).mp (right.named other otherMember)
    omega
  · intro same
    refine ⟨table.length_fields, ?_, fun number inside unnamed =>
      table.field_other unnamed inside⟩
    intro group member
    obtain ⟨longest, longestMember, size⟩ :=
      table.longest (List.ne_nil_of_mem member)
    rw [asLong group member, same group member longest longestMember]
    exact size

/-- What a call of `setRegex` that succeeds leaves. -/
theorem setRegex_of_success
    {compile : PcreCompile}
    {regex : Bytes}
    (compiled : compile regex = .ok pcre)
    {source : LogfileSource}
    (succeeded : (source.setRegex compile regex).1 = ReturnCode.success) :
    (source.setRegex compile regex).2 =
      { source with
        pcreHandle := some pcre
        pcreFields := tableFields pcre } := by
  rw [LogfileSource.setRegex, compiled] at succeeded ⊢
  dsimp only at succeeded ⊢
  split at succeeded
  next => cases succeeded
  next named => rw [if_neg named]; rfl

/-- The fields are the names if and only if all names have the same length. -/
theorem setRegex_fields_iff
    {compile : PcreCompile}
    {regex : Bytes}
    {pcre : Pcre}
    {groups : List NamedGroup}
    (compiled : compile regex = .ok pcre)
    (table : NameTable pcre groups)
    (source : LogfileSource) :
    ((source.setRegex compile regex).1 = ReturnCode.success →
        RightFields pcre groups (source.setRegex compile regex).2.pcreFields) ↔
      ∀ group ∈ groups, ∀ other ∈ groups,
        group.name.length = other.name.length := by
  rw [← rightFields_iff table]
  have fields (succeeded : (source.setRegex compile regex).1 =
      ReturnCode.success) :
      (source.setRegex compile regex).2.pcreFields = tableFields pcre := by
    rw [setRegex_of_success compiled succeeded]
  cases named : groups with
  | nil =>
      subst named
      have fails : (source.setRegex compile regex).1 ≠ ReturnCode.success := by
        rw [LogfileSource.setRegex, compiled]
        dsimp only
        rw [if_pos (by simp [table.count])]
        intro equal
        cases equal
      have right : RightFields pcre [] (tableFields pcre) := by
        rw [rightFields_iff table]
        intro group member
        cases member
      exact ⟨fun _ => right, fun _ succeeded => absurd succeeded fails⟩
  | cons first rest =>
      subst named
      have succeeds : (source.setRegex compile regex).1 =
          ReturnCode.success := by
        rw [LogfileSource.setRegex, compiled]
        dsimp only
        rw [if_neg (by simp [table.count])]
      rw [fields succeeds]
      exact ⟨fun right => right succeeds, fun right _ => right⟩

/-- A regular expression of two groups that matches nothing. -/
def twoGroups (groups : List NamedGroup) (nameEntrySize : Nat) : Pcre :=
  { nameCount := groups.length
    captureCount := 2
    nameTable := groups.flatMap NamedGroup.entry
    nameEntrySize := nameEntrySize
    exec := fun _ => { rc := -1, ovector := fun _ => -1 } }

/-- The groups of `(?<time>\S+) (?<path>\S+)`, in the order of their names. -/
def sameLengths : List NamedGroup :=
  [{ number := 2, name := bytes "path", padding := [] },
    { number := 1, name := bytes "time", padding := [] }]

/-- The groups of `(?<ip>\S+) (?<path>\S+)`. -/
def differentLengths : List NamedGroup :=
  [{ number := 1, name := bytes "ip", padding := [0, 0] },
    { number := 2, name := bytes "path", padding := [] }]

theorem nameTable_sameLengths :
    NameTable (twoGroups sameLengths 7) sameLengths where
  count := rfl
  table := rfl
  size := by decide
  longest := fun _ => by decide
  name := by decide
  short := by decide
  number := by decide
  captures := by decide
  numbers := by decide

theorem nameTable_differentLengths :
    NameTable (twoGroups differentLengths 7) differentLengths where
  count := rfl
  table := rfl
  size := by decide
  longest := fun _ => by decide
  name := by decide
  short := by decide
  number := by decide
  captures := by decide
  numbers := by decide

theorem setRegex_fields_iff_sameLengths :
    ((freshSource.setRegex (fun _ => .ok (twoGroups sameLengths 7))
          (bytes "(?<time>\\S+) (?<path>\\S+)")).1 = ReturnCode.success →
        RightFields (twoGroups sameLengths 7) sameLengths
          (freshSource.setRegex (fun _ => .ok (twoGroups sameLengths 7))
            (bytes "(?<time>\\S+) (?<path>\\S+)")).2.pcreFields) ↔
      ∀ group ∈ sameLengths, ∀ other ∈ sameLengths,
        group.name.length = other.name.length :=
  setRegex_fields_iff rfl nameTable_sameLengths freshSource

/-- The field of the shorter name is longer than the name. -/
theorem setRegex_differentLengths :
    NameTable (twoGroups differentLengths 7) differentLengths ∧
      (freshSource.setRegex (fun _ => .ok (twoGroups differentLengths 7))
        (bytes "(?<ip>\\S+) (?<path>\\S+)")).1 = ReturnCode.success ∧
      ¬ RightFields (twoGroups differentLengths 7) differentLengths
        (freshSource.setRegex (fun _ => .ok (twoGroups differentLengths 7))
          (bytes "(?<ip>\\S+) (?<path>\\S+)")).2.pcreFields := by
  refine ⟨nameTable_differentLengths, rfl, fun right => ?_⟩
  have named := right.named _ List.mem_cons_self
  revert named
  decide

/-! ## Fields as names of members -/

/-- Up to its first zero byte a field is the name. -/
theorem cString_field
    (table : NameTable pcre groups)
    {group : NamedGroup}
    (member : group ∈ groups) :
    cString (group.field pcre) = group.name := by
  have noZero : ∀ byte ∈ group.name, decide (byte ≠ 0) = true := by
    intro byte inName
    rw [decide_eq_true_iff]
    rintro rfl
    exact (table.name group member).2 inName
  have length := table.size group member
  rw [group.length_entry] at length
  by_cases longest : pcre.nameEntrySize = group.name.length + 3
  · rw [(field_eq_name_iff (table.size group member)).mpr longest, cString,
      List.takeWhile_eq_self_iff.mpr noZero]
  · obtain ⟨more, size⟩ : ∃ more, pcre.nameEntrySize - 3 =
        group.name.length + (more + 1) :=
      ⟨group.padding.length - 1, by omega⟩
    rw [NamedGroup.field, size, List.take_length_add_append, List.take_succ_cons,
      cString, List.takeWhile_append_of_pos noZero,
      List.takeWhile_cons_of_neg (by decide), List.append_nil]

theorem field_ne_nil
    (table : NameTable pcre groups)
    {group : NamedGroup}
    (member : group ∈ groups) :
    group.field pcre ≠ [] := by
  intro empty
  have name := cString_field table member
  rw [empty] at name
  exact (table.name group member).1 name.symm

theorem getD_field
    (table : NameTable pcre groups)
    {group : NamedGroup}
    (member : group ∈ groups) :
    (tableFields pcre).getD group.number [] = group.field pcre := by
  rw [List.getD_eq_getElem?_getD, table.field_mem member, Option.getD_some]

/-- A field that is not empty belongs to a named group. -/
theorem exists_group
    (table : NameTable pcre groups)
    {number : Nat}
    (named : (tableFields pcre).getD number [] ≠ []) :
    ∃ group ∈ groups, group.number = number := by
  by_contra unnamed
  apply named
  have other : number ∉ groups.map NamedGroup.number := by
    simpa using unnamed
  rw [List.getD_eq_getElem?_getD]
  by_cases inside : number ≤ pcre.captureCount
  · rw [table.field_other other inside, Option.getD_some]
  · rw [List.getElem?_eq_none (by rw [table.length_fields]; omega),
      Option.getD_none]

theorem length_field_le
    (table : NameTable pcre groups)
    {group : NamedGroup}
    (member : group ∈ groups) :
    (group.field pcre).length ≤ 32 := by
  obtain ⟨longest, longestMember, size⟩ :=
    table.longest (List.ne_nil_of_mem member)
  have short := table.short longest longestMember
  rw [NamedGroup.field, List.length_take]
  omega

/-! ## Matches -/

/-- A match of a line: where each group that took part begins and ends. -/
structure Match (rawLine : Bytes) where
  capture : Nat → Option (Nat × Nat)
  highest : Nat
  atHighest : capture highest ≠ none
  beyond : ∀ {group}, highest < group → capture group = none
  inside : ∀ {group start stop}, capture group = some (start, stop) →
    start ≤ stop ∧ stop ≤ rawLine.length

namespace Match

variable {rawLine : Bytes}

/-- The bytes that a group has captured, if it took part. -/
def data (found : Match rawLine) (group : Nat) : Option Bytes :=
  (found.capture group).map fun offsets =>
    (rawLine.take offsets.2).drop offsets.1

/-- What `pcre_exec` promises to report of a match, given a vector of `int`s with
room for 36 groups. -/
structure Reported (found : Match rawLine) (result : PcreMatch) : Prop where
  rc : result.rc = if found.highest < 36 then (found.highest : Int) + 1 else 0
  set : ∀ {group start stop}, group < 36 →
    found.capture group = some (start, stop) →
    result.ovector (2 * group) = start ∧ result.ovector (2 * group + 1) = stop
  unset : ∀ {group}, group < 36 → group ≤ found.highest →
    found.capture group = none →
    result.ovector (2 * group) = -1 ∧ result.ovector (2 * group + 1) = -1
  int : ∀ place, result.ovector place < 2 ^ 31

variable {found : Match rawLine}
variable {result : PcreMatch}

theorem Reported.captures
    (reported : found.Reported result)
    {group : Nat}
    (room : group < 36)
    (below : group ≤ found.highest) :
    result.Captures rawLine group := by
  cases captured : found.capture group with
  | none => exact .inl (reported.unset room below captured)
  | some offsets =>
      obtain ⟨start, stop⟩ := offsets
      obtain ⟨first, second⟩ := reported.set room captured
      obtain ⟨ordered, inside⟩ := found.inside captured
      right
      rw [first, second]
      omega

/-- A group that took no part leaves nothing. -/
theorem Reported.captured
    (reported : found.Reported result)
    {group : Nat}
    (room : group < 36)
    (below : group ≤ found.highest) :
    result.captured rawLine group = (found.data group).getD [] := by
  cases capture : found.capture group with
  | none =>
      obtain ⟨first, -⟩ := reported.unset room below capture
      rw [PcreMatch.captured, if_pos first, data, capture]
      rfl
  | some offsets =>
      obtain ⟨first, second⟩ := reported.set room capture
      rw [PcreMatch.captured, first, second, if_neg (by omega), data, capture]
      rfl

/-- With room for all groups the loop goes through those up to the highest. -/
theorem Reported.groups_eq
    (reported : found.Reported result)
    (room : found.highest < 36) :
    result.groups = List.range' 1 found.highest := by
  rw [PcreMatch.groups, reported.rc, if_pos room]
  rfl

end Match

theorem length_captured_lt
    {result : PcreMatch}
    (int : ∀ place, result.ovector place < 2 ^ 31)
    (rawLine : Bytes)
    (group : Nat) :
    (result.captured rawLine group).length < 2 ^ 31 := by
  have stop := int (2 * group + 1)
  rw [PcreMatch.captured]
  split
  · exact Nat.two_pow_pos 31
  · rw [List.length_drop, List.length_take]
    omega

/-! ## Members -/

/-- What an event tells: nothing if it is empty, otherwise the members of an
object. -/
def Tells (event : Bytes) (members : List (Bytes × Bytes)) : Prop :=
  event = [] ∧ members = [] ∨
    ∀ value, Text event value ↔
      value = .object (members.map fun member => (member.1, .string member.2))

/-- The members of an event are different groups, with what each has captured,
and among them are all that took part in the match. -/
def HasCaptures
    (fields : List Bytes)
    (groups : List NamedGroup)
    {rawLine : Bytes}
    (found : Match rawLine)
    (event : Bytes) : Prop :=
  ∃ told : List NamedGroup,
    told.Nodup ∧ told ⊆ groups ∧
      Tells event (told.map fun group =>
        (fields.getD group.number [], (found.data group.number).getD [])) ∧
      ∀ group ∈ groups, found.data group.number ≠ none → group ∈ told

theorem tells_nil_iff {members : List (Bytes × Bytes)} :
    Tells [] members ↔ members = [] := by
  constructor
  · rintro (⟨-, empty⟩ | isText)
    · exact empty
    · exact absurd rfl ((isText _).mpr rfl).ne_nil
  · rintro rfl
    exact .inl ⟨rfl, rfl⟩

theorem tells_object_iff {members others : List (Bytes × Bytes)} :
    Tells (bytes "\x7b" ++ membersText 0 members ++ bytes "\x7d") others ↔
      others = members := by
  constructor
  · rintro (⟨empty, -⟩ | isText)
    · exact absurd empty (text_object members).ne_nil
    · have same := (isText _).mp (text_object members)
      injection same with same
      refine List.map_injective_iff.mpr ?_ same.symm
      rintro ⟨name, data⟩ ⟨otherName, otherData⟩ equal
      cases equal
      rfl
  · rintro rfl
    exact .inr (text_iff (text_object _))

/-- An event without members has all captures if there are none. -/
theorem hasCaptures_iff_of_empty
    {fields : List Bytes}
    {rawLine event : Bytes}
    {found : Match rawLine}
    (empty : ∀ members, Tells event members ↔ members = []) :
    HasCaptures fields groups found event ↔
      ∀ group ∈ groups, found.data group.number = none := by
  constructor
  · rintro ⟨told, -, -, tells, all⟩ group member
    rw [empty, List.map_eq_nil_iff] at tells
    subst tells
    by_contra took
    cases all group member took
  · intro nothing
    refine ⟨[], List.nodup_nil, List.nil_subset _, (empty _).mpr rfl, ?_⟩
    intro group member took
    exact absurd (nothing group member) took

/-- The named group of a number. -/
def groupOf (groups : List NamedGroup) (number : Nat) : Option NamedGroup :=
  groups.find? fun group => group.number = number

theorem groupOf_some
    {number : Nat}
    {group : NamedGroup}
    (found : groupOf groups number = some group) :
    group ∈ groups ∧ group.number = number :=
  ⟨List.mem_of_find?_eq_some found, by simpa using List.find?_some found⟩

theorem groupOf_mem
    (numbers : (groups.map NamedGroup.number).Nodup)
    {group : NamedGroup}
    (member : group ∈ groups) :
    groupOf groups group.number = some group := by
  cases looked : groupOf groups group.number with
  | none =>
      have different := List.find?_eq_none.mp looked group member
      simp at different
  | some other =>
      obtain ⟨otherMember, same⟩ := groupOf_some looked
      rw [List.inj_on_of_nodup_map numbers otherMember member same]

/-- The members that the loop writes are the named groups among the numbers. -/
theorem namedCaptures_eq
    (table : NameTable pcre groups)
    {rawLine : Bytes}
    {found : Match rawLine}
    {result : PcreMatch}
    (reported : found.Reported result)
    {numbers : List Nat}
    (room : ∀ number ∈ numbers, number < 36 ∧ number ≤ found.highest) :
    namedCaptures (tableFields pcre) result rawLine numbers =
      (numbers.filterMap (groupOf groups)).map fun group =>
        ((tableFields pcre).getD group.number [],
          (found.data group.number).getD []) := by
  induction numbers with
  | nil => rfl
  | cons number numbers inductionHypothesis =>
      have rest := inductionHypothesis fun other member =>
        room other (List.mem_cons_of_mem _ member)
      obtain ⟨inside, below⟩ := room number List.mem_cons_self
      rw [namedCaptures] at rest ⊢
      cases named : groupOf groups number with
      | none =>
          have empty : (tableFields pcre).getD number [] = [] := by
            by_contra nonempty
            obtain ⟨group, member, rfl⟩ := exists_group table nonempty
            rw [groupOf_mem table.numbers member] at named
            cases named
          rw [List.filter_cons_of_neg (by simp only [empty]; decide), rest,
            List.filterMap_cons_none named]
      | some group =>
          obtain ⟨member, rfl⟩ := groupOf_some named
          have nonempty : (tableFields pcre).getD group.number [] ≠ [] := by
            rw [getD_field table member]
            exact field_ne_nil table member
          rw [List.filter_cons_of_pos (by simpa using nonempty), List.map_cons,
            rest, List.filterMap_cons_some named, List.map_cons,
            reported.captured inside below]

/-- A source with a regular expression that `setRegex` has accepted. -/
structure HasRegex
    (compile : PcreCompile)
    (regex : Bytes)
    (source : LogfileSource) : Prop where
  accepted : ∃ before : LogfileSource,
    (before.setRegex compile regex).1 = ReturnCode.success ∧
      source.pcreHandle = (before.setRegex compile regex).2.pcreHandle ∧
      source.pcreFields = (before.setRegex compile regex).2.pcreFields

theorem HasRegex.fields
    {compile : PcreCompile}
    {regex : Bytes}
    {source : LogfileSource}
    (hasRegex : HasRegex compile regex source)
    (compiled : compile regex = .ok pcre) :
    source.pcreHandle = some pcre ∧ source.pcreFields = tableFields pcre := by
  obtain ⟨before, succeeded, handle, fields⟩ := hasRegex.accepted
  rw [handle, fields, setRegex_of_success compiled succeeded]
  exact ⟨rfl, rfl⟩

section

variable {source : LogfileSource}
variable {rawLine : Bytes}
variable {found : Match rawLine}

/-- Without room for all groups the event is an object without members. -/
theorem formatEvent_noRoom
    (handle : source.pcreHandle = some pcre)
    (reported : found.Reported (pcre.exec rawLine))
    (noRoom : ¬ found.highest < 36) :
    source.formatEvent rawLine [] =
      some (bytes "\x7b" ++ membersText 0 [] ++ bytes "\x7d") := by
  have rc : (pcre.exec rawLine).rc = 0 := by rw [reported.rc, if_neg noRoom]
  rw [LogfileSource.formatEvent, handle]
  dsimp only
  rw [rc]
  rfl

/-- With room for all groups the event has the members of the named ones. -/
theorem formatEvent_room
    (table : NameTable pcre groups)
    (handle : source.pcreHandle = some pcre)
    (fields : source.pcreFields = tableFields pcre)
    (reported : found.Reported (pcre.exec rawLine))
    (room : found.highest < 36) :
    source.formatEvent rawLine [] =
      some (bytes "\x7b" ++ membersText 0 (namedCaptures (tableFields pcre)
        (pcre.exec rawLine) rawLine (List.range' 1 found.highest)) ++
          bytes "\x7d") := by
  have captures : ∀ group ∈ List.range' 1 found.highest,
      (pcre.exec rawLine).Captures rawLine group := by
    intro group member
    rw [List.mem_range'_1] at member
    exact reported.captures (by omega) (by omega)
  have escapable : ∀ member ∈ namedCaptures (tableFields pcre)
      (pcre.exec rawLine) rawLine (List.range' 1 found.highest),
      Escapable member := by
    intro member present
    obtain ⟨number, inRange, rfl⟩ := List.mem_map.mp present
    obtain ⟨-, named⟩ := List.mem_filter.mp inRange
    obtain ⟨group, inTable, rfl⟩ := exists_group table (by simpa using named)
    have nameFits := length_field_le table inTable
    rw [getD_field table inTable]
    constructor
    · change (group.field pcre).length ≤ _
      omega
    · exact (length_captured_lt reported.int rawLine group.number).le
  have appended := appendMembers_eq _ captures escapable 0 ([] ++ bytes "\x7b")
  have positive : 0 ≤ (pcre.exec rawLine).rc := by
    rw [reported.rc, if_pos room]
    omega
  rw [← reported.groups_eq room] at appended ⊢
  rw [LogfileSource.formatEvent, handle]
  change (if 0 ≤ (pcre.exec rawLine).rc then
    (LogfileSource.appendMembers source.pcreFields (pcre.exec rawLine) rawLine
      (pcre.exec rawLine).groups 0 ([] ++ bytes "\x7b")).map _
    else _) = _
  rw [if_pos positive, fields, appended]
  rfl

end

theorem getNextEvent_formatted
    {script rest : List Entry}
    {reader after : Reader}
    {rawLine event : Bytes}
    (line : getNextLine [] script reader = .done (.ok rawLine) rest after)
    (nonempty : rawLine ≠ [])
    (formatted : after.source.formatEvent rawLine [] = some event) :
    getNextEvent [] script reader = .done (.ok event) rest after := by
  rw [getNextEvent_eq line, if_neg (by simpa using nonempty), formatted]

/-- There is one event that is returned. -/
theorem exists_event_iff
    {script rest : List Entry}
    {reader after : Reader}
    {event : Bytes}
    {Holds : Bytes → Prop}
    (returned : getNextEvent [] script reader = .done (.ok event) rest after) :
    (∃ other, getNextEvent [] script reader = .done (.ok other) rest after ∧
      Holds other) ↔ Holds event := by
  constructor
  · rintro ⟨other, again, holds⟩
    rw [returned] at again
    cases again
    exact holds
  · intro holds
    exact ⟨event, returned, holds⟩

/-- The event of a match has all captures, given room for them. -/
theorem hasCaptures_room
    (table : NameTable pcre groups)
    {rawLine : Bytes}
    {found : Match rawLine}
    {result : PcreMatch}
    (reported : found.Reported result)
    (room : found.highest < 36) :
    HasCaptures (tableFields pcre) groups found
      (bytes "\x7b" ++ membersText 0 (namedCaptures (tableFields pcre) result
        rawLine (List.range' 1 found.highest)) ++ bytes "\x7d") := by
  refine ⟨(List.range' 1 found.highest).filterMap (groupOf groups), ?_, ?_, ?_,
    ?_⟩
  · apply List.Nodup.filterMap _ List.nodup_range'
    intro first second group found again
    rw [← (groupOf_some found).2, ← (groupOf_some again).2]
  · intro group told
    obtain ⟨number, -, looked⟩ := List.mem_filterMap.mp told
    exact (groupOf_some looked).1
  · rw [tells_object_iff, namedCaptures_eq table reported]
    intro number member
    rw [List.mem_range'_1] at member
    omega
  · intro group member took
    have below : group.number ≤ found.highest := by
      by_contra above
      rw [Match.data, found.beyond (by omega)] at took
      exact took rfl
    have positive := (table.number group member).1
    refine List.mem_filterMap.mpr ⟨group.number, ?_,
      groupOf_mem table.numbers member⟩
    rw [List.mem_range'_1]
    omega

/-- Without room for all groups the event has all captures if there are none. -/
theorem getNextEvent_noRoom
    {fields : List Bytes}
    {script rest : List Entry}
    {reader after : Reader}
    {rawLine : Bytes}
    {found : Match rawLine}
    (handle : after.source.pcreHandle = some pcre)
    (line : getNextLine [] script reader = .done (.ok rawLine) rest after)
    (reported : found.Reported (pcre.exec rawLine))
    (nonempty : rawLine ≠ [])
    (noRoom : ¬ found.highest < 36) :
    (∃ event, getNextEvent [] script reader = .done (.ok event) rest after ∧
      HasCaptures fields groups found event) ↔
      ∀ group ∈ groups, found.data group.number = none := by
  have returned := getNextEvent_formatted line nonempty
    (formatEvent_noRoom handle reported noRoom)
  rw [exists_event_iff returned]
  exact hasCaptures_iff_of_empty fun _ => tells_object_iff

/-- Each named group that took part in the match of a line is one member of the
event, if and only if the offsets have room for all groups and the line is not
empty, or there is no such group. -/
theorem getNextEvent_captures_iff
    {compile : PcreCompile}
    {regex : Bytes}
    {pcre : Pcre}
    {groups : List NamedGroup}
    {script rest : List Entry}
    {reader after : Reader}
    {rawLine : Bytes}
    {found : Match rawLine}
    (compiled : compile regex = .ok pcre)
    (table : NameTable pcre groups)
    (hasRegex : HasRegex compile regex after.source)
    (line : getNextLine [] script reader = .done (.ok rawLine) rest after)
    (reported : found.Reported (pcre.exec rawLine)) :
    (∃ event, getNextEvent [] script reader = .done (.ok event) rest after ∧
      HasCaptures after.source.pcreFields groups found event) ↔
      (rawLine ≠ [] ∧ found.highest < 36 ∨
        ∀ group ∈ groups, found.data group.number = none) := by
  obtain ⟨handle, fields⟩ := hasRegex.fields compiled
  by_cases nonempty : rawLine = []
  · have returned : getNextEvent [] script reader = .done (.ok []) rest after := by
      rw [getNextEvent_eq line, nonempty]
      rfl
    rw [exists_event_iff returned,
      hasCaptures_iff_of_empty fun _ => tells_nil_iff]
    simp [nonempty]
  by_cases room : found.highest < 36
  · have returned := getNextEvent_formatted line nonempty
      (formatEvent_room table handle fields reported room)
    rw [exists_event_iff returned, iff_true_right (.inl ⟨nonempty, room⟩),
      fields]
    exact hasCaptures_room table reported room
  · rw [getNextEvent_noRoom handle line reported nonempty room]
    simp [room]

/-! ## Nested groups -/

/-- The innermost of nested groups is named. -/
def innermost (depth : Nat) : NamedGroup :=
  { number := depth, name := bytes "x", padding := [] }

/-- Groups that are nested in each other, of which the innermost captures one
character. -/
def nestedRegex (depth : Nat) : Bytes :=
  List.replicate (depth - 1) 0x28 ++ bytes "(?<x>.)" ++
    List.replicate (depth - 1) 0x29

/-- The regular expression of nested groups, of which each captures the first
byte of a line. -/
def nested (depth : Nat) : Pcre :=
  { nameCount := 1
    captureCount := depth
    nameTable := [innermost depth].flatMap NamedGroup.entry
    nameEntrySize := 4
    exec := fun _ =>
      { rc := if depth < 36 then (depth : Int) + 1 else 0
        ovector := fun place => (place % 2 : Nat) } }

theorem nameTable_nested
    {depth : Nat}
    (positive : 0 < depth)
    (small : depth < 2 ^ 16) :
    NameTable (nested depth) [innermost depth] where
  count := rfl
  table := rfl
  size := by
    intro group member
    rw [List.mem_singleton.mp member]
    exact NamedGroup.length_entry _
  longest := fun _ => ⟨innermost depth, List.mem_singleton_self _, rfl⟩
  name := by
    intro group member
    rw [List.mem_singleton.mp member]
    change bytes "x" ≠ [] ∧ 0 ∉ bytes "x"
    decide
  short := by
    intro group member
    rw [List.mem_singleton.mp member]
    change (bytes "x").length ≤ 32
    decide
  number := by
    intro group member
    rw [List.mem_singleton.mp member]
    exact ⟨positive, Nat.le_refl _⟩
  captures := small
  numbers := List.nodup_singleton _

/-- All groups take part in the match of a line of one byte. -/
def nestedMatch (depth : Nat) : Match (bytes "a") where
  capture := fun group => if group ≤ depth then some (0, 1) else none
  highest := depth
  atHighest := by simp
  beyond := fun above => if_neg (Nat.not_le.mpr above)
  inside := by
    intro group start stop captured
    split at captured
    · cases captured
      decide
    · cases captured

theorem reported_nested (depth : Nat) :
    (nestedMatch depth).Reported ((nested depth).exec (bytes "a")) where
  rc := rfl
  set := by
    intro group start stop room captured
    change (if group ≤ depth then some (0, 1) else none) = _ at captured
    split at captured
    · cases captured
      change (((2 * group) % 2 : Nat) : Int) = _ ∧
        (((2 * group + 1) % 2 : Nat) : Int) = _
      omega
    · cases captured
  unset := by
    intro group room below unset
    change group ≤ depth at below
    change (if group ≤ depth then some (0, 1) else none) = none at unset
    rw [if_pos below] at unset
    cases unset
  int := by
    intro place
    change ((place % 2 : Nat) : Int) < _
    omega

/-- A source that matches its lines with nested groups. -/
def nestedSource (depth : Nat) : LogfileSource :=
  (freshSource.setRegex (fun _ => .ok (nested depth)) (nestedRegex depth)).2

theorem getNextLine_nested (depth : Nat) :
    ∃ reader after,
      HasRegex (fun _ => .ok (nested depth)) (nestedRegex depth)
          after.source ∧
        getNextLine [] [{}] reader = .done (.ok (bytes "a")) [] after := by
  have early : (0 : UInt64) - (nestedSource depth).lastCheckpoint <
      (nestedSource depth).checkpointIntervalMicros := by
    change (0 : UInt64) - 0 < 10 * 1000000
    decide
  obtain ⟨after, handle, fields, returned⟩ :=
    getNextLine_buffered early (oneFile [] (by decide)) (bytes "a")
  exact ⟨_, after, ⟨freshSource, rfl, handle, fields⟩, returned⟩

theorem getNextEvent_captures_iff_nested :
    ∃ reader after,
      (∃ event, getNextEvent [] [{}] reader = .done (.ok event) [] after ∧
        HasCaptures after.source.pcreFields [innermost 35] (nestedMatch 35)
          event) ↔
        (bytes "a" ≠ [] ∧ (nestedMatch 35).highest < 36 ∨
          ∀ group ∈ [innermost 35],
            (nestedMatch 35).data group.number = none) := by
  obtain ⟨reader, after, hasRegex, line⟩ := getNextLine_nested 35
  exact ⟨reader, after, getNextEvent_captures_iff rfl
    (nameTable_nested (by decide) (by decide)) hasRegex line
    (reported_nested 35)⟩

/-- One group more, and the innermost is not in the event. -/
theorem getNextEvent_nested :
    ∃ reader after,
      NameTable (nested 36) [innermost 36] ∧
        HasRegex (fun _ => .ok (nested 36)) (nestedRegex 36) after.source ∧
        getNextLine [] [{}] reader = .done (.ok (bytes "a")) [] after ∧
        (nestedMatch 36).Reported ((nested 36).exec (bytes "a")) ∧
        ¬ ∃ event, getNextEvent [] [{}] reader = .done (.ok event) [] after ∧
          HasCaptures after.source.pcreFields [innermost 36] (nestedMatch 36)
            event := by
  have table : NameTable (nested 36) [innermost 36] :=
    nameTable_nested (by decide) (by decide)
  obtain ⟨reader, after, hasRegex, line⟩ := getNextLine_nested 36
  refine ⟨reader, after, table, hasRegex, line, reported_nested 36, ?_⟩
  rw [getNextEvent_noRoom (hasRegex.fields rfl).1 line (reported_nested 36)
    (by decide) (by decide)]
  intro nothing
  cases nothing (innermost 36) (List.mem_singleton_self _)

end Logfile
end EvCollect
