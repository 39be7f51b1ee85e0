import EvCollect.Basic

/-!
# Access to properties

The functions of `PropertyList`: a key with one value, a value by the position of
its property among those with the key, and all properties with a key at once.
-/

namespace EvCollect
namespace PropertyList

/-! ## The functions -/

/-- The loop of the functions `PropertyList::get` for a single value. -/
def getFrom (key : Bytes) : List (Bytes × List Bytes) → Option Bytes
  | [] => none
  | property :: properties =>
      if property.1 ≠ key then getFrom key properties
      else if property.2.isEmpty then getFrom key properties
      else property.2.head?

/-- `PropertyList::get` for a `std::string`. -/
def getString (list : PropertyList) (key : Bytes) : Option Bytes :=
  getFrom key list.properties

/-- `PropertyList::get` for a `const char*`, which points to the bytes of the
value. -/
def getChars (list : PropertyList) (key : Bytes) : Option Bytes :=
  getFrom key list.properties

/-- The loop of `PropertyList::get` for a vector, with what has been appended and
counted. -/
def getVectorFrom (key : Bytes) :
    List (Bytes × List Bytes) → List (List Bytes) → Nat → List (List Bytes) × Nat
  | [], out, cnt => (out, cnt)
  | property :: properties, out, cnt =>
      if property.1 = key then
        getVectorFrom key properties (out ++ [property.2]) (cnt + 1)
      else getVectorFrom key properties out cnt

/-- `PropertyList::get` for a vector: the vector with what is appended to it, and
the number of entries that are. -/
def getVector
    (list : PropertyList)
    (key : Bytes)
    (out : List (List Bytes)) : List (List Bytes) × Nat :=
  getVectorFrom key list.properties out 0

/-- The loop of `PropertyList::getv`, whose indices are `size_t`: for the largest
`j` the bound `j + 1` is zero. `none` stands for an access outside of the values,
and `some none` for a call that returns false. -/
def getvFrom64 (key : Bytes) (j : UInt64) :
    List (Bytes × List Bytes) → UInt64 → Option (Option Bytes)
  | [], _ => some none
  | property :: properties, i =>
      if property.1 ≠ key then getvFrom64 key j properties i
      else if 0 < i then getvFrom64 key j properties (i - 1)
      else if property.2.length < (j + 1).toNat then some none
      else (property.2[j.toNat]?).map some

/-- `PropertyList::getv`, which sets a `const char*` to the bytes of the value. -/
def getv64 (list : PropertyList) (key : Bytes) (i j : UInt64) :
    Option (Option Bytes) :=
  getvFrom64 key j list.properties i

/-- The loop of `PropertyList::getv`, which counts the properties with the key
down, for a `j` that has a successor. -/
def getvFrom (key : Bytes) (j : Nat) :
    List (Bytes × List Bytes) → Nat → Option Bytes
  | [], _ => none
  | property :: properties, i =>
      if property.1 ≠ key then getvFrom key j properties i
      else if 0 < i then getvFrom key j properties (i - 1)
      else if property.2.length < j + 1 then none
      else property.2[j]?

/-- `PropertyList::getv` for a `j` that has a successor. -/
def getv (list : PropertyList) (key : Bytes) (i j : Nat) : Option Bytes :=
  getvFrom key j list.properties i

/-! ## All properties with a key -/

theorem getAll_cons
    (key : Bytes)
    (property : Bytes × List Bytes)
    (properties : List (Bytes × List Bytes)) :
    getAll ⟨property :: properties⟩ key =
      if property.1 = key then property.2 :: getAll ⟨properties⟩ key
      else getAll ⟨properties⟩ key := by
  by_cases isKey : property.1 = key
  · simp [getAll, isKey]
  · simp [getAll, isKey]

theorem getVector_eq
    (list : PropertyList)
    (key : Bytes)
    (out : List (List Bytes)) :
    list.getVector key out = (out ++ list.getAll key, (list.getAll key).length) := by
  have appended : ∀ properties out cnt, getVectorFrom key properties out cnt =
      (out ++ getAll ⟨properties⟩ key, cnt + (getAll ⟨properties⟩ key).length) := by
    intro properties
    induction properties with
    | nil =>
        intro out cnt
        exact Prod.ext (List.append_nil out).symm rfl
    | cons property properties inductionHypothesis =>
        intro out cnt
        rw [getVectorFrom, getAll_cons]
        split
        · rw [inductionHypothesis, List.append_assoc, List.singleton_append,
            List.length_cons, Nat.add_assoc, Nat.add_comm 1]
        · exact inductionHypothesis out cnt
  rw [getVector, appended, Nat.zero_add]

/-! ## A single value -/

/-- The first value of the first entry that has values. -/
theorem getFrom_eq (key : Bytes) (properties : List (Bytes × List Bytes)) :
    getFrom key properties =
      ((getAll ⟨properties⟩ key).find? (· ≠ [])).bind List.head? := by
  induction properties with
  | nil => rfl
  | cons property properties inductionHypothesis =>
      obtain ⟨name, values⟩ := property
      rw [getFrom, getAll_cons]
      by_cases isKey : name = key
      · rw [if_neg (not_not.mpr isKey), if_pos isKey, List.find?_cons]
        cases values with
        | nil => exact inductionHypothesis
        | cons value values => rfl
      · rw [if_pos isKey, if_neg isKey]
        exact inductionHypothesis

theorem getFrom_eq_none_iff (key : Bytes) (properties : List (Bytes × List Bytes)) :
    getFrom key properties = none ↔
      ∀ values ∈ getAll ⟨properties⟩ key, values = [] := by
  rw [getFrom_eq, Option.bind_eq_none_iff]
  constructor
  · intro noHead values member
    by_contra nonempty
    have finds : ((getAll ⟨properties⟩ key).find? (· ≠ [])).isSome :=
      List.find?_isSome.mpr ⟨values, member, decide_eq_true nonempty⟩
    obtain ⟨first, found⟩ := Option.isSome_iff_exists.mp finds
    have hasValues : first ≠ [] := by simpa using List.find?_some found
    exact hasValues (List.head?_eq_none_iff.mp (noHead first found))
  · intro allEmpty values found
    rw [allEmpty values (List.mem_of_find?_eq_some found), List.head?_nil]

/-- The loop is the search by which the other functions of the daemon read a
property. -/
theorem get_eq (list : PropertyList) (key : Bytes) :
    list.get key = getFrom key list.properties := by
  obtain ⟨properties⟩ := list
  rw [get]
  induction properties with
  | nil => rfl
  | cons property properties inductionHypothesis =>
      obtain ⟨name, values⟩ := property
      rw [List.findSome?_cons, getFrom]
      by_cases isKey : name = key
      · rw [if_pos isKey, if_neg (not_not.mpr isKey)]
        cases values with
        | nil => exact inductionHypothesis
        | cons value values => rfl
      · rw [if_neg isKey, if_pos isKey]
        exact inductionHypothesis

/-! ## A value by its position -/

/-- `getv` finds a value by the position of its property among those with the
key, and by its position there. -/
theorem getv_eq (list : PropertyList) (key : Bytes) (i j : Nat) :
    list.getv key i j = ((list.getAll key)[i]?).bind fun values => values[j]? := by
  have found : ∀ properties i, getvFrom key j properties i =
      ((getAll ⟨properties⟩ key)[i]?).bind fun values => values[j]? := by
    intro properties
    induction properties with
    | nil => exact fun _ => rfl
    | cons property properties inductionHypothesis =>
        intro i
        rw [getvFrom, getAll_cons]
        by_cases isKey : property.1 = key
        · rw [if_neg (not_not.mpr isKey), if_pos isKey]
          cases i with
          | zero =>
              rw [if_neg (Nat.lt_irrefl 0), List.getElem?_cons_zero, Option.bind_some]
              split
              · exact (List.getElem?_eq_none (by omega)).symm
              · rfl
          | succ i =>
              rw [if_pos i.succ_pos, List.getElem?_cons_succ]
              exact inductionHypothesis i
        · rw [if_pos isKey, if_neg isKey]
          exact inductionHypothesis i
  exact found list.properties i

/-- `getv` as a bound and an access. -/
theorem getv64_eq (list : PropertyList) (key : Bytes) (i j : UInt64) :
    list.getv64 key i j =
      match (list.getAll key)[i.toNat]? with
      | none => some none
      | some values =>
          if values.length < (j + 1).toNat then some none
          else (values[j.toNat]?).map some := by
  have found : ∀ properties i, getvFrom64 key j properties i =
      match (getAll ⟨properties⟩ key)[i.toNat]? with
      | none => some none
      | some values =>
          if values.length < (j + 1).toNat then some none
          else (values[j.toNat]?).map some := by
    intro properties
    induction properties with
    | nil => exact fun _ => rfl
    | cons property properties inductionHypothesis =>
        intro i
        rw [getvFrom64, getAll_cons]
        by_cases isKey : property.1 = key
        · rw [if_neg (not_not.mpr isKey), if_pos isKey]
          by_cases counts : 0 < i
          · have positive : 1 ≤ i.toNat := UInt64.lt_iff_toNat_lt.mp counts
            have atLeastOne : (1 : UInt64) ≤ i := UInt64.le_iff_toNat_le.mpr positive
            have succ : i.toNat = (i - 1).toNat + 1 := by
              rw [UInt64.toNat_sub_of_le _ _ atLeastOne, UInt64.toNat_one,
                Nat.sub_add_cancel positive]
            rw [if_pos counts, inductionHypothesis, succ, List.getElem?_cons_succ]
          · have zero : i.toNat = 0 := by
              rw [UInt64.lt_iff_toNat_lt] at counts
              exact Nat.eq_zero_of_not_pos counts
            rw [if_neg counts, zero, List.getElem?_cons_zero]
        · rw [if_pos isKey, if_neg isKey]
          exact inductionHypothesis i
  exact found list.properties i

/-- For a `j` that has a successor. -/
theorem getv64_eq_getv
    {j : UInt64}
    (small : j.toNat + 1 < 2 ^ 64)
    (list : PropertyList)
    (key : Bytes)
    (i : UInt64) :
    list.getv64 key i j = some (list.getv key i.toNat j.toNat) := by
  have noWrap : (j + 1).toNat = j.toNat + 1 := by
    rw [UInt64.toNat_add, UInt64.toNat_one, Nat.mod_eq_of_lt small]
  rw [getv64_eq, getv_eq, noWrap]
  cases (list.getAll key)[i.toNat]? with
  | none => rfl
  | some values =>
      dsimp only [Option.bind_some]
      split
      next short => rw [List.getElem?_eq_none (by omega)]
      next long =>
        rw [List.getElem?_eq_getElem (by omega), Option.map_some]

/-- For the largest `j` the values are read without a check. -/
theorem getv64_last
    {j : UInt64}
    (last : ¬ j.toNat + 1 < 2 ^ 64)
    (list : PropertyList)
    (key : Bytes)
    (i : UInt64) :
    list.getv64 key i j =
      match (list.getAll key)[i.toNat]? with
      | none => some none
      | some values => (values[j.toNat]?).map some := by
  have wraps : (j + 1).toNat = 0 := by
    have isLast : j.toNat + 1 = 2 ^ 64 :=
      Nat.le_antisymm j.toNat_lt (Nat.le_of_not_lt last)
    rw [UInt64.toNat_add, UInt64.toNat_one, isLast, Nat.mod_self]
  rw [getv64_eq, wraps]
  rfl

/-! ## The functions agree -/

/-- The functions describe one list of entries, the one that `get` appends to a
vector. -/
structure AccessAgrees (list : PropertyList) (key : Bytes) (i j : UInt64) : Prop where
  appended : ∀ out,
    (list.getVector key out).1 = out ++ (list.getVector key []).1
  indexed : ∃ result, list.getv64 key i j = some result ∧
    ∀ value, result = some value ↔ ∃ values,
      (list.getVector key []).1[i.toNat]? = some values ∧
        values[j.toNat]? = some value
  single : ∀ value, list.getString key = some value ↔ ∃ values,
    (list.getVector key []).1.find? (· ≠ []) = some values ∧
      values.head? = some value
  fails : list.getString key = none ↔
    ∀ values ∈ (list.getVector key []).1, values = []
  chars : list.getChars key = list.getString key

/-- They agree unless `j` has no successor and there is an entry, which cannot have
a value at that position. -/
theorem accessAgrees_iff (list : PropertyList) (key : Bytes) (i j : UInt64) :
    AccessAgrees list key i j ↔ j.toNat + 1 < 2 ^ 64 ∨
      ∀ values ∈ (list.getAll key)[i.toNat]?, 2 ^ 64 ≤ values.length := by
  have entries : (list.getVector key []).1 = list.getAll key := by
    rw [getVector_eq, List.nil_append]
  have last_of_not (large : ¬ j.toNat + 1 < 2 ^ 64) : j.toNat = 2 ^ 64 - 1 := by
    have bound := j.toNat_lt
    omega
  constructor
  · intro agrees
    obtain ⟨result, returned, -⟩ := agrees.indexed
    by_cases large : j.toNat + 1 < 2 ^ 64
    · exact .inl large
    · refine .inr fun values atIndex => ?_
      by_contra short
      rw [getv64_last large, Option.mem_def.mp atIndex] at returned
      dsimp only at returned
      rw [List.getElem?_eq_none (by rw [last_of_not large]; omega)] at returned
      cases returned
  · intro fits
    have indexed : list.getv64 key i j = some (list.getv key i.toNat j.toNat) := by
      by_cases large : j.toNat + 1 < 2 ^ 64
      · exact getv64_eq_getv large list key i
      · have long := fits.resolve_left large
        rw [getv64_last large, getv_eq]
        cases atIndex : (list.getAll key)[i.toNat]? with
        | none => rfl
        | some values =>
            have enough := long values atIndex
            dsimp only [Option.bind_some]
            rw [List.getElem?_eq_getElem (by rw [last_of_not large]; omega),
              Option.map_some]
    refine ⟨fun out => ?_, ⟨_, indexed, fun value => ?_⟩, fun value => ?_, ?_, rfl⟩
    · rw [getVector_eq, entries]
    · rw [getv_eq, Option.bind_eq_some_iff, entries]
    · rw [getString, getFrom_eq, Option.bind_eq_some_iff, entries]
    · rw [getString, getFrom_eq_none_iff, entries]

/-- The values of a route are read behind their end. -/
theorem not_accessAgrees_last :
    getv64 ⟨[(bytes "route", [bytes "a", bytes "b"])]⟩ (bytes "route") 0
        0xffffffffffffffff = none ∧
      ¬ AccessAgrees ⟨[(bytes "route", [bytes "a", bytes "b"])]⟩ (bytes "route") 0
        0xffffffffffffffff := by
  have outside : getv64 ⟨[(bytes "route", [bytes "a", bytes "b"])]⟩ (bytes "route") 0
      0xffffffffffffffff = none := by
    decide
  refine ⟨outside, fun agrees => ?_⟩
  obtain ⟨result, returned, -⟩ := agrees.indexed
  rw [outside] at returned
  cases returned

end PropertyList
end EvCollect
