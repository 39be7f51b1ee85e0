import EvCollect.Text.Backtrack
import EvCollect.Util.Splitting

/-!
# Which plugin a path stands for

The argument of `ServiceImpl::loadPlugin` is the name of a plugin or the path of
its file. A path names the plugin behind the last `plugin_` in it.
-/

namespace EvCollect

open Text

namespace StringUtil

/-- `StringUtil::isAlphanumeric` of a character. -/
def isAlphanumericChar (chr : UInt8) : Bool :=
  (0x30 ≤ chr && chr ≤ 0x39) || (0x61 ≤ chr && chr ≤ 0x7a) ||
    (0x41 ≤ chr && chr ≤ 0x5a)

/-- `StringUtil::isShellSafe` of a character. -/
def isShellSafeChar (chr : UInt8) : Bool :=
  isAlphanumericChar chr || chr == 0x5f || chr == 0x2d || chr == 0x2e

/-- `StringUtil::isShellSafe`. -/
def isShellSafe (str : Bytes) : Bool :=
  str.all isShellSafeChar

end StringUtil

namespace Plugin

open StringUtil

/-! ## The regular expression -/

/-- The class `\w`. -/
def isWordChar (chr : UInt8) : Bool :=
  isAlphanumericChar chr || chr == 0x5f

/-- The class `.`. -/
def isNoLineEnd (chr : UInt8) : Bool :=
  chr != 0x0a && chr != 0x0d

/-- The end of the text. -/
def atEnd (name rest : Bytes) : Option Bytes :=
  if rest.isEmpty then some name else none

/-- `(\.\w+)?` and the end of the text. -/
def extension (name rest : Bytes) : Option Bytes :=
  (literal [0x2e] (greedyPlus isWordChar fun _ => atEnd name) rest).or
    (atEnd name rest)

/-- `regex_match` with `.*plugin_(\w+)(\.\w+)?`, and its first group. -/
def pluginPathRegex (plugin : Bytes) : Option Bytes :=
  greedyStar isNoLineEnd
    (fun _ => literal (bytes "plugin_") (greedyPlus isWordChar extension)) [] plugin

/-- The name of the plugin, if the text stands for one. -/
def pluginName (plugin : Bytes) : Option Bytes :=
  if isShellSafe plugin then some plugin else pluginPathRegex plugin

/-- The symbol of the function that is called when a plugin is loaded. -/
def pluginInitFn (name : Bytes) : Option Bytes :=
  format (bytes "plugin_$0_init") [name]

/-! ## What it matches -/

/-- One or more characters of the class `\w`. -/
def IsWord (text : Bytes) : Prop :=
  text ≠ [] ∧ ∀ chr ∈ text, isWordChar chr = true

/-- No extension, or one with its dot. -/
def IsExtension (text : Bytes) : Prop :=
  text = [] ∨ ∃ word, text = 0x2e :: word ∧ IsWord word

/-- A path, taken apart at some `plugin_`. -/
structure Names (plugin dir name ext : Bytes) : Prop where
  plugin_eq : plugin = dir ++ (bytes "plugin_" ++ (name ++ ext))
  oneLine : ∀ chr ∈ dir, isNoLineEnd chr = true
  name : IsWord name
  ext : IsExtension ext

/-- There is a `plugin_` in a text, but not at its end. -/
def Hides (text : Bytes) : Prop :=
  ∃ front behind, text = front ++ (bytes "plugin_" ++ behind) ∧ behind ≠ []

theorem not_isWordChar_dot : isWordChar 0x2e ≠ true := by
  decide

theorem atEnd_eq_some_iff {name rest value : Bytes} :
    atEnd name rest = some value ↔ value = name ∧ rest = [] := by
  unfold atEnd
  split
  next empty =>
    rw [Option.some_inj, and_iff_left (List.isEmpty_iff.mp empty), eq_comm]
  next nonempty =>
    rw [List.isEmpty_iff] at nonempty
    simp [nonempty]

theorem plus_atEnd_iff {name text value : Bytes} :
    greedyPlus isWordChar (fun _ => atEnd name) text = some value ↔
      value = name ∧ IsWord text := by
  rw [greedyPlus_eq_some_iff]
  · simp only [atEnd_eq_some_iff]
    constructor
    · rintro ⟨before, behind, equal, nonempty, word, rfl, rfl⟩
      rw [List.append_nil] at equal
      exact ⟨rfl, equal ▸ nonempty, equal ▸ word⟩
    · rintro ⟨rfl, nonempty, word⟩
      exact ⟨text, [], (List.append_nil _).symm, nonempty, word, rfl, rfl⟩
  · intro consumed symbol rest value _ accepted
    cases (atEnd_eq_some_iff.mp accepted).2

theorem extension_eq_some_iff {name rest value : Bytes} :
    extension name rest = some value ↔ value = name ∧ IsExtension rest := by
  unfold extension IsExtension literal
  cases rest with
  | nil =>
      rw [if_neg (by decide), Option.none_or, atEnd_eq_some_iff]
      simp
  | cons chr rest =>
      have noEnd : atEnd name (chr :: rest) = none := rfl
      rw [noEnd, Option.or_none]
      by_cases dot : chr = 0x2e
      · subst dot
        simp [plus_atEnd_iff]
      · simp [dot, Ne.symm dot]

theorem plus_extension_iff {text name : Bytes} :
    greedyPlus isWordChar extension text = some name ↔
      ∃ ext, text = name ++ ext ∧ IsWord name ∧ IsExtension ext := by
  rw [greedyPlus_eq_some_iff]
  · simp only [extension_eq_some_iff]
    constructor
    · rintro ⟨before, behind, equal, nonempty, word, rfl, isExtension⟩
      exact ⟨behind, equal, ⟨nonempty, word⟩, isExtension⟩
    · rintro ⟨ext, equal, ⟨nonempty, word⟩, isExtension⟩
      exact ⟨name, ext, equal, nonempty, word, rfl, isExtension⟩
  · intro consumed symbol rest value isWord accepted
    rcases (extension_eq_some_iff.mp accepted).2 with empty | ⟨word, dot, -⟩
    · cases empty
    · rw [List.cons.injEq] at dot
      exact not_isWordChar_dot (dot.1 ▸ isWord)

theorem literal_eq_some_iff
    {word text : Bytes}
    {next : Bytes → Option Bytes}
    {value : Bytes} :
    literal word next text = some value ↔
      ∃ rest, text = word ++ rest ∧ next rest = some value := by
  unfold literal
  split
  next isPrefix =>
    obtain ⟨rest, rfl⟩ := List.isPrefixOf_iff_prefix.mp isPrefix
    rw [List.drop_left]
    constructor
    · exact fun accepted => ⟨rest, rfl, accepted⟩
    · rintro ⟨rest', equal, accepted⟩
      rwa [List.append_cancel_left equal]
  next differs =>
    constructor
    · exact fun absurd => by cases absurd
    · rintro ⟨rest, rfl, -⟩
      exact absurd (List.isPrefixOf_iff_prefix.mpr
        (List.prefix_append _ _)) differs

/-- The regular expression takes a path apart at the last place at which it
can be. -/
theorem pluginPathRegex_eq_some_iff {plugin name : Bytes} :
    pluginPathRegex plugin = some name ↔
      ∃ dir ext, Names plugin dir name ext ∧
        ∀ dir' name' ext', Names plugin dir' name' ext' →
          dir'.length ≤ dir.length := by
  have divides {dir rest name : Bytes} :
      Divides isNoLineEnd
          (fun _ => literal (bytes "plugin_") (greedyPlus isWordChar extension)) []
          plugin dir rest name ↔
        ∃ ext, rest = bytes "plugin_" ++ (name ++ ext) ∧
          Names plugin dir name ext := by
    constructor
    · rintro ⟨equal, oneLine, accepted⟩
      obtain ⟨behind, rfl, found⟩ := literal_eq_some_iff.mp accepted
      obtain ⟨ext, rfl, isName, isExtension⟩ := plus_extension_iff.mp found
      exact ⟨ext, rfl, equal, oneLine, isName, isExtension⟩
    · rintro ⟨ext, rfl, names⟩
      refine ⟨names.plugin_eq, names.oneLine, literal_eq_some_iff.mpr
        ⟨_, rfl, plus_extension_iff.mpr ⟨ext, rfl, names.name, names.ext⟩⟩⟩
  rw [pluginPathRegex, greedyStar_eq_some_iff]
  simp only [divides]
  constructor
  · rintro ⟨dir, _, ⟨ext, -, names⟩, last⟩
    exact ⟨dir, ext, names, fun dir' name' ext' names' =>
      last dir' _ name' ⟨ext', rfl, names'⟩⟩
  · rintro ⟨dir, ext, names, last⟩
    refine ⟨dir, _, ⟨ext, rfl, names⟩, ?_⟩
    rintro dir' behind' name' ⟨ext', -, names'⟩
    exact last dir' name' ext' names'

/-! ## Without the search for the last place -/

variable {plugin dir name ext : Bytes}

theorem isNoLineEnd_of_isWordChar
    {chr : UInt8}
    (isWord : isWordChar chr = true) : isNoLineEnd chr = true := by
  have notLine : chr ≠ 0x0a ∧ chr ≠ 0x0d := by
    constructor <;> rintro rfl <;> exact absurd isWord (by decide)
  simp [isNoLineEnd, notLine]

theorem isWordChar_of_mem_plugin
    {chr : UInt8}
    (member : chr ∈ bytes "plugin_") : isWordChar chr = true := by
  have all : (bytes "plugin_").all isWordChar = true := by decide
  exact List.all_eq_true.mp all chr member

/-- An extension does not begin with a character of a word. -/
theorem IsExtension.not_isWordChar
    {chr : UInt8}
    {rest : Bytes}
    (isExtension : IsExtension (chr :: rest)) : isWordChar chr ≠ true := by
  rcases isExtension with empty | ⟨word, dot, -⟩
  · cases empty
  · rw [List.cons.injEq] at dot
    exact dot.1 ▸ not_isWordChar_dot

/-- What hides a `plugin_` can be taken apart further behind. -/
theorem Names.exists_longer
    (names : Names plugin dir name ext)
    (hides : Hides name ∨ Hides ext) :
    ∃ dir' name' ext', Names plugin dir' name' ext' ∧
      dir.length < dir'.length := by
  obtain ⟨equal, oneLine, ⟨nonempty, word⟩, isExtension⟩ := names
  have prefixLine : ∀ chr ∈ bytes "plugin_", isNoLineEnd chr = true :=
    fun chr member => isNoLineEnd_of_isWordChar (isWordChar_of_mem_plugin member)
  have longer : 0 < (bytes "plugin_").length := by decide
  rcases hides with ⟨front, behind, rfl, more⟩ | ⟨front, behind, rfl, more⟩
  · refine ⟨dir ++ (bytes "plugin_" ++ front), behind, ext,
      ⟨?_, ?_, ⟨more, ?_⟩, isExtension⟩, ?_⟩
    · rw [equal]
      simp only [List.append_assoc]
    · simp only [List.forall_mem_append] at word ⊢
      exact ⟨oneLine, prefixLine,
        fun chr member => isNoLineEnd_of_isWordChar (word.1 chr member)⟩
    · simp only [List.forall_mem_append] at word
      exact word.2.2
    · simp only [List.length_append]
      omega
  · rcases isExtension with empty | ⟨text, dot, -, isText⟩
    · simp [more] at empty
    · cases front with
      | nil =>
          have first := congrArg List.head? dot
          exact absurd first (show some 0x70 ≠ some (0x2e : UInt8) by decide)
      | cons chr front =>
          rw [List.cons_append, List.cons.injEq] at dot
          obtain ⟨rfl, rfl⟩ := dot
          simp only [List.forall_mem_append] at isText
          refine ⟨dir ++ (bytes "plugin_" ++ (name ++ (0x2e :: front))), behind,
            [], ⟨?_, ?_, ⟨more, isText.2.2⟩, .inl rfl⟩, ?_⟩
          · rw [equal]
            simp only [List.append_assoc, List.cons_append, List.append_nil]
          · simp only [List.forall_mem_append, List.forall_mem_cons]
            refine ⟨oneLine, prefixLine,
              fun chr member => isNoLineEnd_of_isWordChar (word chr member),
              by decide,
              fun chr member => isNoLineEnd_of_isWordChar (isText.1 chr member)⟩
          · simp only [List.length_append]
            omega

/-- Two places of `plugin_` in a text do not overlap. -/
theorem append_of_plugin_append
    {more rest rest' : Bytes}
    (equal : bytes "plugin_" ++ rest = more ++ (bytes "plugin_" ++ rest'))
    (nonempty : more ≠ []) :
    ∃ between, rest = between ++ (bytes "plugin_" ++ rest') := by
  rcases List.append_eq_append_iff.mp equal with
    ⟨between, -, split⟩ | ⟨tail, isPrefix, split⟩
  · exact ⟨between, split⟩
  · cases tail with
    | nil => exact ⟨[], by rw [List.nil_append] at split; exact split.symm⟩
    | cons chr tail =>
        exfalso
        have first : chr = 0x70 :=
          (List.cons.injEq .. ▸ split.symm : chr = 0x70 ∧ _).1
        have inside : chr ∈ (bytes "plugin_").tail := by
          rw [isPrefix, List.tail_append_of_ne_nil nonempty]
          simp
        rw [first] at inside
        exact absurd inside (by decide)

/-- A `plugin_` in a name with its extension is in one of them. -/
theorem hides_of_append
    (isExtension : IsExtension ext)
    {front name' ext' : Bytes}
    (isName : IsWord name')
    (equal : name ++ ext = front ++ (bytes "plugin_" ++ (name' ++ ext'))) :
    Hides name ∨ Hides ext := by
  obtain ⟨chr, word, rfl⟩ := List.exists_cons_of_ne_nil isName.1
  have isWord : isWordChar chr = true := isName.2 chr List.mem_cons_self
  rcases List.append_eq_append_iff.mp equal with
    ⟨between, -, inExt⟩ | ⟨tail, inName, split⟩
  · exact .inr ⟨between, _, inExt, by simp⟩
  · rcases List.append_eq_append_iff.mp split with
      ⟨behind, isTail, split'⟩ | ⟨behind, isTail, split'⟩
    · cases behind with
      | nil =>
          rw [List.nil_append] at split'
          exact absurd isWord (split' ▸ isExtension).not_isWordChar
      | cons other behind =>
          left
          exact ⟨front, other :: behind, by rw [inName, isTail], by simp⟩
    · cases behind with
      | nil =>
          rw [List.nil_append] at split'
          exact absurd isWord (split' ▸ isExtension).not_isWordChar
      | cons other behind =>
          have member : other ∈ bytes "plugin_" := by
            rw [isTail]
            simp
          exact absurd (isWordChar_of_mem_plugin member)
            (split' ▸ isExtension).not_isWordChar

/-- A path names a plugin if and only if it can be taken apart so that neither
the name nor the extension hides another `plugin_`. -/
theorem pluginPathRegex_iff :
    pluginPathRegex plugin = some name ↔
      ∃ dir ext, Names plugin dir name ext ∧ ¬Hides name ∧ ¬Hides ext := by
  rw [pluginPathRegex_eq_some_iff]
  constructor
  · rintro ⟨dir, ext, names, last⟩
    refine ⟨dir, ext, names, not_or.mp fun hides => ?_⟩
    obtain ⟨dir', name', ext', names', longer⟩ := names.exists_longer hides
    exact absurd (last dir' name' ext' names') (Nat.not_le.mpr longer)
  · rintro ⟨dir, ext, names, noName, noExt⟩
    refine ⟨dir, ext, names, fun dir' name' ext' names' => ?_⟩
    by_contra longer
    have equal := names.plugin_eq.symm.trans names'.plugin_eq
    rcases List.append_eq_append_iff.mp equal with
      ⟨more, isDir, split⟩ | ⟨more, isDir, -⟩
    · have nonempty : more ≠ [] := by
        rintro rfl
        rw [isDir, List.append_nil] at longer
        exact longer (Nat.le_refl _)
      obtain ⟨between, inside⟩ := append_of_plugin_append split nonempty
      rcases hides_of_append names.ext names'.name inside with hides | hides
      · exact noName hides
      · exact noExt hides
    · rw [isDir, List.length_append] at longer
      omega

/-! ## The symbol -/

/-- The names that the argument stands for: a name that is safe for a shell is taken
as it is, and the path of a file is taken apart. -/
def IsNameOf (plugin name : Bytes) : Prop :=
  if isShellSafe plugin then name = plugin
  else ∃ dir ext, Names plugin dir name ext ∧ ¬Hides name ∧ ¬Hides ext

theorem pluginName_iff :
    pluginName plugin = some name ↔ IsNameOf plugin name := by
  unfold pluginName IsNameOf
  split
  · rw [Option.some_inj, eq_comm]
  · exact pluginPathRegex_iff

theorem pluginName_eq_none_iff :
    pluginName plugin = none ↔ ¬ ∃ name, IsNameOf plugin name := by
  rw [Option.eq_none_iff_forall_ne_some, not_exists]
  exact forall_congr' fun name => not_congr pluginName_iff

theorem Names.length_le (names : Names plugin dir name ext) :
    name.length ≤ plugin.length := by
  rw [names.plugin_eq]
  simp only [List.length_append]
  omega

theorem IsNameOf.length_le (isName : IsNameOf plugin name) :
    name.length ≤ plugin.length := by
  unfold IsNameOf at isName
  split at isName
  · rw [isName]
  · obtain ⟨dir, ext, names, -⟩ := isName
    exact names.length_le

/-- The symbol of the function of a plugin. -/
def initSymbol (name : Bytes) : Bytes :=
  bytes "plugin_" ++ (name ++ bytes "_init")

theorem firstBehind_placeholder
    {before : Bytes}
    (plain : 0x24 ∉ before)
    (argn behind : Bytes) : FirstBehind (0x24 :: argn) before behind := by
  intro position less isPrefix
  rw [List.drop_append_of_le_length less.le, List.drop_eq_getElem_cons less,
    List.cons_append, List.cons_prefix_cons] at isPrefix
  exact plain (isPrefix.1 ▸ List.getElem_mem less)

theorem pluginInitFn_eq
    (short : name.length < 2 ^ 31) :
    pluginInitFn name = some (initSymbol name) := by
  have template : bytes "plugin_$0_init" =
      bytes "plugin_" ++ (bytes "$0" ++ bytes "_init") := by
    decide
  have pattern : bytes "$" ++ decimal 0 = bytes "$0" := by decide
  have replaced := @replaceAll_between (bytes "$0") name (bytes "plugin_")
    (bytes "_init") (by decide) (firstBehind_placeholder (by decide) _ _) (by decide)
    (by decide) (by
      rw [show (bytes "plugin_").length = 7 by decide]
      omega)
  rw [pluginInitFn, format, formatImpl, pattern, template]
  exact congrArg (fun text => text.bind some) replaced

end Plugin
end EvCollect
