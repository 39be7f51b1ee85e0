import EvCollect.Plugin.Library
import EvCollect.Util.Format
import EvCollect.Util.JsonEscape

/-!
# The event of the hostname plugin

`getEvent` of the hostname plugin, whose event is a JSON object with the name of
the host and its fully qualified name. The two names are put into a format string
one after the other.
-/

namespace EvCollect
namespace Hostname

open Json StringUtil Text Plugin

/-- `gethostname`, which fills a buffer of 1024 bytes or fails, and the name that
`gethostbyname` finds for a host. -/
structure Resolver where
  gethostname : Entry → Option Bytes
  gethostbyname : Bytes → Entry → Option Bytes

/-- The format string of the event. -/
def eventFormat : Bytes :=
  bytes "\x7b \"hostname\": \"$0\", \"hostname_fqdn\": \"$1\" \x7d"

/-- The event for two names. -/
def eventText (hostname hostnameFqdn : Bytes) : Option Bytes :=
  format eventFormat [jsonEscape hostname, jsonEscape hostnameFqdn]

/-- `getEvent`. -/
def getEvent (resolver : Resolver) (entry : Entry) : Option Answer :=
  match resolver.gethostname entry with
  | none =>
      some {
        calls := [.setError (bytes "gethostname() failed")]
        result := false }
  | some buffer => do
      let hostname := cString (buffer.take 1024)
      let hostnameFqdn :=
        ((resolver.gethostbyname hostname entry).map cString).getD []
      let evdata ← eventText hostname hostnameFqdn
      return { calls := [.setData evdata], result := true }

/-- An object with the two names. -/
def namesValue (hostname hostnameFqdn : Bytes) : Value :=
  .object [(bytes "hostname", .string hostname),
    (bytes "hostname_fqdn", .string hostnameFqdn)]

/-- The hostname in the event, where `$1` stands for the other name. -/
def writtenHostname (hostname hostnameFqdn : Bytes) : Bytes :=
  substitute 0x24 (single 0x31 hostnameFqdn) hostname

/-! ## Escaped texts -/

/-- Escaping makes no placeholder. -/
theorem dollar_not_mem_jsonEscapeByte
    {byte : UInt8}
    (other : byte ≠ 0x24) : (0x24 : UInt8) ∉ jsonEscapeByte byte := by
  have controls : ∀ number : Fin 32,
      (0x24 : UInt8) ∉ jsonEscapeByte (UInt8.ofNat number) := by
    decide
  by_cases control : byte < 0x20
  · have small : byte.toNat < 32 := UInt8.lt_iff_toNat_lt.mp control
    have absent := controls ⟨byte.toNat, small⟩
    rwa [UInt8.ofNat_toNat] at absent
  · unfold jsonEscapeByte
    repeat' split
    all_goals first
      | decide
      | contradiction
      | exact fun member => other (List.mem_singleton.mp member).symm

theorem head?_jsonEscapeByte
    {byte : UInt8}
    (isOne : (jsonEscapeByte byte).head? = some 0x31) : byte = 0x31 := by
  unfold jsonEscapeByte at isOne
  repeat' split at isOne
  all_goals first
    | exact absurd isOne (by decide)
    | exact Option.some.inj isOne
    | cases isOne

/-- Placeholders are replaced in an escaped text as in the text itself. -/
theorem substitute_escaped (value string : Bytes) :
    substitute 0x24 (single 0x31 (escaped value)) (escaped string) =
      escaped (substitute 0x24 (single 0x31 value) string) := by
  induction string using substitute_induction 0x24 (single 0x31 value) with
  | nil => rfl
  | letter first rest plain inductionHypothesis =>
      rw [substitute_plain plain]
      change substitute _ _ (jsonEscapeByte first ++ escaped rest) =
        jsonEscapeByte first ++ escaped _
      by_cases isDollar : first = 0x24
      · subst isDollar
        have stillPlain : Plain 0x24 (single 0x31 (escaped value)) 0x24
            (escaped rest) := by
          refine plain_single fun both => ?_
          cases rest with
          | nil => exact absurd both.2 nofun
          | cons second rest =>
              have isOne : second = 0x31 := by
                refine head?_jsonEscapeByte ?_
                rw [← both.2]
                exact (List.head?_append_of_ne_nil _
                  (jsonEscapeByte_ne_nil second)).symm
              have given := plain rfl second rfl
              rw [isOne, single, Function.update_self] at given
              cases given
        exact (substitute_plain stillPlain).trans
          (congrArg _ inductionHypothesis)
      · rw [substitute_append_of_not_mem (dollar_not_mem_jsonEscapeByte isDollar),
          inductionHypothesis]
  | placeholder second replacement rest given inductionHypothesis =>
      cases eq_name_of_single given
      rw [substitute_single_placeholder]
      change substitute _ _ (0x24 :: 0x31 :: escaped rest) = _
      rw [substitute_single_placeholder, inductionHypothesis, escaped, escaped,
        escaped, List.flatMap_append]

/-! ## The event -/

/-- The parts of the format string. -/
theorem eventFormat_eq :
    eventFormat = bytes "\x7b \"hostname\": \"" ++ (0x24 :: 0x30 ::
      (bytes "\", \"hostname_fqdn\": \"" ++ (0x24 :: 0x31 ::
        bytes "\" \x7d"))) := by
  decide

/-- The first name is put in. -/
theorem substitute_eventFormat (hostname : Bytes) :
    substitute 0x24 (single 0x30 hostname) eventFormat =
      bytes "\x7b \"hostname\": \"" ++ (hostname ++
        (bytes "\", \"hostname_fqdn\": \"" ++ (0x24 :: 0x31 ::
          bytes "\" \x7d"))) := by
  rw [eventFormat_eq, substitute_append_of_not_mem (by decide),
    substitute_single_placeholder, substitute_append_of_not_mem (by decide)]
  rfl

/-- The second name is put in, also into the first one. -/
theorem substitute_second (hostname hostnameFqdn : Bytes) :
    substitute 0x24 (single 0x31 (escaped hostnameFqdn))
        (bytes "\x7b \"hostname\": \"" ++ (escaped hostname ++
          (bytes "\", \"hostname_fqdn\": \"" ++ (0x24 :: 0x31 ::
            bytes "\" \x7d")))) =
      bytes "\x7b \"hostname\": \"" ++
        (escaped (substitute 0x24 (single 0x31 hostnameFqdn) hostname) ++
          (bytes "\", \"hostname_fqdn\": \"" ++ (escaped hostnameFqdn ++
            bytes "\" \x7d"))) := by
  have noMarkBefore : (0x24 : UInt8) ∉ bytes "\x7b \"hostname\": \"" := by
    decide
  have noMarkBetween : (0x24 : UInt8) ∉ bytes "\", \"hostname_fqdn\": \"" := by
    decide
  have noMarkBehind : (0x24 : UInt8) ∉ bytes "\" \x7d" := by
    decide
  have free : ∀ second ∈ (bytes "\", \"hostname_fqdn\": \"" ++
      (0x24 :: 0x31 :: bytes "\" \x7d")).head?,
      single 0x31 (escaped hostnameFqdn) second = none := by
    intro second isHead
    cases isHead
    rfl
  rw [substitute_append_of_not_mem noMarkBefore, substitute_append free,
    substitute_escaped, substitute_append_of_not_mem noMarkBetween,
    substitute_single_placeholder, substitute_of_not_mem noMarkBehind]

theorem eventText_eq
    {hostname hostnameFqdn : Bytes}
    (short : hostname.length ≤ 1024)
    (shortFqdn : hostnameFqdn.length < 2 ^ 15) :
    eventText hostname hostnameFqdn =
      some (bytes "\x7b \"hostname\": \"" ++
        (escaped (writtenHostname hostname hostnameFqdn) ++
          (bytes "\", \"hostname_fqdn\": \"" ++ (escaped hostnameFqdn ++
            bytes "\" \x7d")))) := by
  have bound := length_escaped_le hostname
  have boundFqdn := length_escaped_le hostnameFqdn
  have formatLength : eventFormat.length = 43 := by decide
  have isZero : digit 0 = 0x30 := by decide
  have isOne : digit 1 = 0x31 := by decide
  have first : replaceAll eventFormat (placeholder 0) (escaped hostname) =
      some (substitute 0x24 (single 0x30 (escaped hostname)) eventFormat) := by
    rw [← isZero]
    exact replaceAll_eq_substitute (by decide)
      (inReach_of_fits (by decide) (by rw [formatLength]; omega) (by omega))
  have lengths := length_substitute_single
    (show (0x30 : UInt8) ≠ 0x24 by decide) (escaped hostname) eventFormat
  have once : occurrences (0x24 : UInt8) 0x30 eventFormat = 1 := by decide
  rw [once, formatLength] at lengths
  have fits : (substitute 0x24 (single 0x30 (escaped hostname)) eventFormat).length *
      ((escaped hostnameFqdn).length + 1) ≤ 6185 * 196603 :=
    Nat.mul_le_mul (by omega) (by omega)
  have second : replaceAll
      (substitute 0x24 (single 0x30 (escaped hostname)) eventFormat)
      (placeholder 1) (escaped hostnameFqdn) =
        some (substitute 0x24 (single 0x31 (escaped hostnameFqdn))
          (substitute 0x24 (single 0x30 (escaped hostname)) eventFormat)) := by
    rw [← isOne]
    exact replaceAll_eq_substitute (by decide)
      (inReach_of_fits (by decide) (by omega) (by omega))
  have formattedFirst : format eventFormat [escaped hostname] =
      some (substitute 0x24 (single 0x30 (escaped hostname)) eventFormat) :=
    (@format_take_succ _ _ _ [escaped hostname, escaped hostnameFqdn] 0 rfl
      rfl).trans first
  have formatted : format eventFormat [escaped hostname, escaped hostnameFqdn] =
      some (substitute 0x24 (single 0x31 (escaped hostnameFqdn))
        (substitute 0x24 (single 0x30 (escaped hostname)) eventFormat)) :=
    (@format_take_succ _ _ _ [escaped hostname, escaped hostnameFqdn] 1 rfl
      formattedFirst).trans second
  rw [substitute_eventFormat, substitute_second] at formatted
  rw [eventText, jsonEscape_of_le (by omega), jsonEscape_of_le (by omega),
    formatted, writtenHostname]

/-- The event is an object with two members. -/
theorem denotes_names (hostname hostnameFqdn : Bytes) :
    Denotes (bytes "\x7b \"hostname\": \"" ++ (escaped hostname ++
        (bytes "\", \"hostname_fqdn\": \"" ++ (escaped hostnameFqdn ++
          bytes "\" \x7d"))))
      (.value (namesValue hostname hostnameFqdn)) := by
  have noBlank : Blank [] := nofun
  have blank : Blank [0x20] := by
    intro byte present
    cases List.mem_singleton.mp present
    rfl
  have last := Denotes.lastMember blank (letters_escaped (bytes "hostname_fqdn"))
    noBlank blank (denotes_escaped hostnameFqdn) blank
  have denotes := Denotes.object (Denotes.member blank
    (letters_escaped (bytes "hostname")) noBlank blank (denotes_escaped hostname)
    noBlank last)
  rw [decode_escaped, decode_escaped] at denotes
  have first : escaped (bytes "hostname") = bytes "hostname" := by decide
  have second : escaped (bytes "hostname_fqdn") = bytes "hostname_fqdn" := by decide
  have opening : bytes "\x7b \"hostname\": \"" =
      0x7b :: 0x20 :: (quoted (bytes "hostname") ++ [0x3a, 0x20, 0x22]) := by
    decide
  have between : bytes "\", \"hostname_fqdn\": \"" =
      0x22 :: 0x2c :: 0x20 ::
        (quoted (bytes "hostname_fqdn") ++ [0x3a, 0x20, 0x22]) := by
    decide
  have closing : bytes "\" \x7d" = [0x22, 0x20, 0x7d] := by decide
  rw [first, second] at denotes
  rw [opening, between, closing]
  simpa [quoted, namesValue] using denotes

/-- The event of a host with a name is always a JSON text, that of an object with
the fully qualified name as it is. The hostname in it is the host's if and only if
it has no `$1`, or the fully qualified name is `$1`. -/
theorem getEvent_denotes
    {resolver : Resolver}
    {entry : Entry}
    {buffer : Bytes}
    (named : resolver.gethostname entry = some buffer)
    (short : ∀ found,
      resolver.gethostbyname (cString (buffer.take 1024)) entry = some found →
        (cString found).length < 2 ^ 15) :
    ∃ evdata hostnameFqdn,
      hostnameFqdn =
        ((resolver.gethostbyname (cString (buffer.take 1024)) entry).map
          cString).getD [] ∧
      getEvent resolver entry =
        some { calls := [.setData evdata], result := true } ∧
      Denotes evdata (.value (namesValue
        (writtenHostname (cString (buffer.take 1024)) hostnameFqdn)
        hostnameFqdn)) ∧
      (writtenHostname (cString (buffer.take 1024)) hostnameFqdn =
          cString (buffer.take 1024) ↔
        placeholders 1 (cString (buffer.take 1024)) = 0 ∨
          hostnameFqdn = bytes "$1") := by
  have isShort : (cString (buffer.take 1024)).length ≤ 1024 :=
    Nat.le_trans (List.takeWhile_prefix _).length_le (List.length_take_le _ _)
  obtain ⟨hostnameFqdn, isFqdn⟩ : ∃ hostnameFqdn, hostnameFqdn =
      ((resolver.gethostbyname (cString (buffer.take 1024)) entry).map
        cString).getD [] := ⟨_, rfl⟩
  have shortFqdn : hostnameFqdn.length < 2 ^ 15 := by
    cases found : resolver.gethostbyname (cString (buffer.take 1024)) entry with
    | none =>
        rw [isFqdn, found]
        decide
    | some name =>
        rw [isFqdn, found]
        exact short name found
  refine ⟨_, hostnameFqdn, isFqdn, ?_, denotes_names _ _, ?_⟩
  · rw [getEvent, named]
    dsimp only
    rw [← isFqdn, eventText_eq isShort shortFqdn]
    rfl
  · rw [placeholders_eq (by decide)]
    exact substitute_single_eq_self_iff (by decide) _ _

/-- A hostname with a placeholder. -/
def placeholderResolver : Resolver where
  gethostname := fun _ => some (bytes "web$1")
  gethostbyname := fun _ _ => some (bytes "db")

theorem getEvent_denotes_placeholder :
    ∃ evdata,
      getEvent placeholderResolver {} =
        some { calls := [.setData evdata], result := true } ∧
      Denotes evdata (.value (namesValue (bytes "webdb") (bytes "db"))) := by
  have short : ∀ found,
      placeholderResolver.gethostbyname (cString ((bytes "web$1").take 1024))
          {} = some found →
        (cString found).length < 2 ^ 15 := by
    intro found isFound
    cases isFound
    decide
  obtain ⟨evdata, hostnameFqdn, isFqdn, answer, denotes, -⟩ :=
    @getEvent_denotes _ _ (bytes "web$1") rfl short
  have isDb : hostnameFqdn = bytes "db" := by
    rw [isFqdn]
    decide
  subst isDb
  exact ⟨evdata, answer, denotes⟩

end Hostname
end EvCollect
