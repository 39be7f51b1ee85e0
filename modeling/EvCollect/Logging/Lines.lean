import EvCollect.Util.Format
import EvCollect.Logging.Logger

/-!
# The lines of the log

`StderrLogOutputStream::log`, which writes a message line by line with the time,
the name of the program and the level before each of them.
-/

namespace EvCollect
namespace Logging

open StringUtil Text

structure StderrLogOutputStream where
  programName : Bytes

namespace StderrLogOutputStream

/-- What `log` writes, where `now` is the present time as a text. -/
def log
    (now : Bytes)
    (level : LogLevel)
    (message : Bytes)
    (target : StderrLogOutputStream) : Option Bytes := do
  let linePrefix ← format (bytes "$0 $1 [$2] ")
    [now, target.programName, level.toStr]
  let lines ← replaceAll (linePrefix ++ message) (bytes "\n")
    (bytes "\n" ++ linePrefix)
  return lines ++ bytes "\n"

/-- What stands before each line. -/
def lead
    (now : Bytes)
    (level : LogLevel)
    (target : StderrLogOutputStream) : Bytes :=
  now ++ (bytes " " ++ (target.programName ++ (bytes " [" ++ (level.toStr ++
    bytes "] "))))

end StderrLogOutputStream

/-! ## Lines -/

theorem splitOn_append
    {before : Bytes}
    {byte : UInt8}
    (absent : byte ∉ before)
    (text : Bytes) :
    (before ++ text).splitOn byte =
      (text.splitOn byte).modifyHead (before ++ ·) := by
  induction before with
  | nil => exact (congrFun List.modifyHead_id _).symm
  | cons first before inductionHypothesis =>
      rw [List.mem_cons, not_or] at absent
      have other : (first == byte) ≠ true := fun same =>
        absent.1 (beq_iff_eq.mp same).symm
      rw [List.cons_append, List.splitOn_cons_eq_if_modifyHead, if_neg other,
        inductionHypothesis absent.2, List.modifyHead_modifyHead]
      rfl

theorem not_mem_of_mem_splitOn
    {text part : Bytes}
    {byte : UInt8}
    (member : part ∈ text.splitOn byte) : byte ∉ part := by
  obtain ⟨parts, -, separated⟩ := split_separated (List.cons_ne_nil byte []) text
  rw [← separated.eq_splitOn] at member
  have absent := separated.absent (List.cons_ne_nil byte []) part member
  exact fun here => absent ((List.singleton_infix_iff _ _).mpr here)

theorem intercalate_cons_eq_flatMap (separator first : Bytes) (parts : List Bytes) :
    separator.intercalate (first :: parts) =
      first ++ parts.flatMap (separator ++ ·) := by
  induction parts generalizing first with
  | nil => rw [List.intercalate_singleton, List.flatMap_nil, List.append_nil]
  | cons next parts inductionHypothesis =>
      rw [List.intercalate_cons_cons, inductionHypothesis, List.flatMap_cons]
      simp only [List.append_assoc]

/-- A lead behind every separator, and one at the beginning. -/
theorem intercalate_append_lead (separator lead : Bytes) (parts : List Bytes) :
    (separator ++ lead).intercalate (parts.modifyHead (lead ++ ·)) =
      separator.intercalate (parts.map (lead ++ ·)) := by
  cases parts with
  | nil => rfl
  | cons first parts =>
      rw [List.modifyHead_cons, List.map_cons, intercalate_cons_eq_flatMap,
        intercalate_cons_eq_flatMap, List.flatMap_map]
      simp only [List.append_assoc]

/-- Every line end of a message that fits into an `int` is replaced. -/
theorem replaceAll_newlines
    {lead message : Bytes}
    (oneLine : 0x0a ∉ lead)
    (fits : (lead.length + message.length) * (lead.length + 2) < 2 ^ 31) :
    replaceAll (lead ++ message) [0x0a] ([0x0a] ++ lead) =
      some (List.intercalate [0x0a] ((message.splitOn 0x0a).map (lead ++ ·))) := by
  obtain ⟨parts, isSplit, separated⟩ :=
    split_separated (List.cons_ne_nil 0x0a []) (lead ++ message)
  have bound := separated.length_intercalate_le (List.cons_ne_nil _ _)
    ([0x0a] ++ lead)
  rw [List.length_append, List.length_append, List.length_singleton] at bound
  have inside : (lead.length + message.length) * (1 + lead.length + 1) < 2 ^ 31 := by
    rwa [Nat.add_comm 1]
  rw [replaceAll_separated (List.cons_ne_nil _ _) separated (fun start member => ?_)
    fun part member => ?_, separated.eq_splitOn, splitOn_append oneLine,
    intercalate_append_lead]
  · have inReach := add_length_le_of_mem_starts member
    omega
  · have inReach := length_le_intercalate ([0x0a] ++ lead) member
    omega

namespace StderrLogOutputStream

variable {now message : Bytes}
variable {level : LogLevel}
variable {target : StderrLogOutputStream}

theorem format_lead
    (plainNow : 0x24 ∉ now)
    (plainName : 0x24 ∉ target.programName)
    (fits : ((target.lead now level).length + 6) *
      ((target.lead now level).length + 1) < 2 ^ 31) :
    format (bytes "$0 $1 [$2] ") [now, target.programName, level.toStr] =
      some (target.lead now level) := by
  have isTemplate : bytes "$0 $1 [$2] " =
      template 0 [[], bytes " ", bytes " ["] (bytes "] ") := by
    decide
  have plainLevel : (0x24 : UInt8) ∉ level.toStr := by cases level <;> decide
  have plain : ∀ piece ∈ [([], now), (bytes " ", target.programName),
      (bytes " [", level.toStr)], (0x24 : UInt8) ∉ piece.1 ∧ 0x24 ∉ piece.2 := by
    simp only [List.forall_mem_cons]
    exact ⟨⟨List.not_mem_nil, plainNow⟩, ⟨by decide, plainName⟩,
      ⟨by decide, plainLevel⟩, fun _ absent => absurd absent List.not_mem_nil⟩
  rw [isTemplate]
  exact format_template [([], now), (bytes " ", target.programName),
    (bytes " [", level.toStr)] (bytes "] ") (show 3 ≤ 10 by decide) plain
    (by decide) fits

/-- If the time and the name of the program have no line end and no `$`, a message
is written line by line: behind the lead, the lines on stderr are those of the
message, and nothing else is written. -/
theorem log_lines
    (plainNow : 0x24 ∉ now ∧ 0x0a ∉ now)
    (plainName : 0x24 ∉ target.programName ∧ 0x0a ∉ target.programName)
    (fits : ((target.lead now level).length + message.length + 6) *
      ((target.lead now level).length + 2) < 2 ^ 31) :
    ∃ written, target.log now level message = some written ∧
      written.splitOn 0x0a =
        (message.splitOn 0x0a).map (target.lead now level ++ ·) ++ [[]] := by
  have fitsLead : ((target.lead now level).length + 6) *
      ((target.lead now level).length + 1) < 2 ^ 31 :=
    Nat.lt_of_le_of_lt (Nat.mul_le_mul (by omega) (Nat.le_succ _)) fits
  have fitsLines : ((target.lead now level).length + message.length) *
      ((target.lead now level).length + 2) < 2 ^ 31 :=
    Nat.lt_of_le_of_lt (Nat.mul_le_mul_right _ (Nat.le_add_right _ _)) fits
  have oneLine : 0x0a ∉ target.lead now level := by
    have plain : (0x0a : UInt8) ∉ bytes " " ∧ (0x0a : UInt8) ∉ bytes " [" ∧
        (0x0a : UInt8) ∉ bytes "] " := by
      decide
    have plainLevel : (0x0a : UInt8) ∉ level.toStr := by cases level <;> decide
    simp only [lead, List.mem_append, not_or]
    exact ⟨plainNow.2, plain.1, plainName.2, plain.2.1, plainLevel, plain.2.2⟩
  have newline : bytes "\n" = [0x0a] := by decide
  refine ⟨List.intercalate [0x0a]
    ((message.splitOn 0x0a).map (target.lead now level ++ ·)) ++ [0x0a], ?_, ?_⟩
  · rw [log, format_lead plainNow.1 plainName.1 fitsLead, Option.bind_eq_bind,
      Option.bind_some, newline, replaceAll_newlines oneLine fitsLines,
      Option.bind_some]
    rfl
  · have oneLineEach : ∀ line ∈
        (message.splitOn 0x0a).map (target.lead now level ++ ·), 0x0a ∉ line := by
      intro line member
      obtain ⟨part, isPart, rfl⟩ := List.mem_map.mp member
      exact fun here => (List.mem_append.mp here).elim oneLine
        (not_mem_of_mem_splitOn isPart)
    have lines : (message.splitOn 0x0a).map (target.lead now level ++ ·) ≠ [] :=
      mt List.map_eq_nil_iff.mp (List.splitOn_ne_nil _ _)
    rw [List.splitOn_append_cons_self,
      List.splitOn_intercalate 0x0a oneLineEach lines]
    rfl

/-- A message of two lines. -/
theorem log_lines_two :
    ∃ written,
      StderrLogOutputStream.log (bytes "2016-05-01 12:00:00") .error
        (bytes "a\nb") { programName := bytes "evcollectd" } = some written ∧
      written.splitOn 0x0a =
        [bytes "2016-05-01 12:00:00 evcollectd [ERROR] a",
          bytes "2016-05-01 12:00:00 evcollectd [ERROR] b", []] := by
  obtain ⟨written, returned, lines⟩ :=
    @log_lines (bytes "2016-05-01 12:00:00") (bytes "a\nb") .error
      { programName := bytes "evcollectd" } (by decide) (by decide) (by decide)
  refine ⟨written, returned, lines.trans ?_⟩
  decide

end StderrLogOutputStream

end Logging
end EvCollect
