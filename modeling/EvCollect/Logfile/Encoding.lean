import EvCollect.Logfile.Delivery
import EvCollect.Util.JsonEscape

/-!
# Events are JSON objects

What `getNextEvent` makes of a line: one JSON object, whose members are the named
groups of the match or, without a regular expression, the line itself.
-/

namespace EvCollect
namespace Logfile

open Process Json StringUtil

/-! ## What an event says -/

/-- The offsets of a group that is unset, or that has captured a part of the
line. -/
def PcreMatch.Captures
    (result : PcreMatch)
    (rawLine : Bytes)
    (group : Nat) : Prop :=
  result.ovector (2 * group) = -1 ∧ result.ovector (2 * group + 1) = -1 ∨
    0 ≤ result.ovector (2 * group) ∧
      result.ovector (2 * group) ≤ result.ovector (2 * group + 1) ∧
      result.ovector (2 * group + 1) ≤ rawLine.length

/-- The bytes that a group has captured. -/
def PcreMatch.captured
    (result : PcreMatch)
    (rawLine : Bytes)
    (group : Nat) : Bytes :=
  if result.ovector (2 * group) = -1 then []
  else
    (rawLine.take (result.ovector (2 * group + 1)).toNat).drop
      (result.ovector (2 * group)).toNat

/-- The groups with a name, and what they have captured. -/
def namedCaptures
    (fields : List Bytes)
    (result : PcreMatch)
    (rawLine : Bytes)
    (groups : List Nat) : List (Bytes × Bytes) :=
  (groups.filter fun group => !(fields.getD group []).isEmpty).map fun group =>
    (fields.getD group [], result.captured rawLine group)

/-- The groups of a match without the whole match. -/
def PcreMatch.groups (result : PcreMatch) : List Nat :=
  List.range' 1 (result.rc.toNat - 1)

namespace LogfileSource

/-- What an event tells of a line, if the line gives an event. -/
def contents (source : LogfileSource) (rawLine : Bytes) :
    Option (List (Bytes × Bytes)) :=
  if rawLine = [] then none
  else
    match source.pcreHandle with
    | some pcre =>
        if 0 < (pcre.exec rawLine).rc then
          some (namedCaptures source.pcreFields (pcre.exec rawLine) rawLine
            (pcre.exec rawLine).groups)
        else none
    | none => some [(bytes "data", rawLine)]

/-- An event is the JSON object of what it tells of the line, and nothing else;
it is empty if there is nothing to tell. -/
def Encodes (source : LogfileSource) (rawLine event : Bytes) : Prop :=
  match source.contents rawLine with
  | none => event = []
  | some members =>
      ∀ value, Text event value ↔
        value = .object (members.map fun member =>
          (member.1, .string member.2))

/-- What the regular expression library promises of its results: a line does not
match, or all groups of the match are unset or parts of the line. -/
def Matches (source : LogfileSource) (rawLine : Bytes) : Prop :=
  ∀ pcre ∈ source.pcreHandle,
    (pcre.exec rawLine).rc < 0 ∨ 0 < (pcre.exec rawLine).rc ∧
      ∀ group ∈ (pcre.exec rawLine).groups,
        (pcre.exec rawLine).Captures rawLine group

end LogfileSource

/-! ## Objects -/

/-- The text of a member. -/
def memberText (member : Bytes × Bytes) : Bytes :=
  quoted (escaped member.1) ++ 0x3a :: quoted (escaped member.2)

/-- The text of members of which some have been written already. -/
def membersText : Nat → List (Bytes × Bytes) → Bytes
  | _, [] => []
  | written, member :: members =>
      (if 0 < written then bytes "," else []) ++ memberText member ++
        membersText (written + 1) members

theorem blank_nil : Blank [] := by
  intro byte present
  cases present

theorem denotes_members
    (member : Bytes × Bytes)
    (members : List (Bytes × Bytes))
    (written : Nat) :
    Denotes (memberText member ++ membersText (written + 1) members)
      (.members ((member :: members).map fun member =>
        (member.1, .string member.2))) := by
  induction members generalizing member written with
  | nil =>
      have denotes := Denotes.lastMember blank_nil (letters_escaped member.1)
        blank_nil blank_nil (denotes_escaped member.2) blank_nil
      rw [decode_escaped] at denotes
      simpa [membersText, memberText] using denotes
  | cons next rest inductionHypothesis =>
      have denotes := Denotes.member blank_nil (letters_escaped member.1)
        blank_nil blank_nil (denotes_escaped member.2) blank_nil
        (inductionHypothesis next (written + 1))
      rw [decode_escaped] at denotes
      have comma : bytes "," = [0x2c] := by decide
      simpa [membersText, memberText, comma] using denotes

/-- Members between braces are an object. -/
theorem text_object (members : List (Bytes × Bytes)) :
    Text (bytes "\x7b" ++ membersText 0 members ++ bytes "\x7d")
      (.object (members.map fun member => (member.1, .string member.2))) := by
  have opening : bytes "\x7b" = [0x7b] := by decide
  have closing : bytes "\x7d" = [0x7d] := by decide
  refine ⟨[], 0x7b :: (membersText 0 members ++ [0x7d]), [], blank_nil, ?_,
    blank_nil, by simp [opening, closing]⟩
  cases members with
  | nil => exact Denotes.noMembers blank_nil
  | cons member members =>
      exact Denotes.object (denotes_members member members 0)

theorem text_iff
    {text : Bytes}
    {value : Value}
    (isText : Text text value)
    (other : Value) :
    Text text other ↔ other = value := by
  constructor
  · intro isOther
    exact isOther.unique isText
  · rintro rfl
    exact isText

/-! ## With a regular expression -/

theorem slice_captured
    {result : PcreMatch}
    {rawLine : Bytes}
    {group : Nat}
    (captures : result.Captures rawLine group) :
    LogfileSource.slice rawLine (result.ovector (2 * group))
        (result.ovector (2 * group + 1)) =
      some (result.captured rawLine group) := by
  unfold LogfileSource.slice PcreMatch.captured
  rcases captures with ⟨start, stop⟩ | ⟨start, ordered, stop⟩
  · rw [start, stop]
    rfl
  · rw [if_neg (by omega), if_neg (by omega), List.drop_take]
    have same : (result.ovector (2 * group + 1) -
          result.ovector (2 * group)).toNat =
        (result.ovector (2 * group + 1)).toNat -
          (result.ovector (2 * group)).toNat := by
      omega
    rw [same]

/-- The strings that are escaped for a member are short enough for it. -/
def Escapable (member : Bytes × Bytes) : Prop :=
  member.1.length ≤ 2 ^ 31 ∧ member.2.length ≤ 2 ^ 31

/-- The loop over the groups writes the members of the named ones. -/
theorem appendMembers_eq
    {fields : List Bytes}
    {result : PcreMatch}
    {rawLine : Bytes}
    (groups : List Nat)
    (captures : ∀ group ∈ groups, result.Captures rawLine group)
    (escapable : ∀ member ∈ namedCaptures fields result rawLine groups,
      Escapable member)
    (written : Nat)
    (json : Bytes) :
    LogfileSource.appendMembers fields result rawLine groups written json =
      some (json ++
        membersText written (namedCaptures fields result rawLine groups)) := by
  induction groups generalizing written json with
  | nil => simp [LogfileSource.appendMembers, namedCaptures, membersText]
  | cons group groups inductionHypothesis =>
      have others := inductionHypothesis
        fun other present => captures other (List.mem_cons_of_mem _ present)
      rw [LogfileSource.appendMembers]
      by_cases unnamed : (fields.getD group []).isEmpty
      · have skipped : namedCaptures fields result rawLine (group :: groups) =
            namedCaptures fields result rawLine groups := by
          rw [namedCaptures, List.filter_cons_of_neg (by simpa using unnamed)]
          rfl
        rw [skipped] at escapable ⊢
        simp only [unnamed]
        exact others escapable written json
      · have kept : namedCaptures fields result rawLine (group :: groups) =
            (fields.getD group [], result.captured rawLine group) ::
              namedCaptures fields result rawLine groups := by
          rw [namedCaptures, List.filter_cons_of_pos (by simpa using unnamed)]
          rfl
        rw [kept] at escapable ⊢
        obtain ⟨nameFits, dataFits⟩ :
            (fields.getD group []).length ≤ 2 ^ 31 ∧
              (result.captured rawLine group).length ≤ 2 ^ 31 :=
          escapable _ List.mem_cons_self
        have rest := others fun member present =>
          escapable member (List.mem_cons_of_mem _ present)
        have separated :
            (if 0 < written then json ++ bytes "," else json) =
              json ++ (if 0 < written then bytes "," else []) := by
          split
          · rfl
          · exact (List.append_nil json).symm
        have quote : bytes "\"" = [0x22] := by decide
        have colon : bytes "\":" = [0x22, 0x3a] := by decide
        simp only [unnamed, slice_captured (captures group List.mem_cons_self),
          Option.bind_eq_bind, Option.bind_some, jsonEscape_of_le nameFits,
          jsonEscape_of_le dataFits]
        change LogfileSource.appendMembers fields result rawLine groups
          (written + 1) _ = _
        rw [rest, separated, quote, colon]
        simp [membersText, memberText, quoted]

/-! ## Without a regular expression -/

/-- The format string with the placeholder replaced by an escaped string. -/
def inserted (data : Bytes) : Bytes :=
  bytes "\x7b \"data\": \"" ++ data ++ bytes "\" \x7d"

/-- Behind what it has inserted `replaceAll` finds no further placeholder. It goes
on searching from a position that it keeps in an `int`. -/
def Unreplaced (data : Bytes) : Prop :=
  ∀ position ∈ find (inserted data) (bytes "$0") (ofInt (toInt (11 + data.length))),
    toInt position = -1

/-- Where the position fits an `int` there is nothing left to replace. -/
theorem unreplaced_of_lt
    {data : Bytes}
    (fits : 11 + data.length < 2 ^ 31) :
    Unreplaced data := by
  have cursor : ofInt (toInt (11 + data.length)) = 11 + data.length := by
    rw [toInt_of_lt fits]
    exact ofInt_natCast (by omega)
  have opening : (bytes "\x7b \"data\": \"").length = 11 := by decide
  have left : (inserted data).drop (11 + data.length) = bytes "\" \x7d" := by
    rw [inserted, ← opening, ← List.length_append, List.drop_left]
  have nothing : findIn (bytes "$0") (bytes "\" \x7d") = none := by decide
  intro position found
  rw [cursor, find, left, nothing] at found
  split at found <;> cases found

/-- The first pass of `replaceAll` replaces the placeholder of the format
string. -/
theorem format_eq_replaceLoop (data : Bytes) :
    format (bytes "\x7b \"data\": \"$0\" \x7d") [data] =
      replaceLoop (bytes "$0") data 16 (toInt (11 + data.length))
        (inserted data) := by
  have pattern : bytes "$" ++ decimal 0 = bytes "$0" := by decide
  have template : bytes "\x7b \"data\": \"$0\" \x7d" =
      bytes "\x7b \"data\": \"" ++ (bytes "$0" ++ bytes "\" \x7d") := by
    decide
  have first : find (bytes "\x7b \"data\": \"$0\" \x7d") (bytes "$0")
      (ofInt 0) = some 11 := by
    decide
  have start : ofInt (toInt 11) = 11 := by decide
  have next : (bytes "\x7b \"data\": \"$0\" \x7d").take 11 ++ data ++
      (bytes "\x7b \"data\": \"$0\" \x7d").drop (11 + (bytes "$0").length) =
        inserted data := by
    rw [inserted]
    congr 1
  rw [format, formatImpl, pattern, replaceAll, if_neg (by decide)]
  change (replaceLoop (bytes "$0") data (16 + 1) 0 _).bind some = _
  rw [Option.bind_fun_some, replaceLoop, first]
  simp only [start]
  rw [if_neg (by decide), if_neg (by decide), next]

theorem format_eq
    {data : Bytes}
    (unreplaced : Unreplaced data) :
    format (bytes "\x7b \"data\": \"$0\" \x7d") [data] =
      some (inserted data) := by
  rw [format_eq_replaceLoop, replaceLoop]
  split
  · rfl
  next position found =>
    have wrapped := unreplaced position found
    rw [wrapped]
    rfl

theorem text_inserted (rawLine : Bytes) :
    Text (inserted (escaped rawLine))
      (.object [(bytes "data", .string rawLine)]) := by
  have blank : Blank [0x20] := by
    intro byte present
    cases List.mem_singleton.mp present
    rfl
  have denotes := Denotes.lastMember blank (letters_escaped (bytes "data"))
    blank_nil blank (denotes_escaped rawLine) blank
  rw [decode_escaped] at denotes
  have name : escaped (bytes "data") = bytes "data" := by decide
  have opening : bytes "\x7b \"data\": \"" =
      0x7b :: 0x20 :: (quoted (bytes "data") ++ [0x3a, 0x20, 0x22]) := by
    decide
  have closing : bytes "\" \x7d" = [0x22, 0x20, 0x7d] := by decide
  refine ⟨[], _, [], blank_nil, Denotes.object denotes, blank_nil, ?_⟩
  rw [inserted, opening, closing, name]
  simp [quoted]

/-! ## Events -/

namespace LogfileSource

/-- Every string that is escaped for the event has at most 2^31 bytes and, without
a regular expression, the placeholder is replaced once. -/
def Fits (source : LogfileSource) (rawLine : Bytes) : Prop :=
  match source.pcreHandle with
  | some _ =>
      ∀ members ∈ source.contents rawLine, ∀ member ∈ members,
        Escapable member
  | none => rawLine.length ≤ 2 ^ 31 ∧ Unreplaced (escaped rawLine)

/-- The event of a line, without a regular expression. -/
theorem formatEvent_plain
    {source : LogfileSource}
    {rawLine : Bytes}
    (nonempty : rawLine ≠ [])
    (noRegex : source.pcreHandle = none)
    (fits : source.Fits rawLine) :
    ∃ event, source.formatEvent rawLine [] = some event ∧
      source.Encodes rawLine event := by
  rw [Fits, noRegex] at fits
  refine ⟨inserted (escaped rawLine), ?_, ?_⟩
  · rw [formatEvent, noRegex]
    change format _ [jsonEscape rawLine] = _
    rw [jsonEscape_of_le fits.1]
    exact format_eq fits.2
  · rw [Encodes, contents, if_neg nonempty, noRegex]
    exact text_iff (text_inserted rawLine)

/-- The event of a line that matches a regular expression, or does not. -/
theorem formatEvent_regex
    {source : LogfileSource}
    {rawLine : Bytes}
    {pcre : Pcre}
    (nonempty : rawLine ≠ [])
    (regex : source.pcreHandle = some pcre)
    (matched : source.Matches rawLine)
    (fits : source.Fits rawLine) :
    ∃ event, source.formatEvent rawLine [] = some event ∧
      source.Encodes rawLine event := by
  have told : source.contents rawLine =
      if 0 < (pcre.exec rawLine).rc then
        some (namedCaptures source.pcreFields (pcre.exec rawLine) rawLine
          (pcre.exec rawLine).groups)
      else none := by
    rw [contents, if_neg nonempty, regex]
  rw [Fits, regex] at fits
  rcases matched pcre regex with missed | ⟨positive, captures⟩
  · rw [if_neg (by omega)] at told
    refine ⟨[], ?_, ?_⟩
    · rw [formatEvent, regex]
      exact if_neg (by omega)
    · rw [Encodes, told]
  · rw [if_pos positive] at told
    have appended := appendMembers_eq (pcre.exec rawLine).groups captures
      (fits _ told) 0 ([] ++ bytes "\x7b")
    refine ⟨bytes "\x7b" ++ membersText 0 (namedCaptures source.pcreFields
      (pcre.exec rawLine) rawLine (pcre.exec rawLine).groups) ++ bytes "\x7d",
      ?_, ?_⟩
    · rw [formatEvent, regex]
      change (if 0 ≤ (pcre.exec rawLine).rc then
        (appendMembers source.pcreFields (pcre.exec rawLine) rawLine
          (pcre.exec rawLine).groups 0 ([] ++ bytes "\x7b")).map _
        else _) = _
      rw [if_pos (by omega), appended]
      rfl
    · rw [Encodes, told]
      exact text_iff (text_object _)

/-- The event of a line. -/
theorem formatEvent_encodes
    {source : LogfileSource}
    {rawLine : Bytes}
    (nonempty : rawLine ≠ [])
    (matched : source.Matches rawLine)
    (fits : source.Fits rawLine) :
    ∃ event, source.formatEvent rawLine [] = some event ∧
      source.Encodes rawLine event := by
  cases handle : source.pcreHandle with
  | none => exact formatEvent_plain nonempty handle fits
  | some pcre => exact formatEvent_regex nonempty handle matched fits

end LogfileSource

/-- `getNextEvent` returns the event of the line that `getNextLine` returns. -/
theorem getNextEvent_eq
    {script rest : List Entry}
    {reader after : Reader}
    {rawLine : Bytes}
    (line : getNextLine [] script reader = .done (.ok rawLine) rest after) :
    getNextEvent [] script reader =
      if rawLine.isEmpty then .done (.ok []) rest after
      else
        match after.source.formatEvent rawLine [] with
        | none => .cut .uncaught after
        | some event => .done (.ok event) rest after := by
  rw [getNextEvent, bind_of_done line]
  change (if rawLine.isEmpty then (pure (Except.ok []) : ReaderProc _) else _)
    rest after = _
  split
  · rfl
  · change (match after.source.formatEvent rawLine [] with
      | none => Proc.halt LogPoint.uncaught
      | some event => pure (Except.ok event) : ReaderProc _) rest after = _
    cases after.source.formatEvent rawLine [] <;> rfl

/-- Where `getNextLine` returns a line, `getNextEvent` returns one JSON object
that says what the line holds, or nothing for a line that is empty or does not
match. -/
theorem getNextEvent_encodes
    {script rest : List Entry}
    {reader after : Reader}
    {rawLine : Bytes}
    (line : getNextLine [] script reader = .done (.ok rawLine) rest after)
    (matched : after.source.Matches rawLine)
    (fits : after.source.Fits rawLine) :
    ∃ event,
      getNextEvent [] script reader = .done (.ok event) rest after ∧
        after.source.Encodes rawLine event := by
  rw [getNextEvent_eq line]
  by_cases isEmpty : rawLine = []
  · subst isEmpty
    exact ⟨[], rfl, rfl⟩
  · obtain ⟨event, formatted, encodes⟩ :=
      LogfileSource.formatEvent_encodes isEmpty matched fits
    rw [if_neg (by simpa using isEmpty), formatted]
    exact ⟨event, rfl, encodes⟩

/-! ## A line that is replaced once -/

/-- A reader that has read a line and not returned it yet. -/
def Reader.holding (line : Bytes) : Reader :=
  Reader.begin (oneFile [] (by decide))
    { freshSource with lineBuf := [line ++ [0x0a]] }

theorem checkpointIfDue_waits
    {entry : Entry}
    {reader : Reader}
    (early : entry.wall - reader.source.lastCheckpoint <
      reader.source.checkpointIntervalMicros)
    (rest : List Entry) :
    checkpointIfDue (entry :: rest) reader =
      .done () rest (World.react entry reader) := by
  change (if reader.source.checkpointIntervalMicros ≤
      entry.wall - reader.source.lastCheckpoint then
    _ else (pure () : ReaderProc Unit)) rest (World.react entry reader) = _
  rw [if_neg (UInt64.not_le.mpr early)]
  rfl

/-- A line in the buffer is returned before a checkpoint is due. -/
theorem getNextLine_buffered
    {source : LogfileSource}
    (early : (0 : UInt64) - source.lastCheckpoint <
      source.checkpointIntervalMicros)
    (disk : Disk)
    (line : Bytes) :
    ∃ after, after.source.pcreHandle = source.pcreHandle ∧
      after.source.pcreFields = source.pcreFields ∧
      getNextLine [] [{}]
        (Reader.begin disk { source with lineBuf := [line ++ [0x0a]] }) =
          .done (.ok line) [] after := by
  have taken : (line ++ [0x0a]).dropLast = line := List.dropLast_concat
  let reader := Reader.begin disk { source with lineBuf := [line ++ [0x0a]] }
  have waits := checkpointIfDue_waits
    (show ({} : Entry).wall -
        (popLine (line ++ [0x0a]) reader).source.lastCheckpoint <
      (popLine (line ++ [0x0a]) reader).source.checkpointIntervalMicros
      from early) []
  refine ⟨noteReturned (World.react {} (popLine (line ++ [0x0a]) reader)),
    rfl, rfl, ?_⟩
  change (checkpointIfDue >>= fun _ => _) [{}] (popLine (line ++ [0x0a])
    reader) = _
  rw [bind_of_done waits]
  change Outcome.done (Except.ok (line ++ [0x0a]).dropLast) [] _ = _
  rw [taken]

theorem getNextLine_holding (line : Bytes) :
    ∃ after, after.source.pcreHandle = none ∧
      getNextLine [] [{}] (Reader.holding line) =
        .done (.ok line) [] after := by
  have early : (0 : UInt64) - freshSource.lastCheckpoint <
      freshSource.checkpointIntervalMicros := by
    change (0 : UInt64) - 0 < 10 * 1000000
    decide
  obtain ⟨after, noRegex, -, returned⟩ := getNextLine_buffered early _ line
  exact ⟨after, noRegex, returned⟩

theorem getNextEvent_encodes_holding :
    ∃ event after,
      getNextEvent [] [{}] (Reader.holding (bytes "\"$0\"\n")) =
          .done (.ok event) [] after ∧
        after.source.Encodes (bytes "\"$0\"\n") event := by
  obtain ⟨after, noRegex, line⟩ := getNextLine_holding (bytes "\"$0\"\n")
  have matched : after.source.Matches (bytes "\"$0\"\n") := by
    intro pcre handle
    rw [noRegex] at handle
    cases handle
  have fits : after.source.Fits (bytes "\"$0\"\n") := by
    rw [LogfileSource.Fits, noRegex]
    exact ⟨by decide, unreplaced_of_lt (by decide)⟩
  obtain ⟨event, returned, encodes⟩ :=
    getNextEvent_encodes line matched fits
  exact ⟨event, after, returned, encodes⟩

/-! ## A line that is replaced twice -/

theorem length_escaped_replicate (count : Nat) :
    (escaped (List.replicate count 0x01)).length = 6 * count := by
  have six : (jsonEscapeByte 0x01).length = 6 := by decide
  rw [escaped, List.length_flatMap, List.map_replicate, six,
    List.sum_replicate_nat, Nat.mul_comm]

theorem not_mem_escaped_replicate (count : Nat) :
    (0x24 : UInt8) ∉ escaped (List.replicate count 0x01) := by
  intro present
  obtain ⟨byte, ofLine, inEscape⟩ := List.mem_flatMap.mp present
  rw [List.eq_of_mem_replicate ofLine] at inEscape
  revert inEscape
  decide

/-- A placeholder behind `before` control characters. -/
def crowdedLine (before behind : Nat) : Bytes :=
  List.replicate before 0x01 ++
    (bytes "$0" ++ List.replicate behind 0x01)

theorem length_crowdedLine (before behind : Nat) :
    (crowdedLine before behind).length = before + 2 + behind := by
  have placeholder : (bytes "$0").length = 2 := by decide
  simp only [crowdedLine, List.length_append, List.length_replicate, placeholder]
  omega

theorem escaped_crowdedLine (before behind : Nat) :
    escaped (crowdedLine before behind) =
      escaped (List.replicate before 0x01) ++
        (bytes "$0" ++ escaped (List.replicate behind 0x01)) := by
  have placeholder : escaped (bytes "$0") = bytes "$0" := by decide
  rw [← placeholder]
  simp [crowdedLine, escaped]

/-- A search from the opening on finds the placeholder in the line. -/
theorem find_crowdedLine
    (before behind : Nat) :
    find (inserted (escaped (crowdedLine before behind))) (bytes "$0") 3 =
      some (11 + 6 * before) := by
  have split : inserted (escaped (crowdedLine before behind)) =
      bytes "\x7b \"" ++ (bytes "data\": \"" ++
        escaped (List.replicate before 0x01) ++ (bytes "$0" ++
          escaped (List.replicate behind 0x01) ++ bytes "\" \x7d")) := by
    rw [inserted, escaped_crowdedLine]
    simp [show bytes "\x7b \"data\": \"" =
      bytes "\x7b \"" ++ bytes "data\": \"" by decide]
  have absent : (0x24 : UInt8) ∉ bytes "data\": \"" ++
      escaped (List.replicate before 0x01) := by
    rw [List.mem_append, not_or]
    exact ⟨by decide, not_mem_escaped_replicate before⟩
  have here (rest : Bytes) : findIn (bytes "$0") (bytes "$0" ++ rest) =
      some 0 := rfl
  have placeholder : bytes "$0" = 0x24 :: [0x30] := by decide
  have opening : (bytes "\x7b \"").length = 3 := by decide
  have drop : (inserted (escaped (crowdedLine before behind))).drop 3 = 
      bytes "data\": \"" ++ escaped (List.replicate before 0x01) ++
        (bytes "$0" ++ escaped (List.replicate behind 0x01) ++
          bytes "\" \x7d") := by
    rw [split, ← opening, List.drop_left]
  have name : (bytes "data\": \"").length = 8 := by decide
  rw [find, if_neg (by rw [split]; simp [opening]), drop, placeholder,
    findIn_append absent, ← placeholder, List.append_assoc, here]
  simp only [Option.map_some, List.length_append, name, length_escaped_replicate]
  congr 1
  omega

theorem length_inserted_crowdedLine (before behind : Nat) :
    (inserted (escaped (crowdedLine before behind))).length =
      16 + 6 * (before + behind) ∧
    (escaped (crowdedLine before behind)).length = 2 + 6 * (before + behind) := by
  have placeholder : (bytes "$0").length = 2 := by decide
  have opening : (bytes "\x7b \"data\": \"").length = 11 := by decide
  have closing : (bytes "\" \x7d").length = 3 := by decide
  simp only [inserted, escaped_crowdedLine, List.length_append, placeholder,
    opening, closing, length_escaped_replicate]
  omega

/-- The second search begins at byte 3 again, and what it finds is too far behind
for an `int`. -/
theorem format_crowdedLine
    {before behind : Nat}
    (length : 6 * (before + behind) + 10 = 2 ^ 32)
    (far : 2 ^ 31 ≤ 6 * before)
    (more : 0 < behind) :
    format (bytes "\x7b \"data\": \"$0\" \x7d")
      [escaped (crowdedLine before behind)] = none := by
  obtain ⟨whole, data⟩ := length_inserted_crowdedLine before behind
  have cursor : ofInt (toInt
      (11 + (escaped (crowdedLine before behind)).length)) = 3 := by
    rw [data, show 11 + (2 + 6 * (before + behind)) = 3 + 2 ^ 32 by omega,
      toInt_add]
    decide
  have position : ofInt (toInt (11 + 6 * before)) =
      2 ^ 64 - 2 ^ 32 + (11 + 6 * before) := by
    have wrapped := toInt_of_ge (show 2 ^ 31 ≤ 11 + 6 * before by omega)
      (by omega)
    rw [wrapped, ofInt]
    omega
  rw [format_eq_replaceLoop, replaceLoop, cursor, find_crowdedLine]
  simp only [position]
  rw [if_neg (by omega), if_pos (by omega)]

theorem formatEvent_crowdedLine
    {source : LogfileSource}
    {before behind : Nat}
    (noRegex : source.pcreHandle = none)
    (length : 6 * (before + behind) + 10 = 2 ^ 32)
    (far : 2 ^ 31 ≤ 6 * before)
    (more : 0 < behind) :
    source.formatEvent (crowdedLine before behind) [] = none := by
  rw [LogfileSource.formatEvent, noRegex]
  change format _ [jsonEscape _] = _
  rw [jsonEscape_of_le (by rw [length_crowdedLine]; omega)]
  exact format_crowdedLine length far more

theorem crowdedLine_isEmpty (before behind : Nat) :
    (crowdedLine before behind).isEmpty = false := by
  have placeholder : bytes "$0" = [0x24, 0x30] := by decide
  rw [crowdedLine, placeholder]
  cases before with
  | zero => rfl
  | succ before => rfl

/-- The control characters before the placeholder make its position overflow, and
those behind it make the search begin before it. -/
theorem getNextEvent_crowdedLine :
    ∃ reader script rest after rawLine,
      getNextLine [] script reader = .done (.ok rawLine) rest after ∧
        after.source.Matches rawLine ∧
        ¬ ∃ event,
          getNextEvent [] script reader = .done (.ok event) rest after ∧
            after.source.Encodes rawLine event := by
  obtain ⟨before, behind, length, far, more⟩ :
      ∃ before behind, 6 * (before + behind) + 10 = 2 ^ 32 ∧
        2 ^ 31 ≤ 6 * before ∧ 0 < behind :=
    ⟨400000000, 315827881, by omega⟩
  obtain ⟨after, noRegex, line⟩ :=
    getNextLine_holding (crowdedLine before behind)
  refine ⟨_, _, _, after, _, line, ?_, ?_⟩
  · intro pcre handle
    rw [noRegex] at handle
    cases handle
  · rintro ⟨event, returned, -⟩
    rw [getNextEvent_eq line, crowdedLine_isEmpty,
      formatEvent_crowdedLine noRegex length far more] at returned
    cases returned

end Logfile
end EvCollect
