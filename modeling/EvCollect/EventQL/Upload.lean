import EvCollect.EventQL.Target
import EvCollect.Json.Scan

/-!
# The body of an upload

What `uploadEvent` posts to the server. There is no comma between the member
`"table"` and the member `"data"`, so it is not a JSON text, whatever the event.
-/

namespace EvCollect
namespace EventQL

open Json StringUtil

/-- The body that `uploadEvent` builds, or `none` where building it does not
return. -/
def uploadBody (event : EnqueuedEvent) : Option Bytes := do
  let database ←
    format (bytes "\"database\": \"$0\",") [jsonEscape event.database]
  let table ← format (bytes "\"table\": \"$0\"") [jsonEscape event.table]
  return bytes "[\x7b " ++ database ++ table ++
    (bytes "\"data\":" ++ event.data) ++ bytes "\x7d]"

/-- The value that the server should be sent. -/
def EnqueuedEvent.insertion (event : EnqueuedEvent) (data : Value) : Value :=
  .array [.object [(bytes "database", .string event.database),
    (bytes "table", .string event.table), (bytes "data", data)]]

/-- What comes before the data ends with the quote behind the table's name. -/
theorem uploadBody_shape
    {event : EnqueuedEvent}
    {body : Bytes}
    (built : uploadBody event = some body) :
    ∃ before, body = before ++ 0x22 :: 0x22 :: 0x64 ::
      (bytes "ata\":" ++ event.data ++ bytes "\x7d]") := by
  rw [uploadBody, Option.bind_eq_bind] at built
  obtain ⟨databaseText, -, built⟩ := Option.bind_eq_some_iff.mp built
  obtain ⟨tableText, formatted, built⟩ := Option.bind_eq_some_iff.mp built
  have template : bytes "\"table\": \"$0\"" =
      bytes "\"table\": \"$0" ++ [0x22] := by decide
  have length : (bytes "\"table\": \"$0").length = 12 := by decide
  have bounded := length_jsonEscape_le event.table
  rw [template] at formatted
  obtain ⟨kept, rfl⟩ := format_concat (by decide)
    (by rw [length]; omega) formatted
  have name : bytes "\"data\":" = 0x22 :: 0x64 :: bytes "ata\":" := by decide
  refine ⟨bytes "[\x7b " ++ databaseText ++ kept, ?_⟩
  rw [← Option.some.inj built, name]
  simp

/-- No event is uploaded as a JSON text, let alone as the value it should be. -/
theorem uploadBody_not_text
    (event : EnqueuedEvent)
    (value : Value) :
    ¬ ∃ body, uploadBody event = some body ∧ Text body value := by
  rintro ⟨body, built, isText⟩
  obtain ⟨before, rfl⟩ := uploadBody_shape built
  exact not_text_of_stuck (stuck_of_adjoining rfl rfl) value isText

/-- The event `1` for the table `load` of the database `db`. -/
def loadEvent : EnqueuedEvent :=
  { database := bytes "db"
    table := bytes "load"
    data := bytes "1" }

theorem uploadBody_loadEvent :
    Text loadEvent.data (.number (bytes "1")) ∧
      uploadBody loadEvent = some (bytes
        ("[\x7b \"database\": \"db\",\"table\": \"load\"" ++
          "\"data\":1\x7d]")) ∧
      ¬ ∃ body, uploadBody loadEvent = some body ∧
        Text body (loadEvent.insertion (.number (bytes "1"))) := by
  have built : uploadBody loadEvent = some (bytes
      ("[\x7b \"database\": \"db\",\"table\": \"load\"" ++
        "\"data\":1\x7d]")) := by
    decide
  refine ⟨?_, built, ?_⟩
  · have blank : Blank [] := by
      intro byte present
      cases present
    exact ⟨[], bytes "1", [], blank, .number (by decide), blank, by decide⟩
  · rintro ⟨body, posted, isText⟩
    cases built.symm.trans posted
    exact not_text_of_stuck (by decide) _ isText

end EventQL
end EvCollect
