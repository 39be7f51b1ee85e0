import EvCollect.Config.Parser

/-!
# The rules of the parser

What the functions for single rules make of a list of tokens. A property list
takes each name for its own value, an event ends behind its first source, and no
output with the word "plugin" is accepted.
-/

namespace EvCollect
namespace Config

/-- A name, and a value, which may be a name as well. -/
structure NamedValue where
  name : Bytes
  kind : ConfigToken
  value : Bytes
  isValue : kind ∈ [ConfigToken.name, .value]
  deriving DecidableEq

namespace NamedValue

def tokens (pair : NamedValue) : List (ConfigToken × Bytes) :=
  [(.name, pair.name), (pair.kind, pair.value)]

/-- The entry of a property list. -/
def entry (pair : NamedValue) : Bytes × List Bytes :=
  (pair.name, [pair.value])

/-- The tokens of a source line with an empty property list. -/
def sourceLine (pair : NamedValue) : List (ConfigToken × Bytes) :=
  (.source, bytes "source") :: pair.tokens ++ [(.end, bytes "LF")]

/-- The source that such a line declares. -/
def source (pair : NamedValue) : EventSourceConfig :=
  { pluginName := pair.name
    pluginValue := pair.value
    properties := { properties := [] } }

end NamedValue

/-- The kind of a token of a list, which is followed by the end of the input. -/
def kindAt (tokens : List (ConfigToken × Bytes)) (index : Nat) : ConfigToken :=
  ((tokens[index]?).map Prod.fst).getD .eof

theorem currentToken_stream (stream : TokenStream) :
    TokenSource.currentToken stream = kindAt stream.tokens 0 := by
  obtain ⟨tokens⟩ := stream
  cases tokens with
  | nil => rfl
  | cons => rfl

namespace ConfigParser

/-! ## Property lists -/

/-- A property list takes all names that come next, each with itself as its
value. -/
theorem propertyList_ok
    {fuel : Nat}
    {output result : PropertyList}
    {parser after : ConfigParser TokenStream}
    (succeeded : propertyList fuel output parser = some (.ok result, after)) :
    ∃ names : List Bytes,
      parser.lexer.tokens =
        names.map (ConfigToken.name, ·) ++ after.lexer.tokens ∧
      result.properties =
        output.properties ++ names.map fun name => (name, [name]) := by
  induction fuel generalizing output parser with
  | zero => cases succeeded
  | succ fuel inductionHypothesis =>
      by_cases isName : TokenSource.currentToken parser.lexer = .name
      · rw [propertyList_name isName] at succeeded
        obtain ⟨names, tokens, properties⟩ := inductionHypothesis succeeded
        obtain ⟨⟨stream⟩, config, garbage⟩ := parser
        cases stream with
        | nil => cases isName
        | cons token rest =>
            obtain ⟨kind, name⟩ := token
            obtain rfl : kind = .name := isName
            exact ⟨name :: names, congrArg ((.name, name) :: ·) tokens,
              properties.trans (List.append_assoc _ _ _)⟩
      · rw [propertyList_other isName] at succeeded
        cases succeeded
        exact ⟨[], rfl, (List.append_nil _).symm⟩

/-- Names with values are a property list, and what follows is the rest, if and
only if there are none. -/
theorem propertyList_iff
    {rest : List (ConfigToken × Bytes)}
    (follows : kindAt rest 0 ≠ .name)
    (pairs : List NamedValue)
    (output : PropertyList)
    (config : ProcessConfig)
    (garbage : UInt64) :
    (∃ bound, ∀ fuel, bound < fuel →
      propertyList fuel output
          { lexer :=
              ({ tokens := pairs.flatMap NamedValue.tokens ++ rest } :
                TokenStream)
            config := config
            garbage := garbage } =
        some (.ok { properties :=
            output.properties ++ pairs.map NamedValue.entry },
          { lexer := { tokens := rest }
            config := config
            garbage := garbage })) ↔ pairs = [] := by
  constructor
  · rintro ⟨bound, succeeds⟩
    obtain ⟨names, tokens, properties⟩ :=
      propertyList_ok (succeeds (bound + 1) (Nat.lt_succ_self bound))
    have twice := congrArg List.length (List.append_cancel_right tokens)
    have once := congrArg List.length (List.append_cancel_left properties)
    have two : ∀ pair ∈ pairs, pair.tokens.length = 2 := fun _ _ => rfl
    rw [List.length_flatMap, List.map_congr_left two, List.map_const',
      List.sum_replicate_nat, List.length_map] at twice
    rw [List.length_map, List.length_map] at once
    exact List.length_eq_zero_iff.mp (by omega)
  · rintro rfl
    refine ⟨0, fun fuel enough => ?_⟩
    obtain ⟨fuel, rfl⟩ := Nat.exists_eq_add_one_of_ne_zero (Nat.ne_of_gt enough)
    rw [propertyList_other]
    · rw [List.map_nil, List.append_nil]
      rfl
    · rw [currentToken_stream]
      exact follows

/-- The property of the configuration that is distributed. -/
def interval : NamedValue :=
  { name := bytes "interval"
    kind := .value
    value := bytes "1s"
    isValue := by decide }

/-- An empty property list is read, and one with an interval is not. -/
theorem propertyList_iff_none :
    (∃ bound, ∀ fuel, bound < fuel →
      propertyList fuel { properties := [] }
          { lexer :=
              ({ tokens := [].flatMap NamedValue.tokens ++
                  [(.end, bytes "LF")] } : TokenStream)
            config := {}
            garbage := 0 } =
        some (.ok { properties := [] ++ [].map NamedValue.entry },
          { lexer := { tokens := [(.end, bytes "LF")] }
            config := {}
            garbage := 0 })) ∧
    ¬ ∃ bound, ∀ fuel, bound < fuel →
      propertyList fuel { properties := [] }
          { lexer :=
              ({ tokens := [interval].flatMap NamedValue.tokens ++
                  [(.end, bytes "LF")] } : TokenStream)
            config := {}
            garbage := 0 } =
        some (.ok { properties := [] ++ [interval].map NamedValue.entry },
          { lexer := { tokens := [(.end, bytes "LF")] }
            config := {}
            garbage := 0 }) := by
  have follows : kindAt [(.end, bytes "LF")] 0 ≠ .name := by decide
  refine ⟨?_, fun read => ?_⟩
  · exact (propertyList_iff follows [] { properties := [] } {} 0).mpr rfl
  · have none := (propertyList_iff follows [interval] { properties := [] }
      {} 0).mp read
    cases none

/-- A name with a value is read as the name with itself. -/
theorem propertyList_interval :
    ¬ ∃ bound, ∀ fuel, bound < fuel →
      propertyList fuel { properties := [] }
          { lexer :=
              ({ tokens := [interval].flatMap NamedValue.tokens ++
                  [(.end, bytes "LF")] } : TokenStream)
            config := {}
            garbage := 0 } =
        some (.ok { properties := [] ++ [interval].map NamedValue.entry },
          { lexer := { tokens := [(.end, bytes "LF")] }
            config := {}
            garbage := 0 }) := by
  rintro ⟨bound, succeeds⟩
  obtain ⟨names, -, properties⟩ :=
    propertyList_ok (succeeds (bound + 1) (Nat.lt_succ_self bound))
  cases names with
  | nil => cases properties
  | cons name names =>
      have entry := (List.cons.inj properties).1
      have first : interval.name = name := congrArg Prod.fst entry
      have second : [interval.value] = [name] := congrArg Prod.snd entry
      rw [← first] at second
      revert second
      decide

/-! ## Event declarations -/

/-- The tokens of an event declaration with an empty property list. -/
def eventTokens
    (name : Bytes)
    (lines : List NamedValue) : List (ConfigToken × Bytes) :=
  [(.event, bytes "event"), (.name, name), (.end, bytes "LF")] ++
    lines.flatMap NamedValue.sourceLine

theorem eventTokens_cons
    (name : Bytes)
    (line : NamedValue)
    (lines : List NamedValue)
    (rest : List (ConfigToken × Bytes)) :
    eventTokens name (line :: lines) ++ rest =
      (.event, bytes "event") :: (.name, name) :: (.end, bytes "LF") ::
        (line.sourceLine ++ (lines.flatMap NamedValue.sourceLine ++ rest)) := by
  rw [eventTokens, List.flatMap_cons, List.append_assoc, List.append_assoc]
  rfl

/-- Nothing reads the line end behind a source, so the first source is the
last. -/
theorem eventDecl_source
    (name : Bytes)
    (line : NamedValue)
    (rest : List (ConfigToken × Bytes))
    (event : EventConfig)
    (config : ProcessConfig)
    (garbage : UInt64)
    (fuel : Nat) :
    eventDecl (fuel + 2) event
        { lexer :=
            ({ tokens := (.event, bytes "event") :: (.name, name) ::
                (.end, bytes "LF") :: (line.sourceLine ++ rest) } : TokenStream)
          config := config
          garbage := garbage } =
      some (.ok { event with
          eventName := name
          sources := event.sources ++ [line.source] },
        { lexer := { tokens := (.end, bytes "LF") :: rest }
          config := config
          garbage := garbage }) := by
  obtain ⟨pluginName, kind, pluginValue, isValue⟩ := line
  rcases List.mem_pair.mp isValue with rfl | rfl
  · rfl
  · rfl

/-- So a declaration with sources is not read to its end. -/
theorem eventDecl_unread
    {name : Bytes}
    {line : NamedValue}
    {lines : List NamedValue}
    {rest : List (ConfigToken × Bytes)}
    {event parsed : EventConfig}
    {config config' : ProcessConfig}
    {garbage garbage' : UInt64}
    {fuel : Nat} :
    eventDecl (fuel + 2) event
        { lexer :=
            ({ tokens := eventTokens name (line :: lines) ++ rest } : TokenStream)
          config := config
          garbage := garbage } ≠
      some (.ok parsed,
        { lexer := { tokens := rest }
          config := config'
          garbage := garbage' }) := by
  intro ran
  rw [eventTokens_cons, eventDecl_source] at ran
  have behind := congrArg (fun result : Except Error EventConfig ×
    ConfigParser TokenStream => result.2.lexer.tokens.length)
    (Option.some.inj ran)
  simp only [List.length_cons, List.length_append] at behind
  omega

theorem eventDecl_empty
    {rest : List (ConfigToken × Bytes)}
    (follows : kindAt rest 0 ≠ .source)
    (name : Bytes)
    (event : EventConfig)
    (config : ProcessConfig)
    (garbage : UInt64)
    (fuel : Nat) :
    eventDecl (fuel + 1) event
        { lexer :=
            ({ tokens := (.event, bytes "event") :: (.name, name) ::
                (.end, bytes "LF") :: rest } : TokenStream)
          config := config
          garbage := garbage } =
      some (.ok { event with eventName := name },
        { lexer := { tokens := rest }
          config := config
          garbage := garbage }) := by
  apply sourceDecls_other
  rw [currentToken_stream]
  exact follows

/-! ## Output declarations -/

/-- What `outputDecl` reads: a name, a path right behind it, and a line end. -/
structure IsOutput
    {σ : Type}
    [TokenSource σ]
    (parser : ConfigParser σ) : Prop where
  name : TokenSource.currentToken parser.advance.lexer = .name
  path : TokenSource.currentToken parser.advance.advance.lexer ∈
    [ConfigToken.name, .value]
  lineEnd : TokenSource.currentToken parser.advance.advance.advance.lexer = .end

/-- Nothing tests the token between the name and the path. -/
theorem outputDecl_eq
    {σ : Type}
    [TokenSource σ]
    (output : TargetConfig)
    (parser : ConfigParser σ) :
    outputDecl output parser =
      (do
        let pluginValue ← consumeName
        let pluginName ← consumePath
        consumeEndOfLine
        return { output with
          pluginValue := pluginValue
          pluginName := pluginName } : Parse σ TargetConfig)
        parser.advance := rfl

theorem outputDecl_accepts
    {σ : Type}
    [TokenSource σ]
    {parser : ConfigParser σ}
    (isOutput : IsOutput parser)
    (output : TargetConfig) :
    outputDecl output parser =
      some (.ok { output with
          pluginValue := TokenSource.stringValue parser.advance.lexer
          pluginName := TokenSource.stringValue parser.advance.advance.lexer },
        parser.advance.advance.advance.advance) := by
  have name := consumeOneOf_mem (List.mem_singleton.mpr isOutput.name)
  have path := consumeOneOf_mem isOutput.path
  have lineEnd := consumeEndOfLine_end isOutput.lineEnd
  rw [outputDecl_eq]
  exact (Parse.bind_of_ok name).trans
    ((Parse.bind_of_ok path).trans (Parse.bind_of_ok lineEnd))

/-- Whatever else comes is rejected. -/
theorem outputDecl_rejects_iff
    {σ : Type}
    [TokenSource σ]
    (output : TargetConfig)
    (parser : ConfigParser σ) :
    (∃ error after, outputDecl output parser = some (.error error, after)) ↔
      ¬ IsOutput parser := by
  constructor
  · rintro ⟨error, after, rejected⟩ isOutput
    rw [outputDecl_accepts isOutput] at rejected
    cases rejected
  · intro noOutput
    rw [outputDecl_eq]
    by_cases name : TokenSource.currentToken parser.advance.lexer ∈
      [ConfigToken.name]
    case neg => exact ⟨_, _, Parse.bind_of_error (consumeOneOf_not_mem name)⟩
    by_cases path : TokenSource.currentToken parser.advance.advance.lexer ∈
      [ConfigToken.name, .value]
    case neg =>
      exact ⟨_, _, (Parse.bind_of_ok (consumeOneOf_mem name)).trans
        (Parse.bind_of_error (consumeOneOf_not_mem path))⟩
    by_cases lineEnd :
      TokenSource.currentToken parser.advance.advance.advance.lexer = .end
    case neg =>
      exact ⟨_, _, (Parse.bind_of_ok (consumeOneOf_mem name)).trans
        ((Parse.bind_of_ok (consumeOneOf_mem path)).trans
          (Parse.bind_of_error (consumeEndOfLine_other lineEnd)))⟩
    exact absurd ⟨List.mem_singleton.mp name, path, lineEnd⟩ noOutput

/-- The word "plugin" is no path. -/
theorem not_isOutput_of_plugin
    {stream : TokenStream}
    {config : ProcessConfig}
    {garbage : UInt64}
    (isPlugin : kindAt stream.tokens 2 = .plugin) :
    ¬ IsOutput
      { lexer := stream
        config := config
        garbage := garbage } := by
  intro isOutput
  have second : TokenSource.currentToken
      ({ tokens := stream.tokens.tail.tail } : TokenStream) =
        kindAt stream.tokens 2 := by
    rw [currentToken_stream, kindAt, kindAt, List.getElem?_tail,
      List.getElem?_tail]
  have isPath : ConfigToken.plugin ∈ [ConfigToken.name, .value] := by
    rw [← isPlugin, ← second]
    exact isOutput.path
  revert isPath
  decide

/-- The tokens of an output declaration, with the word "plugin" before the
path. -/
def outputTokens (pair : NamedValue) : List (ConfigToken × Bytes) :=
  [(.output, bytes "output"), (.name, pair.name), (.plugin, bytes "plugin"),
    (pair.kind, pair.value), (.end, bytes "LF")]

/-- An event declaration is read to its end if and only if it has no source
lines, no output declaration is accepted, and a list of tokens is rejected for
want of the word "plugin" if and only if it is not what `outputDecl` reads. -/
theorem declarations_iff
    {rest : List (ConfigToken × Bytes)}
    (follows : kindAt rest 0 ≠ .source)
    (name : Bytes)
    (lines : List NamedValue)
    (event : EventConfig)
    (pair : NamedValue)
    (stream : TokenStream)
    (output : TargetConfig)
    (config : ProcessConfig)
    (garbage : UInt64) :
    ((∃ bound, ∀ fuel, bound < fuel →
        eventDecl fuel event
            { lexer :=
                ({ tokens := eventTokens name lines ++ rest } : TokenStream)
              config := config
              garbage := garbage } =
          some (.ok { event with
              eventName := name
              sources := event.sources ++ lines.map NamedValue.source },
            { lexer := { tokens := rest }
              config := config
              garbage := garbage })) ↔ lines = []) ∧
      ¬ outputDecl output
            { lexer := ({ tokens := outputTokens pair ++ rest } : TokenStream)
              config := config
              garbage := garbage } =
          some (.ok { output with
              pluginValue := pair.name
              pluginName := pair.value },
            { lexer := { tokens := rest }
              config := config
              garbage := garbage }) ∧
      ((kindAt stream.tokens 2 ≠ .plugin →
          ∃ error after,
            outputDecl output
                { lexer := stream
                  config := config
                  garbage := garbage } = some (.error error, after)) ↔
        ¬ IsOutput
            { lexer := stream
              config := config
              garbage := garbage }) := by
  refine ⟨⟨?_, ?_⟩, ?_, ?_, ?_⟩
  · rintro ⟨bound, succeeds⟩
    cases lines with
    | nil => rfl
    | cons line lines =>
        have ran := succeeds (bound + 2) (by omega)
        exact absurd ran eventDecl_unread
  · rintro rfl
    refine ⟨0, fun fuel enough => ?_⟩
    obtain ⟨fuel, rfl⟩ := Nat.exists_eq_add_one_of_ne_zero (Nat.ne_of_gt enough)
    rw [List.map_nil, List.append_nil]
    exact eventDecl_empty follows name event config garbage fuel
  · intro accepted
    have noOutput : ¬ IsOutput
        { lexer := ({ tokens := outputTokens pair ++ rest } : TokenStream)
          config := config
          garbage := garbage } := not_isOutput_of_plugin rfl
    obtain ⟨error, after, rejected⟩ :=
      (outputDecl_rejects_iff output _).mpr noOutput
    rw [rejected] at accepted
    cases accepted
  · intro rejects isOutput
    have noPlugin : kindAt stream.tokens 2 ≠ .plugin :=
      fun isPlugin => not_isOutput_of_plugin isPlugin isOutput
    exact (outputDecl_rejects_iff output _).mp (rejects noPlugin) isOutput
  · intro noOutput _
    exact (outputDecl_rejects_iff output _).mpr noOutput

theorem declarations_iff_alive :
    ((∃ bound, ∀ fuel, bound < fuel →
        eventDecl fuel { eventName := [], intervalMicros := 0, sources := [] }
            { lexer :=
                ({ tokens := eventTokens (bytes "sys.alive") [] ++ [] } :
                  TokenStream)
              config := {}
              garbage := 0 } =
          some (.ok
            { eventName := bytes "sys.alive"
              intervalMicros := 0
              sources := [] ++ [].map NamedValue.source },
            { lexer := { tokens := [] }
              config := {}
              garbage := 0 })) ↔ ([] : List NamedValue) = []) ∧
      ¬ outputDecl
            { pluginName := []
              pluginValue := []
              properties := { properties := [] } }
            { lexer := ({ tokens := outputTokens interval ++ [] } : TokenStream)
              config := {}
              garbage := 0 } =
          some (.ok
            { pluginName := interval.value
              pluginValue := interval.name
              properties := { properties := [] } },
            { lexer := { tokens := [] }
              config := {}
              garbage := 0 }) ∧
      ((kindAt [] 2 ≠ .plugin →
          ∃ error after,
            outputDecl
                { pluginName := []
                  pluginValue := []
                  properties := { properties := [] } }
                { lexer := ({ tokens := [] } : TokenStream)
                  config := {}
                  garbage := 0 } = some (.error error, after)) ↔
        ¬ IsOutput
            { lexer := ({ tokens := [] } : TokenStream)
              config := {}
              garbage := 0 }) :=
  declarations_iff (by decide) (bytes "sys.alive") []
    { eventName := [], intervalMicros := 0, sources := [] } interval
    { tokens := [] }
    { pluginName := [], pluginValue := [], properties := { properties := [] } }
    {} 0

/-- An event with a source is not read to its end. -/
theorem eventDecl_one_source :
    ¬ ∃ bound, ∀ fuel, bound < fuel →
      eventDecl fuel { eventName := [], intervalMicros := 0, sources := [] }
          { lexer :=
              ({ tokens := eventTokens (bytes "sys.alive") [interval] ++ [] } :
                TokenStream)
            config := {}
            garbage := 0 } =
        some (.ok
          { eventName := bytes "sys.alive"
            intervalMicros := 0
            sources := [] ++ [interval].map NamedValue.source },
          { lexer := { tokens := [] }
            config := {}
            garbage := 0 }) := by
  rintro ⟨bound, succeeds⟩
  have ran := succeeds (bound + 2) (by omega)
  exact absurd ran eventDecl_unread

end ConfigParser
end Config
end EvCollect
