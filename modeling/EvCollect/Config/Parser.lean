import EvCollect.Config.Lexer

/-!
# The parser of configuration files

`ConfigParser` over any source of tokens. A function of the parser maps its state
to its return code and the state it leaves, and is `none` if it does not return; a
loop has a bound on its passes.
-/

namespace EvCollect
namespace Config

/-- What a parser needs of a lexer. -/
class TokenSource (σ : Type) where
  currentToken : σ → ConfigToken
  stringValue : σ → Bytes
  nextToken : σ → σ
  currentContext : σ → Option Bytes

instance : TokenSource ConfigLexer where
  currentToken := ConfigLexer.currentToken
  stringValue := ConfigLexer.stringValue
  nextToken := ConfigLexer.nextToken
  currentContext := ConfigLexer.currentContext

/-- A list of tokens and their string values, with the end of the input behind
it. -/
structure TokenStream where
  tokens : List (ConfigToken × Bytes)
  deriving DecidableEq, Repr

instance : TokenSource TokenStream where
  currentToken := fun stream => (stream.tokens.head?.map Prod.fst).getD .eof
  stringValue := fun stream => (stream.tokens.head?.map Prod.snd).getD []
  nextToken := fun stream => { tokens := stream.tokens.tail }
  currentContext := fun _ => some []

structure ProcessConfig where
  eventBindings : List EventConfig := []
  targetBindings : List TargetConfig := []
  loadPlugins : List Bytes := []
  deriving DecidableEq, Repr

structure ConfigParser (σ : Type) where
  lexer : σ
  config : ProcessConfig := {}
  /-- What the member `interval_micros` of a new `EventConfig` holds, which is not
  initialized. -/
  garbage : UInt64 := 0
  deriving DecidableEq, Repr

/-- A function of the parser. -/
def Parse (σ α : Type) : Type :=
  ConfigParser σ → Option (Except Error α × ConfigParser σ)

namespace Parse

variable {σ α β : Type}

instance : Monad (Parse σ) where
  pure value := fun parser => some (.ok value, parser)
  bind first next := fun parser =>
    match first parser with
    | none => none
    | some (.error error, parser) => some (.error error, parser)
    | some (.ok value, parser) => next value parser

/-- Return an error. -/
def fail (code : String) (message : Bytes) : Parse σ α :=
  fun parser => some (ReturnCode.makeErrorf code message, parser)

/-- Do not return. -/
def diverge : Parse σ α :=
  fun _ => none

/-- Change the configuration that is being read. -/
def modifyConfig (change : ProcessConfig → ProcessConfig) : Parse σ Unit :=
  fun parser => some (.ok (), { parser with config := change parser.config })

/-- Only a part that succeeds goes on. -/
theorem bind_ok
    {first : Parse σ β}
    {next : β → Parse σ α}
    {parser after : ConfigParser σ}
    {value : α}
    (succeeded : (first >>= next) parser = some (.ok value, after)) :
    ∃ result middle, first parser = some (.ok result, middle) ∧
      next result middle = some (.ok value, after) := by
  change (match first parser with
    | none => none
    | some (Except.error error, parser) => some (Except.error error, parser)
    | some (Except.ok value, parser) => next value parser) = _ at succeeded
  split at succeeded
  · cases succeeded
  · cases succeeded
  next result middle ran => exact ⟨result, middle, ran, succeeded⟩

theorem bind_of_none
    {first : Parse σ β}
    {next : β → Parse σ α}
    {parser : ConfigParser σ}
    (diverged : first parser = none) :
    (first >>= next) parser = none := by
  change (match first parser with
    | none => none
    | some (Except.error error, parser) => some (Except.error error, parser)
    | some (Except.ok value, parser) => next value parser) = _
  rw [diverged]

/-- The next part begins where a part that succeeds has ended. -/
theorem bind_of_ok
    {first : Parse σ β}
    {next : β → Parse σ α}
    {parser middle : ConfigParser σ}
    {value : β}
    (succeeded : first parser = some (.ok value, middle)) :
    (first >>= next) parser = next value middle := by
  change (match first parser with
    | none => none
    | some (Except.error error, parser) => some (Except.error error, parser)
    | some (Except.ok value, parser) => next value parser) = _
  rw [succeeded]

/-- A part that fails is the last one. -/
theorem bind_of_error
    {first : Parse σ β}
    {next : β → Parse σ α}
    {parser middle : ConfigParser σ}
    {error : Error}
    (failed : first parser = some (.error error, middle)) :
    (first >>= next) parser = some (.error error, middle) := by
  change (match first parser with
    | none => none
    | some (Except.error error, parser) => some (Except.error error, parser)
    | some (Except.ok value, parser) => next value parser) = _
  rw [failed]

end Parse

namespace ConfigParser

variable {σ : Type} [TokenSource σ]

/-! ## Tokens -/

def currentToken : Parse σ ConfigToken :=
  fun parser => some (.ok (TokenSource.currentToken parser.lexer), parser)

def stringValue : Parse σ Bytes :=
  fun parser => some (.ok (TokenSource.stringValue parser.lexer), parser)

def nextToken : Parse σ Unit :=
  fun parser =>
    some (.ok (), { parser with lexer := TokenSource.nextToken parser.lexer })

/-- `StringUtil::toString` of a token. -/
def tokenText : ConfigToken → Bytes
  | .unknown => bytes "<UNKNOWN>"
  | .eof => bytes "<EOF>"
  | .end => bytes "<END>"
  | .name => bytes "<NAME>"
  | .value => bytes "<VALUE>"
  | .event => bytes "event"
  | .source => bytes "source"
  | .output => bytes "output"
  | .plugin => bytes "plugin"

/-- `ConfigParser::consumeToken`, which tests nothing. -/
def consumeToken (_expected : ConfigToken) : Parse σ Unit :=
  pure ()

/-- Take the string value of the current token, if it is of one of these kinds. -/
def consumeOneOf (kinds : List ConfigToken) : Parse σ Bytes := do
  if (← currentToken) ∈ kinds then
    let value ← stringValue
    nextToken
    return value
  else Parse.fail "Unexpected Token" (bytes "Expected PATH")

/-- `ConfigParser::consumeName`. -/
def consumeName : Parse σ Bytes :=
  consumeOneOf [.name]

/-- `ConfigParser::consumePath`. -/
def consumePath : Parse σ Bytes :=
  consumeOneOf [.name, .value]

/-- `ConfigParser::consumeValue`. -/
def consumeValue : Parse σ Bytes :=
  consumeOneOf [.name, .value]

/-- `ConfigParser::consumeEndOfLine`. -/
def consumeEndOfLine : Parse σ Unit := do
  if (← currentToken) = .end then nextToken
  else Parse.fail "Unexpected Token" (bytes "Expected end of line.")

/-- `ConfigParser::unexpectedToken`. -/
def unexpectedToken : Parse σ Unit := fun parser => do
  let context ← TokenSource.currentContext parser.lexer
  Parse.fail "Unepxected Token"
    (bytes "<" ++ cString context ++
      bytes ">: Expected \"event\" or \"output\", but got " ++
      tokenText (TokenSource.currentToken parser.lexer) ++ bytes ".") parser

/-- The parser behind the current token. -/
def advance (parser : ConfigParser σ) : ConfigParser σ :=
  { parser with lexer := TokenSource.nextToken parser.lexer }

theorem consumeOneOf_mem
    {kinds : List ConfigToken}
    {parser : ConfigParser σ}
    (member : TokenSource.currentToken parser.lexer ∈ kinds) :
    consumeOneOf kinds parser =
      some (.ok (TokenSource.stringValue parser.lexer), parser.advance) := by
  change (if TokenSource.currentToken parser.lexer ∈ kinds then _ else _ :
    Parse σ Bytes) parser = _
  rw [if_pos member]
  rfl

theorem consumeOneOf_not_mem
    {kinds : List ConfigToken}
    {parser : ConfigParser σ}
    (absent : TokenSource.currentToken parser.lexer ∉ kinds) :
    consumeOneOf kinds parser =
      some (ReturnCode.makeErrorf "Unexpected Token" (bytes "Expected PATH"),
        parser) := by
  change (if TokenSource.currentToken parser.lexer ∈ kinds then _ else _ :
    Parse σ Bytes) parser = _
  rw [if_neg absent]
  rfl

theorem consumeEndOfLine_end
    {parser : ConfigParser σ}
    (atEnd : TokenSource.currentToken parser.lexer = .end) :
    consumeEndOfLine parser = some (.ok (), parser.advance) := by
  change (if TokenSource.currentToken parser.lexer = .end then _ else _ :
    Parse σ Unit) parser = _
  rw [if_pos atEnd]
  rfl

theorem consumeEndOfLine_other
    {parser : ConfigParser σ}
    (other : TokenSource.currentToken parser.lexer ≠ .end) :
    consumeEndOfLine parser =
      some (ReturnCode.makeErrorf "Unexpected Token"
        (bytes "Expected end of line."), parser) := by
  change (if TokenSource.currentToken parser.lexer = .end then _ else _ :
    Parse σ Unit) parser = _
  rw [if_neg other]
  rfl

/-! ## Declarations -/

/-- `ConfigParser::propertyList`. -/
def propertyList : Nat → PropertyList → Parse σ PropertyList
  | 0, _ => Parse.diverge
  | fuel + 1, output => do
      if (← currentToken) = .name then
        let name ← stringValue
        let value ← consumeValue
        propertyList fuel
          { properties := output.properties ++ [(name, [value])] }
      else return output

/-- A pass takes the name for its own value. -/
theorem propertyList_name
    {parser : ConfigParser σ}
    (isName : TokenSource.currentToken parser.lexer = .name)
    (fuel : Nat)
    (output : PropertyList) :
    propertyList (fuel + 1) output parser =
      propertyList fuel
        { properties := output.properties ++
            [(TokenSource.stringValue parser.lexer,
              [TokenSource.stringValue parser.lexer])] } parser.advance := by
  change (if TokenSource.currentToken parser.lexer = .name then _ else _ :
    Parse σ PropertyList) parser = _
  rw [if_pos isName]
  have member : TokenSource.currentToken parser.lexer ∈
      [ConfigToken.name, .value] := by
    rw [isName]
    exact List.mem_cons_self
  exact Parse.bind_of_ok (consumeOneOf_mem member)

theorem propertyList_other
    {parser : ConfigParser σ}
    (other : TokenSource.currentToken parser.lexer ≠ .name)
    (fuel : Nat)
    (output : PropertyList) :
    propertyList (fuel + 1) output parser = some (.ok output, parser) := by
  change (if TokenSource.currentToken parser.lexer = .name then _ else _ :
    Parse σ PropertyList) parser = _
  rw [if_neg other]
  rfl

/-- `ConfigParser::applyEventProperties`, which only reports what it ignores to
the log. -/
def applyEventProperties
    (props : PropertyList)
    (output : EventConfig) : EventConfig :=
  props.properties.foldl (fun output prop =>
    if prop.1 = bytes "interval" then { output with intervalMicros := 1000000 }
    else output) output

/-- The loop of `eventDecl` over the sources. -/
def sourceDecls : Nat → EventConfig → Parse σ EventConfig
  | 0, _ => Parse.diverge
  | fuel + 1, event => do
      if (← currentToken) = .source then
        nextToken
        let pluginName ← consumeName
        let pluginValue ← consumeValue
        let properties ← propertyList fuel { properties := [] }
        sourceDecls fuel
          { event with
            sources := event.sources ++
              [{ pluginName := pluginName
                 pluginValue := pluginValue
                 properties := properties }] }
      else return event

theorem sourceDecls_source
    {parser : ConfigParser σ}
    (isSource : TokenSource.currentToken parser.lexer = .source)
    (fuel : Nat)
    (event : EventConfig) :
    sourceDecls (fuel + 1) event parser =
      (do
        let pluginName ← consumeName
        let pluginValue ← consumeValue
        let properties ← propertyList fuel { properties := [] }
        sourceDecls fuel
          { event with
            sources := event.sources ++
              [{ pluginName := pluginName
                 pluginValue := pluginValue
                 properties := properties }] } : Parse σ EventConfig)
        parser.advance := by
  change (if TokenSource.currentToken parser.lexer = .source then _ else _ :
    Parse σ EventConfig) parser = _
  rw [if_pos isSource]
  rfl

theorem sourceDecls_other
    {parser : ConfigParser σ}
    (other : TokenSource.currentToken parser.lexer ≠ .source)
    (fuel : Nat)
    (event : EventConfig) :
    sourceDecls (fuel + 1) event parser = some (.ok event, parser) := by
  change (if TokenSource.currentToken parser.lexer = .source then _ else _ :
    Parse σ EventConfig) parser = _
  rw [if_neg other]
  rfl

/-- `ConfigParser::eventDecl`. -/
def eventDecl (fuel : Nat) (event : EventConfig) : Parse σ EventConfig := do
  nextToken
  let eventName ← consumeName
  let eventProperties ← propertyList fuel { properties := [] }
  let event := applyEventProperties eventProperties
    { event with eventName := eventName }
  consumeEndOfLine
  sourceDecls fuel event

/-- `ConfigParser::outputDecl`. -/
def outputDecl (output : TargetConfig) : Parse σ TargetConfig := do
  nextToken
  let pluginValue ← consumeName
  consumeToken .plugin
  let pluginName ← consumePath
  consumeEndOfLine
  return { output with pluginValue := pluginValue, pluginName := pluginName }

/-- `ConfigParser::pluginDecl`. -/
def pluginDecl : Parse σ Unit := do
  nextToken
  let path ← consumePath
  consumeEndOfLine
  Parse.modifyConfig fun config =>
    { config with loadPlugins := config.loadPlugins ++ [path] }

/-! ## The whole file -/

/-- The first loop of `goal`. -/
def pluginDecls : Nat → Parse σ Unit
  | 0 => Parse.diverge
  | fuel + 1 => do
      if (← currentToken) = .plugin then
        pluginDecl
        pluginDecls fuel
      else return ()

theorem pluginDecls_plugin
    {parser : ConfigParser σ}
    (isPlugin : TokenSource.currentToken parser.lexer = .plugin)
    (fuel : Nat) :
    pluginDecls (fuel + 1) parser =
      (pluginDecl >>= fun _ => pluginDecls fuel : Parse σ Unit) parser := by
  change (if TokenSource.currentToken parser.lexer = .plugin then _ else _ :
    Parse σ Unit) parser = _
  rw [if_pos isPlugin]

theorem pluginDecls_other
    {parser : ConfigParser σ}
    (other : TokenSource.currentToken parser.lexer ≠ .plugin)
    (fuel : Nat) :
    pluginDecls (fuel + 1) parser = some (.ok (), parser) := by
  change (if TokenSource.currentToken parser.lexer = .plugin then _ else _ :
    Parse σ Unit) parser = _
  rw [if_neg other]
  rfl

/-- A new `EventConfig`. -/
def newEvent : Parse σ EventConfig :=
  fun parser =>
    some (.ok
      { eventName := []
        intervalMicros := parser.garbage
        sources := [] }, parser)

/-- The case `Output` of the switch in `goal`, which goes on with the default
case. -/
def outputCase : Parse σ Unit := do
  let output ← outputDecl
    { pluginName := [], pluginValue := [], properties := { properties := [] } }
  Parse.modifyConfig fun config =>
    { config with targetBindings := config.targetBindings ++ [output] }
  unexpectedToken

/-- The case `Event`, which goes on with the case `Output`. -/
def eventCase (fuel : Nat) : Parse σ Unit := do
  let event ← newEvent
  let event ← eventDecl fuel event
  Parse.modifyConfig fun config =>
    { config with eventBindings := config.eventBindings ++ [event] }
  outputCase

/-- `ConfigParser::goal`. Every pass of its second loop returns, as the cases of
the switch end with no `break`. -/
def goal (fuel : Nat) : Parse σ Unit := do
  pluginDecls fuel
  match ← currentToken with
  | .event => eventCase fuel
  | .output => outputCase
  | _ => unexpectedToken

/-- `ConfigParser::parse`. -/
def parse (fuel : Nat) : Parse σ Unit :=
  goal fuel

/-! ## Results -/

theorem unexpectedToken_ne_ok (parser after : ConfigParser σ) :
    unexpectedToken parser ≠ some (.ok (), after) := by
  intro succeeded
  obtain ⟨context, -, failed⟩ := Option.bind_eq_some_iff.mp succeeded
  cases failed

theorem outputCase_ne_ok (parser after : ConfigParser σ) :
    outputCase parser ≠ some (.ok (), after) := by
  intro succeeded
  obtain ⟨_, _, -, succeeded⟩ := Parse.bind_ok succeeded
  obtain ⟨_, _, -, succeeded⟩ := Parse.bind_ok succeeded
  exact unexpectedToken_ne_ok _ _ succeeded

theorem eventCase_ne_ok (fuel : Nat) (parser after : ConfigParser σ) :
    eventCase fuel parser ≠ some (.ok (), after) := by
  intro succeeded
  obtain ⟨_, _, -, succeeded⟩ := Parse.bind_ok succeeded
  obtain ⟨_, _, -, succeeded⟩ := Parse.bind_ok succeeded
  obtain ⟨_, _, -, succeeded⟩ := Parse.bind_ok succeeded
  exact outputCase_ne_ok _ _ succeeded

/-- No configuration file is read with success, as every way through the switch
in `goal` ends in its default case. -/
theorem parse_ne_ok
    (fuel : Nat)
    (parser after : ConfigParser σ) :
    parse fuel parser ≠ some (.ok (), after) := by
  intro succeeded
  obtain ⟨_, _, -, succeeded⟩ := Parse.bind_ok succeeded
  obtain ⟨token, middle, -, succeeded⟩ := Parse.bind_ok succeeded
  cases token with
  | event => exact eventCase_ne_ok fuel _ _ succeeded
  | output => exact outputCase_ne_ok _ _ succeeded
  | unknown => exact unexpectedToken_ne_ok _ _ succeeded
  | eof => exact unexpectedToken_ne_ok _ _ succeeded
  | «end» => exact unexpectedToken_ne_ok _ _ succeeded
  | name => exact unexpectedToken_ne_ok _ _ succeeded
  | value => exact unexpectedToken_ne_ok _ _ succeeded
  | source => exact unexpectedToken_ne_ok _ _ succeeded
  | plugin => exact unexpectedToken_ne_ok _ _ succeeded

/-- A plugin declaration and an event declaration. -/
def twoDeclarations : ConfigParser TokenStream :=
  { lexer :=
      { tokens :=
          [(.plugin, bytes "plugin"), (.name, bytes "hostname"),
            (.end, bytes "LF"), (.event, bytes "event"),
            (.name, bytes "sys.alive"), (.end, bytes "LF")] } }

/-- Each of them parses, up to the next one and up to the end, and yet the whole
does not. -/
theorem parse_twoDeclarations :
    ∃ next last event,
      pluginDecl twoDeclarations = some (.ok (), next) ∧
        TokenSource.currentToken next.lexer = .event ∧
        eventDecl 2
            { eventName := [], intervalMicros := 0, sources := [] } next =
          some (.ok event, last) ∧
        TokenSource.currentToken last.lexer = .eof ∧
        ¬ ∃ after, parse 2 twoDeclarations = some (.ok (), after) := by
  refine ⟨_, _, _, rfl, rfl, rfl, rfl, ?_⟩
  have failed : (parse 2 twoDeclarations).map (fun result =>
      ReturnCode.isSuccess result.1) = some false := by
    decide
  rintro ⟨after, succeeded⟩
  rw [succeeded] at failed
  cases failed

end ConfigParser

end Config
end EvCollect
