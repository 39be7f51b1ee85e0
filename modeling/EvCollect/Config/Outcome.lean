import EvCollect.Config.Positions

/-!
# What reading a file leaves

`parse` always fails. It has then read at most one event and one target, and
where it reports the position of an unexpected token, this is the position of what
has been read.
-/

namespace EvCollect
namespace Config

/-! ## How a part of the parser ends -/

namespace Parse

variable {σ α β : Type}

/-- If a part returns, what holds of its result and of the parser behind it. -/
def Ends
    (part : Parse σ α)
    (parser : ConfigParser σ)
    (Succeeds : α → ConfigParser σ → Prop)
    (Fails : Error → ConfigParser σ → Prop) : Prop :=
  ∀ result after, part parser = some (result, after) →
    match result with
    | .ok value => Succeeds value after
    | .error error => Fails error after

variable {parser : ConfigParser σ}
variable {Fails : Error → ConfigParser σ → Prop}

theorem Ends.of_ok
    {part : Parse σ α}
    {value : α}
    {after : ConfigParser σ}
    {Succeeds : α → ConfigParser σ → Prop}
    (ran : part parser = some (.ok value, after))
    (holds : Succeeds value after) : part.Ends parser Succeeds Fails := by
  intro result after' ran'
  cases ran.symm.trans ran'
  exact holds

theorem Ends.of_error
    {part : Parse σ α}
    {error : Error}
    {after : ConfigParser σ}
    {Succeeds : α → ConfigParser σ → Prop}
    (ran : part parser = some (.error error, after))
    (holds : Fails error after) : part.Ends parser Succeeds Fails := by
  intro result after' ran'
  cases ran.symm.trans ran'
  exact holds

theorem Ends.bind
    {first : Parse σ β}
    {next : β → Parse σ α}
    {Middle : β → ConfigParser σ → Prop}
    {Succeeds : α → ConfigParser σ → Prop}
    (begins : first.Ends parser Middle Fails)
    (goesOn : ∀ value middle, Middle value middle →
      (next value).Ends middle Succeeds Fails) :
    (first >>= next).Ends parser Succeeds Fails := by
  intro result after ran
  cases started : first parser with
  | none =>
      rw [bind_of_none started] at ran
      cases ran
  | some pair =>
      obtain ⟨outcome, middle⟩ := pair
      have holds := begins outcome middle started
      cases outcome with
      | ok value =>
          rw [bind_of_ok started] at ran
          exact goesOn value middle holds result after ran
      | error error =>
          rw [bind_of_error started] at ran
          cases ran
          exact holds

/-- What one part does, another one does. -/
theorem Ends.of_eq
    {part other : Parse σ α}
    {middle : ConfigParser σ}
    {Succeeds : α → ConfigParser σ → Prop}
    (same : part parser = other middle)
    (ends : other.Ends middle Succeeds Fails) :
    part.Ends parser Succeeds Fails :=
  fun result after ran => ends result after (same.symm.trans ran)

/-- A first part that is known to succeed. -/
theorem Ends.bind_ok
    {first : Parse σ β}
    {next : β → Parse σ α}
    {value : β}
    {middle : ConfigParser σ}
    {Succeeds : α → ConfigParser σ → Prop}
    (succeeds : first parser = some (.ok value, middle))
    (goesOn : (next value).Ends middle Succeeds Fails) :
    (first >>= next).Ends parser Succeeds Fails :=
  .of_eq (bind_of_ok succeeds) goesOn

theorem Ends.imp
    {part : Parse σ α}
    {Succeeds Succeeds' : α → ConfigParser σ → Prop}
    {Fails' : Error → ConfigParser σ → Prop}
    (ends : part.Ends parser Succeeds Fails)
    (succeeds : ∀ value after, Succeeds value after → Succeeds' value after)
    (fails : ∀ error after, Fails error after → Fails' error after) :
    part.Ends parser Succeeds' Fails' := by
  intro result after ran
  have holds := ends result after ran
  cases result with
  | ok value => exact succeeds value after holds
  | error error => exact fails error after holds

/-- Only of a failure something else is said. -/
theorem Ends.fails
    {part : Parse σ α}
    {Succeeds : α → ConfigParser σ → Prop}
    {Fails' : Error → ConfigParser σ → Prop}
    (ends : part.Ends parser Succeeds Fails)
    (weaker : ∀ error after, Fails error after → Fails' error after) :
    part.Ends parser Succeeds Fails' :=
  ends.imp (fun _ _ holds => holds) weaker

theorem fail_of_le
    {message : Bytes}
    (short : message.length ≤ 1024)
    (code : String)
    (parser : ConfigParser σ) :
    (fail code message : Parse σ α) parser =
      some (.error { code := bytes code, message := message }, parser) := by
  rw [fail, ReturnCode.makeErrorf, ReturnCode.boundedText_of_le short]

end Parse

/-! ## Parts that only read -/

/-- The errors without a position. -/
def IsSyntaxError (error : Error) : Prop :=
  error.code = bytes "Unexpected Token" ∧
    (error.message = bytes "Expected PATH" ∨
      error.message = bytes "Expected end of line.")

namespace ConfigParser

section Reads

variable {σ α β : Type}
variable {Fine : σ → Prop}

/-- A part that leaves the configuration as it is. -/
def Reads (Fine : σ → Prop) (part : Parse σ α) : Prop :=
  ∀ parser, Fine parser.lexer →
    part.Ends parser
      (fun _ after => after.config = parser.config ∧ Fine after.lexer)
      (fun error after => IsSyntaxError error ∧ after.config = parser.config)

theorem Reads.bind
    {first : Parse σ β}
    {next : β → Parse σ α}
    (begins : Reads Fine first)
    (goesOn : ∀ value, Reads Fine (next value)) : Reads Fine (first >>= next) := by
  intro parser fine
  refine (begins parser fine).bind fun value middle ⟨same, still⟩ => ?_
  rw [← same]
  exact goesOn value middle still

/-- A part that only reads, and what comes behind it. -/
theorem Reads.ends
    {first : Parse σ β}
    {next : β → Parse σ α}
    {parser : ConfigParser σ}
    {Succeeds : α → ConfigParser σ → Prop}
    {Fails : Error → ConfigParser σ → Prop}
    (begins : Reads Fine first)
    (here : Fine parser.lexer)
    (fails : ∀ error after, IsSyntaxError error → after.config = parser.config →
      Fails error after)
    (goesOn : ∀ value middle, middle.config = parser.config → Fine middle.lexer →
      (next value).Ends middle Succeeds Fails) :
    (first >>= next).Ends parser Succeeds Fails := by
  have started := (begins parser here).fails
    fun error after holds => fails error after holds.1 holds.2
  exact started.bind fun value middle holds =>
    goesOn value middle holds.1 holds.2

theorem reads_pure (value : α) : Reads Fine (pure value : Parse σ α) :=
  fun _ fine => .of_ok rfl ⟨rfl, fine⟩

variable [TokenSource σ]
variable (fine : ∀ source : σ, Fine source → Fine (TokenSource.nextToken source))

include fine

theorem reads_nextToken : Reads Fine (nextToken : Parse σ Unit) :=
  fun _ here => .of_ok rfl ⟨rfl, fine _ here⟩

theorem reads_consumeOneOf (kinds : List ConfigToken) :
    Reads Fine (consumeOneOf kinds : Parse σ Bytes) := by
  intro parser here
  by_cases member : TokenSource.currentToken parser.lexer ∈ kinds
  · exact .of_ok (consumeOneOf_mem member) ⟨rfl, fine _ here⟩
  · exact .of_error (consumeOneOf_not_mem member)
      ⟨⟨rfl, .inl (by decide)⟩, rfl⟩

theorem reads_consumeEndOfLine :
    Reads Fine (consumeEndOfLine : Parse σ Unit) := by
  intro parser here
  by_cases atEnd : TokenSource.currentToken parser.lexer = .end
  · exact .of_ok (consumeEndOfLine_end atEnd) ⟨rfl, fine _ here⟩
  · exact .of_error (consumeEndOfLine_other atEnd)
      ⟨⟨rfl, .inr (by decide)⟩, rfl⟩

theorem reads_propertyList (fuel : Nat) (output : PropertyList) :
    Reads Fine (propertyList fuel output : Parse σ PropertyList) := by
  induction fuel generalizing output with
  | zero =>
      intro parser _ result after ran
      cases ran
  | succ fuel inductionHypothesis =>
      intro parser here
      by_cases isName : TokenSource.currentToken parser.lexer = .name
      · exact .of_eq (propertyList_name isName fuel output)
          (inductionHypothesis _ parser.advance (fine _ here))
      · exact .of_ok (propertyList_other isName fuel output) ⟨rfl, here⟩

theorem reads_sourceDecls (fuel : Nat) (event : EventConfig) :
    Reads Fine (sourceDecls fuel event : Parse σ EventConfig) := by
  induction fuel generalizing event with
  | zero =>
      intro parser _ result after ran
      cases ran
  | succ fuel inductionHypothesis =>
      intro parser here
      by_cases isSource : TokenSource.currentToken parser.lexer = .source
      · have rest := (reads_consumeOneOf fine [.name]).bind fun pluginName =>
          (reads_consumeOneOf fine [.name, .value]).bind fun pluginValue =>
            (reads_propertyList fine fuel { properties := [] }).bind
              fun properties => inductionHypothesis
                { event with
                  sources := event.sources ++
                    [{ pluginName := pluginName
                       pluginValue := pluginValue
                       properties := properties }] }
        exact .of_eq (sourceDecls_source isSource fuel event)
          (rest parser.advance (fine _ here))
      · exact .of_ok (sourceDecls_other isSource fuel event) ⟨rfl, here⟩

theorem reads_eventDecl (fuel : Nat) (event : EventConfig) :
    Reads Fine (eventDecl fuel event : Parse σ EventConfig) :=
  (reads_nextToken fine).bind fun _ =>
    (reads_consumeOneOf fine [.name]).bind fun _ =>
      (reads_propertyList fine fuel { properties := [] }).bind fun _ =>
        (reads_consumeEndOfLine fine).bind fun _ =>
          reads_sourceDecls fine fuel _

theorem reads_outputDecl (output : TargetConfig) :
    Reads Fine (outputDecl output : Parse σ TargetConfig) :=
  (reads_nextToken fine).bind fun _ =>
    (reads_consumeOneOf fine [.name]).bind fun _ =>
      (reads_pure ()).bind fun _ =>
        (reads_consumeOneOf fine [.name, .value]).bind fun _ =>
          (reads_consumeEndOfLine fine).bind fun _ => reads_pure _

end Reads

end ConfigParser

/-! ## What is kept -/

/-- A configuration with these declarations behind its own. -/
def ProcessConfig.add
    (config : ProcessConfig)
    (plugins : List Bytes)
    (events : List EventConfig)
    (targets : List TargetConfig) : ProcessConfig where
  eventBindings := config.eventBindings ++ events
  targetBindings := config.targetBindings ++ targets
  loadPlugins := config.loadPlugins ++ plugins

theorem ProcessConfig.add_nil (config : ProcessConfig) :
    config.add [] [] [] = config := by
  simp [add]

theorem ProcessConfig.add_add
    (config : ProcessConfig)
    (plugins more : List Bytes)
    (events moreEvents : List EventConfig)
    (targets moreTargets : List TargetConfig) :
    (config.add plugins events targets).add more moreEvents moreTargets =
      config.add (plugins ++ more) (events ++ moreEvents)
        (targets ++ moreTargets) := by
  simp [add]

/-- How a call that fails has ended, and what it has added to a configuration
before. -/
inductive Stopped
    {σ : Type}
    (At : Error → σ → Prop)
    (before : ProcessConfig)
    (error : Error)
    (after : ConfigParser σ) : Prop where
  /-- In a declaration, of which nothing is kept: an event can come before it. -/
  | declaration
      (plugins : List Bytes)
      (events : List EventConfig)
      (one : events.length ≤ 1)
      (isSyntaxError : IsSyntaxError error)
      (config : after.config = before.add plugins events [])
  /-- At a token, behind the output that every event needs. -/
  | token
      (plugins : List Bytes)
      (events : List EventConfig)
      (targets : List TargetConfig)
      (paired : events.length ≤ targets.length)
      (one : targets.length ≤ 1)
      (place : At error after.lexer)
      (config : after.config = before.add plugins events targets)

/-- The plugins come before everything else. -/
theorem Stopped.behind
    {σ : Type}
    {At : Error → σ → Prop}
    {before : ProcessConfig}
    {error : Error}
    {after : ConfigParser σ}
    {plugins : List Bytes}
    (stopped : Stopped At (before.add plugins [] []) error after) :
    Stopped At before error after := by
  cases stopped with
  | declaration more events one isSyntaxError config =>
      refine .declaration (plugins ++ more) events one isSyntaxError ?_
      rw [config, ProcessConfig.add_add, List.nil_append, List.nil_append]
  | token more events targets paired one place config =>
      refine .token (plugins ++ more) events targets paired one place ?_
      rw [config, ProcessConfig.add_add, List.nil_append, List.nil_append]

namespace ConfigParser

section Goal

variable {σ : Type} [TokenSource σ]
variable {Fine : σ → Prop}
variable (fine : ∀ source : σ, Fine source → Fine (TokenSource.nextToken source))

include fine

theorem pluginDecl_ends
    {parser : ConfigParser σ}
    (here : Fine parser.lexer) :
    (pluginDecl : Parse σ Unit).Ends parser
      (fun _ after =>
        (∃ path, after.config = parser.config.add [path] [] []) ∧
          Fine after.lexer)
      (fun error after => IsSyntaxError error ∧ after.config = parser.config) := by
  -- Nothing is kept of a declaration until its line has ended.
  have failed : ∀ middle : ConfigParser σ, middle.config = parser.config →
      ∀ error (after : ConfigParser σ), IsSyntaxError error →
        after.config = middle.config →
          IsSyntaxError error ∧ after.config = parser.config :=
    fun _ same _ _ isSyntaxError kept => ⟨isSyntaxError, kept.trans same⟩
  refine (reads_nextToken fine).ends here (failed _ rfl)
    fun _ begun sameBegun there => ?_
  refine (reads_consumeOneOf fine [.name, .value]).ends there (failed _ sameBegun)
    fun path named sameNamed there => ?_
  refine (reads_consumeEndOfLine fine).ends there
    (failed _ (sameNamed.trans sameBegun)) fun _ ended sameEnded there => ?_
  refine .of_ok rfl ⟨⟨path, ?_⟩, there⟩
  rw [sameEnded.trans (sameNamed.trans sameBegun)]
  simp [ProcessConfig.add]

theorem pluginDecls_ends
    (fuel : Nat)
    {parser : ConfigParser σ}
    (here : Fine parser.lexer) :
    (pluginDecls fuel : Parse σ Unit).Ends parser
      (fun _ after =>
        (∃ plugins, after.config = parser.config.add plugins [] []) ∧
          Fine after.lexer)
      (fun error after => IsSyntaxError error ∧
        ∃ plugins, after.config = parser.config.add plugins [] []) := by
  induction fuel generalizing parser with
  | zero =>
      intro result after ran
      cases ran
  | succ fuel inductionHypothesis =>
      by_cases isPlugin : TokenSource.currentToken parser.lexer = .plugin
      · refine .of_eq (pluginDecls_plugin isPlugin fuel) ?_
        have declared := (pluginDecl_ends fine here).fails
          fun error after holds =>
            (⟨holds.1, [], holds.2.trans (ProcessConfig.add_nil _).symm⟩ :
              IsSyntaxError error ∧
                ∃ plugins, after.config = parser.config.add plugins [] [])
        refine declared.bind fun _ middle holds => ?_
        obtain ⟨⟨path, isMiddle⟩, there⟩ := holds
        have added : ∀ plugins, middle.config.add plugins [] [] =
            parser.config.add (path :: plugins) [] [] := fun plugins => by
          rw [isMiddle, ProcessConfig.add_add]
          rfl
        exact (inductionHypothesis there).imp
          (fun _ after ⟨⟨plugins, isAfter⟩, fine⟩ =>
            ⟨⟨path :: plugins, isAfter.trans (added plugins)⟩, fine⟩)
          (fun _ after ⟨isSyntaxError, plugins, isAfter⟩ =>
            ⟨isSyntaxError, path :: plugins, isAfter.trans (added plugins)⟩)
      · exact .of_ok (pluginDecls_other isPlugin fuel)
          ⟨⟨[], (ProcessConfig.add_nil _).symm⟩, here⟩

variable {At : Error → σ → Prop}
variable (unexpected : ∀ parser : ConfigParser σ, Fine parser.lexer →
  (unexpectedToken : Parse σ Unit).Ends parser (fun _ _ => False)
    (fun error after => At error after.lexer ∧ after.config = parser.config))

include unexpected

theorem outputCase_ends
    {parser : ConfigParser σ}
    (here : Fine parser.lexer) :
    (outputCase : Parse σ Unit).Ends parser (fun _ _ => False)
      (fun error after =>
        (IsSyntaxError error ∧ after.config = parser.config) ∨
          At error after.lexer ∧
            ∃ target, after.config = parser.config.add [] [] [target]) := by
  refine (reads_outputDecl fine _).ends here
    (fun _ _ isSyntaxError kept => .inl ⟨isSyntaxError, kept⟩)
    fun target declared same there => ?_
  have keeps : Parse.modifyConfig (fun config =>
        { config with targetBindings := config.targetBindings ++ [target] })
      declared =
        some (.ok (),
          { declared with config := parser.config.add [] [] [target] }) := by
    rw [← same]
    simp [Parse.modifyConfig, ProcessConfig.add]
  refine .bind_ok keeps ?_
  have stops := unexpected
    { declared with config := parser.config.add [] [] [target] } there
  refine stops.fails fun error after ends => ?_
  exact .inr ⟨ends.1, target, ends.2⟩

/-- An event is kept once its declaration has ended, and then needs an output. -/
theorem eventCase_ends
    (fuel : Nat)
    {parser : ConfigParser σ}
    (here : Fine parser.lexer) :
    (eventCase fuel : Parse σ Unit).Ends parser (fun _ _ => False)
      (Stopped At parser.config) := by
  refine .bind_ok rfl ?_
  refine (reads_eventDecl fine fuel _).ends here
    (fun _ _ isSyntaxError kept => .declaration [] [] (Nat.zero_le 1) isSyntaxError
      (kept.trans (ProcessConfig.add_nil _).symm))
    fun event declared same there => ?_
  have keeps : Parse.modifyConfig (fun config =>
        { config with eventBindings := config.eventBindings ++ [event] })
      declared =
        some (.ok (),
          { declared with config := parser.config.add [] [event] [] }) := by
    rw [← same]
    simp [Parse.modifyConfig, ProcessConfig.add]
  refine .bind_ok keeps ?_
  have output := outputCase_ends fine unexpected
    (show Fine ({ declared with
      config := parser.config.add [] [event] [] } : ConfigParser σ).lexer from there)
  refine output.fails fun error after stopped => ?_
  obtain ⟨isSyntaxError, kept⟩ | ⟨place, target, kept⟩ := stopped
  · exact .declaration [] [event] (Nat.le_refl 1) isSyntaxError kept
  · refine .token [] [event] [target] (Nat.le_refl 1) (Nat.le_refl 1) place ?_
    rw [kept, ProcessConfig.add_add]
    rfl

theorem goal_ends
    (fuel : Nat)
    {parser : ConfigParser σ}
    (here : Fine parser.lexer) :
    (goal fuel : Parse σ Unit).Ends parser (fun _ _ => False)
      (Stopped At parser.config) := by
  have plugins := (pluginDecls_ends fine fuel here).fails
    fun error after ⟨isSyntaxError, plugins, kept⟩ =>
      (.declaration plugins [] (Nat.zero_le 1) isSyntaxError kept :
        Stopped At parser.config error after)
  refine plugins.bind fun _ middle ⟨⟨plugins, isMiddle⟩, there⟩ => ?_
  have atToken := (unexpected middle there).fails
    fun error after ⟨place, kept⟩ =>
      Stopped.token plugins [] [] (Nat.le_refl 0) (Nat.zero_le 1) place
        (kept.trans isMiddle)
  refine .bind_ok rfl ?_
  cases TokenSource.currentToken middle.lexer with
  | event =>
      refine (eventCase_ends fine unexpected fuel there).fails
        fun error after stopped => ?_
      rw [isMiddle] at stopped
      exact stopped.behind
  | output =>
      refine (outputCase_ends fine unexpected there).fails
        fun error after stopped => ?_
      obtain ⟨isSyntaxError, kept⟩ | ⟨place, target, kept⟩ := stopped
      · exact .declaration plugins [] (Nat.zero_le 1) isSyntaxError
          (kept.trans isMiddle)
      · refine .token plugins [] [target] (Nat.zero_le 1) (Nat.le_refl 1) place ?_
        rw [kept, isMiddle, ProcessConfig.add_add, List.append_nil]
        rfl
  | unknown => exact atToken
  | eof => exact atToken
  | «end» => exact atToken
  | name => exact atToken
  | value => exact atToken
  | source => exact atToken
  | plugin => exact atToken

end Goal

end ConfigParser

/-! ## The lexer -/

section Lexer

variable {label config : Bytes}

/-- What is reported of a token behind a text, or one column behind it. -/
def unexpectedTokenError
    (label read : Bytes)
    (ahead : Nat)
    (token : ConfigToken) : Error where
  code := bytes "Unepxected Token"
  message :=
    bytes "<" ++ contextText label (lineNr read) (column read + ahead) ++
      bytes ">: Expected \"event\" or \"output\", but got " ++
      ConfigParser.tokenText token ++ bytes "."

/-- An error that names the current token and the position of a lexer. -/
def NamesToken
    (label config : Bytes)
    (error : Error)
    (lexer : ConfigLexer) : Prop :=
  ∃ read ahead, config = read ++ lexer.rest ∧ ahead ≤ 1 ∧
    (ahead = 1 → lexer.rest = []) ∧
    error = unexpectedTokenError label read ahead lexer.currentToken

theorem length_tokenText_le (token : ConfigToken) :
    (ConfigParser.tokenText token).length ≤ 9 := by
  cases token <;> decide

theorem unexpectedToken_names
    (plain : 0x24 ∉ label)
    (noZero : 0 ∉ label)
    (short : label.length ≤ 900)
    (fits : config.length + 2 < 2 ^ 31)
    (parser : ConfigParser ConfigLexer)
    (position : Position label config parser.lexer) :
    (ConfigParser.unexpectedToken : Parse ConfigLexer Unit).Ends parser
      (fun _ _ => False)
      (fun error after => NamesToken label config error after.lexer ∧
        after.config = parser.config) := by
  obtain ⟨read, ahead, isRead, aheadLe, ended, smallLine, smallColumn, context⟩ :=
    position.currentContext plain short fits
  have token := length_tokenText_le parser.lexer.currentToken
  have contextLength := length_contextText_le short smallLine smallColumn
  have literals : (bytes "<").length = 1 ∧ (bytes ".").length = 1 ∧
      (bytes ">: Expected \"event\" or \"output\", but got ").length = 41 := by
    decide
  have message : (unexpectedTokenError label read ahead
      parser.lexer.currentToken).message.length ≤ 1024 := by
    simp only [unexpectedTokenError, List.length_append, literals]
    omega
  have kept : cString (contextText label (lineNr read) (column read + ahead)) =
      contextText label (lineNr read) (column read + ahead) :=
    cString_eq_self (zero_not_mem_contextText noZero _ _)
  have ran : ConfigParser.unexpectedToken parser = some (.error
      (unexpectedTokenError label read ahead parser.lexer.currentToken),
      parser) := by
    have known : TokenSource.currentContext parser.lexer = _ := context
    rw [ConfigParser.unexpectedToken, known, Option.bind_eq_bind, Option.bind_some,
      kept]
    exact Parse.fail_of_le message "Unepxected Token" parser
  exact .of_error ran ⟨⟨read, ahead, isRead, aheadLe, ended, rfl⟩, rfl⟩

/-- No text is read with success. The parser stops in a declaration, or at a token
whose position it reports, behind at most one event and one output. -/
theorem parse_stopped
    (label config : Bytes)
    (result : ProcessConfig)
    (garbage : UInt64)
    (plain : 0x24 ∉ label)
    (noZero : 0 ∉ label)
    (short : label.length ≤ 900)
    (fits : config.length + 2 < 2 ^ 31) :
    ∃ error after,
      (∀ fuel, config.length + 1 < fuel →
        ConfigParser.parse fuel
            { lexer := ConfigLexer.create label config
              config := result
              garbage := garbage } = some (.error error, after)) ∧
        Stopped (NamesToken label config) result error after := by
  obtain ⟨outcome, after, returned, -⟩ := ConfigLexer.runsDry.parse_halts
    (within_create config result garbage
      (Nat.lt_of_le_of_lt short (show 900 < 2 ^ 20 by decide)))
  have position : Position label config (ConfigLexer.create label config) := by
    rw [ConfigLexer.create_eq_nextToken]
    exact (Position.initial label config).nextChar.nextToken
  have ends := ConfigParser.goal_ends (fun _ here => here.nextToken)
    (unexpectedToken_names plain noZero short fits) (config.length + 2)
    (show Position label config ({ lexer := ConfigLexer.create label config
                                   config := result
                                   garbage := garbage } :
      ConfigParser ConfigLexer).lexer from position)
  have holds := ends outcome after (returned (config.length + 2) (by omega))
  cases outcome with
  | ok value => exact absurd holds not_false
  | error error => exact ⟨error, after, returned, holds⟩

theorem parse_stopped_event :
    ∃ error after,
      (∀ fuel, (bytes "plugin hostname\nevent sys.alive\n").length + 1 < fuel →
        ConfigParser.parse fuel
            { lexer := ConfigLexer.create (bytes "evcollect.conf")
                (bytes "plugin hostname\nevent sys.alive\n")
              config := {}
              garbage := 0 } = some (.error error, after)) ∧
        Stopped (NamesToken (bytes "evcollect.conf")
          (bytes "plugin hostname\nevent sys.alive\n")) {} error after :=
  parse_stopped (bytes "evcollect.conf") (bytes "plugin hostname\nevent sys.alive\n")
    {} 0 (by decide) (by decide) (by decide) (by decide)

end Lexer

end Config
end EvCollect
