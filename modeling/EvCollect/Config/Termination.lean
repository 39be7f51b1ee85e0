import EvCollect.Config.Parser
import EvCollect.Config.Progress
import EvCollect.Util.Format

/-!
# Termination of the parser

A source of tokens runs dry if each of its tokens, apart from an unknown one and
from the end of the input, brings it nearer to its end. On such a source every
loop of the parser returns, as it is left on just these two tokens. The lexer is
such a source: it has consumed a character for any other token.
-/

namespace EvCollect
namespace Config

/-- A measure on the states of a source that its tokens decrease, and a property
that all of its states have. -/
structure RunsDry
    (σ : Type)
    [TokenSource σ]
    (size : σ → Nat)
    (Fine : σ → Prop) : Prop where
  fine : ∀ {source : σ}, Fine source → Fine (TokenSource.nextToken source)
  less : ∀ {source : σ}, Fine source →
    TokenSource.currentToken source ≠ .unknown →
    TokenSource.currentToken source ≠ .eof →
    size (TokenSource.nextToken source) < size source
  context : ∀ {source : σ}, Fine source →
    ∃ context, TokenSource.currentContext source = some context

/-! ## Parts that return -/

/-- With more fuel than a bound a part returns, whatever the fuel, and if it
succeeds it leaves a parser of some kind. -/
def Halts
    {σ α : Type}
    (bound : Nat)
    (part : Nat → Parse σ α)
    (parser : ConfigParser σ)
    (After : ConfigParser σ → Prop) : Prop :=
  ∃ result after,
    (∀ fuel, bound < fuel → part fuel parser = some (result, after)) ∧
      ∀ value, result = .ok value → After after

namespace Halts

variable {σ α β : Type}
variable {bound : Nat}
variable {parser : ConfigParser σ}
variable {Middle After : ConfigParser σ → Prop}

theorem of_ok
    {part : Nat → Parse σ α}
    {value : α}
    {after : ConfigParser σ}
    (succeeds : ∀ fuel, bound < fuel →
      part fuel parser = some (.ok value, after))
    (holds : After after) : Halts bound part parser After :=
  ⟨.ok value, after, succeeds, fun _ _ => holds⟩

theorem of_error
    {part : Nat → Parse σ α}
    {error : Error}
    {after : ConfigParser σ}
    (fails : ∀ fuel, bound < fuel →
      part fuel parser = some (.error error, after)) :
    Halts bound part parser After :=
  ⟨.error error, after, fails, fun _ equal => by cases equal⟩

/-- One part after the other. -/
theorem bind
    {first : Nat → Parse σ β}
    {next : Nat → β → Parse σ α}
    (begins : Halts bound first parser Middle)
    (goesOn : ∀ value middle, Middle middle →
      Halts bound (fun fuel => next fuel value) middle After) :
    Halts bound (fun fuel => first fuel >>= next fuel) parser After := by
  obtain ⟨result, middle, returned, holds⟩ := begins
  cases result with
  | error error =>
      exact of_error fun fuel enough => Parse.bind_of_error (returned fuel enough)
  | ok value =>
      obtain ⟨result, after, returnedThen, holdsThen⟩ :=
        goesOn value middle (holds value rfl)
      refine ⟨result, after, fun fuel enough => ?_, holdsThen⟩
      dsimp only
      rw [Parse.bind_of_ok (returned fuel enough)]
      exact returnedThen fuel enough

/-- A first part that is known to succeed. -/
theorem bind_ok
    {first : Parse σ β}
    {next : Nat → β → Parse σ α}
    {value : β}
    {middle : ConfigParser σ}
    (succeeds : first parser = some (.ok value, middle))
    (goesOn : Halts bound (fun fuel => next fuel value) middle After) :
    Halts bound (fun fuel => first >>= next fuel) parser After := by
  obtain ⟨result, after, returned, holds⟩ := goesOn
  refine ⟨result, after, fun fuel enough => ?_, holds⟩
  rw [← returned fuel enough]
  exact Parse.bind_of_ok succeeds

theorem mono
    {part : Nat → Parse σ α}
    (begins : Halts bound part parser Middle)
    (weaker : ∀ after, Middle after → After after) :
    Halts bound part parser After := by
  obtain ⟨result, after, returned, holds⟩ := begins
  exact ⟨result, after, returned, fun value ok => weaker after (holds value ok)⟩

/-- A pass of a loop takes one unit of fuel. -/
theorem pass
    {loop rest : Nat → Parse σ α}
    {middle : ConfigParser σ}
    (unfolds : ∀ fuel, loop (fuel + 1) parser = rest fuel middle)
    (halts : Halts bound rest middle After) :
    Halts (bound + 1) loop parser After := by
  obtain ⟨result, after, returned, holds⟩ := halts
  refine ⟨result, after, fun fuel enough => ?_, holds⟩
  cases fuel with
  | zero => exact absurd enough (Nat.not_lt_zero _)
  | succ fuel =>
      rw [unfolds]
      exact returned fuel (Nat.lt_of_succ_lt_succ enough)

/-- The last pass of a loop. -/
theorem last
    {loop : Nat → Parse σ α}
    {value : α}
    {after : ConfigParser σ}
    (ends : ∀ fuel, loop (fuel + 1) parser = some (.ok value, after))
    (holds : After after) : Halts bound loop parser After := by
  refine ⟨.ok value, after, fun fuel enough => ?_, fun _ _ => holds⟩
  cases fuel with
  | zero => exact absurd enough (Nat.not_lt_zero _)
  | succ fuel => exact ends fuel

end Halts

/-! ## The functions of the parser -/

/-- The source of a parser is fine, and smaller than a limit. -/
def Within
    {σ : Type}
    (size : σ → Nat)
    (Fine : σ → Prop)
    (limit : Nat)
    (parser : ConfigParser σ) : Prop :=
  Fine parser.lexer ∧ size parser.lexer < limit

theorem Within.mono
    {σ : Type}
    {size : σ → Nat}
    {Fine : σ → Prop}
    {limit above : Nat}
    {parser : ConfigParser σ}
    (within : Within size Fine limit parser)
    (below : limit ≤ above) : Within size Fine above parser :=
  ⟨within.1, Nat.lt_of_lt_of_le within.2 below⟩

namespace RunsDry

open ConfigParser

variable {σ : Type} [TokenSource σ]
variable {size : σ → Nat}
variable {Fine : σ → Prop}
variable {bound limit : Nat}
variable {parser : ConfigParser σ}

/-- A token that is neither unknown nor the end of the input brings the end
nearer. -/
theorem advance
    (dry : RunsDry σ size Fine)
    (within : Within size Fine (limit + 1) parser)
    (known : TokenSource.currentToken parser.lexer ≠ .unknown)
    (more : TokenSource.currentToken parser.lexer ≠ .eof) :
    Within size Fine limit parser.advance :=
  ⟨dry.fine within.1,
    Nat.lt_of_lt_of_le (dry.less within.1 known more)
      (Nat.le_of_lt_succ within.2)⟩

theorem consumeOneOf_halts
    (dry : RunsDry σ size Fine)
    (kinds : List ConfigToken)
    (known : .unknown ∉ kinds)
    (more : .eof ∉ kinds)
    (within : Within size Fine (limit + 1) parser) :
    Halts bound (fun _ => consumeOneOf kinds) parser
      (Within size Fine limit) := by
  by_cases member : TokenSource.currentToken parser.lexer ∈ kinds
  · exact .of_ok (fun _ _ => consumeOneOf_mem member) (dry.advance within
      (fun equal => known (equal ▸ member)) (fun equal => more (equal ▸ member)))
  · exact .of_error fun _ _ => consumeOneOf_not_mem member

theorem consumeEndOfLine_halts
    (dry : RunsDry σ size Fine)
    (within : Within size Fine (limit + 1) parser) :
    Halts bound (fun _ => consumeEndOfLine) parser
      (Within size Fine limit) := by
  by_cases atEnd : TokenSource.currentToken parser.lexer = .end
  · exact .of_ok (fun _ _ => consumeEndOfLine_end atEnd)
      (dry.advance within (by simp [atEnd]) (by simp [atEnd]))
  · exact .of_error fun _ _ => consumeEndOfLine_other atEnd

theorem propertyList_halts
    (dry : RunsDry σ size Fine)
    (output : PropertyList)
    (fits : limit ≤ bound)
    (within : Within size Fine limit parser) :
    Halts bound (fun fuel => propertyList fuel output) parser
      (Within size Fine limit) := by
  induction bound generalizing limit parser output with
  | zero => exact absurd within.2 (by omega)
  | succ bound inductionHypothesis =>
      by_cases isName : TokenSource.currentToken parser.lexer = .name
      · cases limit with
        | zero => exact absurd within.2 (Nat.not_lt_zero _)
        | succ limit =>
            have here := dry.advance within (by simp [isName]) (by simp [isName])
            exact (Halts.pass (fun fuel => propertyList_name isName fuel output)
              (inductionHypothesis _ (Nat.le_of_succ_le_succ fits) here)).mono
                fun _ after => after.mono (Nat.le_succ limit)
      · exact .last (fun fuel => propertyList_other isName fuel output) within

theorem sourceDecls_halts
    (dry : RunsDry σ size Fine)
    (event : EventConfig)
    (within : Within size Fine bound parser) :
    Halts bound (fun fuel => sourceDecls fuel event) parser
      (Within size Fine bound) := by
  induction bound generalizing parser event with
  | zero => exact absurd within.2 (Nat.not_lt_zero _)
  | succ bound inductionHypothesis =>
      by_cases isSource : TokenSource.currentToken parser.lexer = .source
      · have here := dry.advance within (by simp [isSource]) (by simp [isSource])
        apply Halts.mono _ fun _ there => Within.mono there (Nat.le_succ bound)
        apply Halts.pass (fun fuel => sourceDecls_source isSource fuel event)
        apply Halts.bind (dry.consumeOneOf_halts [.name] (by decide) (by decide)
          (here.mono (Nat.le_succ bound)))
        intro pluginName named thereNamed
        apply Halts.bind (dry.consumeOneOf_halts [.name, .value] (by decide)
          (by decide) (thereNamed.mono (Nat.le_succ bound)))
        intro pluginValue valued thereValued
        apply Halts.bind (dry.propertyList_halts _ (Nat.le_refl bound)
          thereValued)
        intro properties middle there
        exact inductionHypothesis _ there
      · exact .last (fun fuel => sourceDecls_other isSource fuel event) within

theorem nextToken_halts
    (dry : RunsDry σ size Fine)
    (within : Within size Fine (limit + 1) parser)
    (known : TokenSource.currentToken parser.lexer ≠ .unknown)
    (more : TokenSource.currentToken parser.lexer ≠ .eof) :
    Halts bound (fun _ => nextToken) parser (Within size Fine limit) :=
  .of_ok (fun _ _ => rfl) (dry.advance within known more)

theorem eventDecl_halts
    (dry : RunsDry σ size Fine)
    (event : EventConfig)
    (isEvent : TokenSource.currentToken parser.lexer = .event)
    (within : Within size Fine bound parser) :
    Halts bound (fun fuel => eventDecl fuel event) parser
      (Within size Fine bound) := by
  have less := Nat.le_succ bound
  apply Halts.bind (dry.nextToken_halts (within.mono less)
    (by simp [isEvent]) (by simp [isEvent]))
  intro _ begun here
  apply Halts.bind (dry.consumeOneOf_halts [.name] (by decide) (by decide)
    (here.mono less))
  intro eventName named here
  apply Halts.bind (dry.propertyList_halts _ (Nat.le_refl bound) here)
  intro properties listed here
  apply Halts.bind (dry.consumeEndOfLine_halts (here.mono less))
  intro _ middle here
  exact dry.sourceDecls_halts _ here

/-- An output declaration has no loop, and may begin on any token. -/
theorem outputDecl_halts
    (dry : RunsDry σ size Fine)
    (output : TargetConfig)
    (fine : Fine parser.lexer) :
    Halts bound (fun _ => outputDecl output) parser
      (fun after => Fine after.lexer) := by
  have begins : Halts bound (fun _ => nextToken) parser
      (Within size Fine (size parser.advance.lexer + 3)) :=
    .of_ok (fun _ _ => rfl) ⟨dry.fine fine, Nat.lt_add_of_pos_right (by decide)⟩
  apply Halts.bind begins
  intro _ begun here
  apply Halts.bind (dry.consumeOneOf_halts [.name] (by decide) (by decide) here)
  intro pluginValue valued here
  apply Halts.bind_ok rfl
  apply Halts.bind (dry.consumeOneOf_halts [.name, .value] (by decide)
    (by decide) here)
  intro pluginName named here
  apply Halts.bind (dry.consumeEndOfLine_halts here)
  intro _ after here
  exact .of_ok (fun _ _ => rfl) here.1

theorem pluginDecl_halts
    (dry : RunsDry σ size Fine)
    (isPlugin : TokenSource.currentToken parser.lexer = .plugin)
    (within : Within size Fine (limit + 1) parser) :
    Halts bound (fun _ => pluginDecl) parser (Within size Fine limit) := by
  have less := Nat.le_succ limit
  apply Halts.bind (dry.nextToken_halts within
    (by simp [isPlugin]) (by simp [isPlugin]))
  intro _ begun here
  apply Halts.bind (dry.consumeOneOf_halts [.name, .value] (by decide)
    (by decide) (here.mono less))
  intro path named here
  apply Halts.bind (dry.consumeEndOfLine_halts (here.mono less))
  intro _ after here
  exact .of_ok (fun _ _ => rfl) here

theorem pluginDecls_halts
    (dry : RunsDry σ size Fine)
    (within : Within size Fine bound parser) :
    Halts bound pluginDecls parser (Within size Fine bound) := by
  induction bound generalizing parser with
  | zero => exact absurd within.2 (Nat.not_lt_zero _)
  | succ bound inductionHypothesis =>
      by_cases isPlugin : TokenSource.currentToken parser.lexer = .plugin
      · apply Halts.mono _ fun _ there => Within.mono there (Nat.le_succ bound)
        apply Halts.pass (pluginDecls_plugin isPlugin)
        apply Halts.bind (dry.pluginDecl_halts isPlugin within)
        intro _ middle here
        exact inductionHypothesis here
      · exact .last (pluginDecls_other isPlugin) within

theorem unexpectedToken_halts
    (dry : RunsDry σ size Fine)
    (fine : Fine parser.lexer) :
    Halts bound (fun _ => unexpectedToken) parser (fun _ => True) := by
  obtain ⟨context, known⟩ := dry.context fine
  apply Halts.of_error
  intro _ _
  rw [unexpectedToken, known]
  rfl

theorem outputCase_halts
    (dry : RunsDry σ size Fine)
    (fine : Fine parser.lexer) :
    Halts bound (fun _ => outputCase) parser (fun _ => True) := by
  apply Halts.bind (dry.outputDecl_halts _ fine)
  intro output read fine
  exact Halts.bind_ok rfl (dry.unexpectedToken_halts fine)

theorem eventCase_halts
    (dry : RunsDry σ size Fine)
    (isEvent : TokenSource.currentToken parser.lexer = .event)
    (within : Within size Fine bound parser) :
    Halts bound (fun fuel => eventCase fuel) parser (fun _ => True) := by
  apply Halts.bind_ok rfl
  apply Halts.bind (dry.eventDecl_halts _ isEvent within)
  intro event read here
  exact Halts.bind_ok rfl (dry.outputCase_halts here.1)

/-- On a source that runs dry the parser returns. -/
theorem parse_halts
    (dry : RunsDry σ size Fine)
    (within : Within size Fine bound parser) :
    Halts bound parse parser (fun _ => True) := by
  apply Halts.bind (dry.pluginDecls_halts within)
  intro _ middle here
  apply Halts.bind_ok rfl
  cases token : TokenSource.currentToken middle.lexer with
  | event => exact dry.eventCase_halts token here
  | output => exact dry.outputCase_halts here.1
  | unknown => exact dry.unexpectedToken_halts here.1
  | eof => exact dry.unexpectedToken_halts here.1
  | «end» => exact dry.unexpectedToken_halts here.1
  | name => exact dry.unexpectedToken_halts here.1
  | value => exact dry.unexpectedToken_halts here.1
  | source => exact dry.unexpectedToken_halts here.1
  | plugin => exact dry.unexpectedToken_halts here.1

end RunsDry

/-! ## The lexer -/

namespace ConfigLexer

/-- How many tokens can still come, at most: none behind the two tokens that need
not consume anything. -/
def size (lexer : ConfigLexer) : Nat :=
  if lexer.currentToken = .unknown ∨ lexer.currentToken = .eof then 0
  else lexer.left + 1

/-- A label that is short enough for its uses in `currentContext`. The path of a
file is. -/
def ShortLabel (lexer : ConfigLexer) : Prop :=
  lexer.label.length < 2 ^ 20

/-- A call leaves fewer tokens than there were characters. -/
theorem size_nextToken_le (lexer : ConfigLexer) :
    lexer.nextToken.size ≤ lexer.left := by
  rw [size]
  split
  · exact Nat.zero_le _
  next known =>
    rw [not_or] at known
    by_cases stuck : lexer.Stuck
    · exact absurd (nextToken_stuck stuck).1 known.1
    · exact (nextToken_progress stuck).resolve_left known.2

theorem currentContext_returns
    {lexer : ConfigLexer}
    (short : lexer.ShortLabel) :
    ∃ context, lexer.currentContext = some context := by
  have line := StringUtil.length_ofInt32_le lexer.currentLineNr
  have column := StringUtil.length_ofInt32_le lexer.currentColumn
  have template : (bytes "$0:$1:$2").length = 8 := by decide
  apply StringUtil.format_returns
  calc _ ≤ 8 * (2 ^ 20 * (12 * 12)) := by
        rw [template]
        apply Nat.mul_le_mul_left
        apply Nat.mul_le_mul short
        apply Nat.mul_le_mul (Nat.succ_le_succ line)
        rw [StringUtil.growth, StringUtil.growth, Nat.mul_one]
        exact Nat.succ_le_succ column
    _ < 2 ^ 31 := by decide

theorem runsDry : RunsDry ConfigLexer size ShortLabel where
  fine := by
    intro lexer short
    have label := (nextToken_follows lexer).label
    change lexer.nextToken.label.length < _
    rw [label]
    exact short
  less := by
    intro lexer _ known more
    have current : lexer.size = lexer.left + 1 := by
      rw [size, if_neg (by exact not_or.mpr ⟨known, more⟩)]
    change lexer.nextToken.size < lexer.size
    rw [current]
    exact Nat.lt_succ_of_le (size_nextToken_le lexer)
  context := currentContext_returns

end ConfigLexer

theorem within_create
    {label : Bytes}
    (config : Bytes)
    (result : ProcessConfig)
    (garbage : UInt64)
    (short : label.length < 2 ^ 20) :
    Within ConfigLexer.size ConfigLexer.ShortLabel (config.length + 1)
      { lexer := ConfigLexer.create label config
        config := result
        garbage := garbage } := by
  have left := ConfigLexer.left_opened label config
  rw [ConfigLexer.create_eq_nextToken]
  refine ⟨ConfigLexer.runsDry.fine ?_, ?_⟩
  · rw [ConfigLexer.ShortLabel, ConfigLexer.opened,
      (ConfigLexer.nextChar_follows _).label]
    exact short
  · rw [← left]
    exact Nat.lt_succ_of_le (ConfigLexer.size_nextToken_le _)

/-- A parser over a new lexer returns for every text, whatever the fuel, if that
is more than the text is long. -/
theorem config_parse_returns
    (label config : Bytes)
    (result : ProcessConfig)
    (garbage : UInt64)
    (short : label.length < 2 ^ 20) :
    ∃ rc after, ∀ fuel, config.length + 1 < fuel →
      ConfigParser.parse fuel
          { lexer := ConfigLexer.create label config
            config := result
            garbage := garbage } = some (rc, after) := by
  obtain ⟨rc, after, returned, -⟩ := ConfigLexer.runsDry.parse_halts
    (within_create config result garbage short)
  exact ⟨rc, after, returned⟩

theorem config_parse_returns_string :
    ∃ rc after, ∀ fuel, (bytes "event 'x").length + 1 < fuel →
      ConfigParser.parse fuel
          { lexer := ConfigLexer.create (bytes "<string>") (bytes "event 'x")
            config := {}
            garbage := 0 } = some (rc, after) :=
  config_parse_returns (bytes "<string>") (bytes "event 'x") {} 0 (by decide)

end Config
end EvCollect
