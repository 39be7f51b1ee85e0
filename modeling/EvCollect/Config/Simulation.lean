import EvCollect.Config.Declarations
import EvCollect.Config.Printing

/-!
# Tokens are all that the rules see

The functions for the single rules do the same on two sources whose tokens are
the same, one after the other. A lexer on printed tokens and the list of these
tokens are such sources.
-/

namespace EvCollect
namespace Config

/-- A relation between the states of two sources with the same tokens. -/
structure SameTokens
    {σ τ : Type}
    [TokenSource σ]
    [TokenSource τ]
    (Same : σ → τ → Prop) : Prop where
  current : ∀ {source : σ} {other : τ}, Same source other →
    TokenSource.currentToken source = TokenSource.currentToken other
  string : ∀ {source : σ} {other : τ}, Same source other →
    TokenSource.stringValue source = TokenSource.stringValue other
  next : ∀ {source : σ} {other : τ}, Same source other →
    Same (TokenSource.nextToken source) (TokenSource.nextToken other)

section

variable {σ τ : Type}
variable {α β : Type}

/-- Parsers that have read the same, and go on with sources in a relation. -/
structure Beside
    (Same : σ → τ → Prop)
    (parser : ConfigParser σ)
    (other : ConfigParser τ) : Prop where
  lexer : Same parser.lexer other.lexer
  config : parser.config = other.config
  garbage : parser.garbage = other.garbage

/-- Both parts do not return, or they return the same and leave such parsers. -/
def SameResult
    (Same : σ → τ → Prop) :
    Option (Except Error α × ConfigParser σ) →
      Option (Except Error α × ConfigParser τ) → Prop
  | none, none => True
  | some first, some second =>
      first.1 = second.1 ∧ Beside Same first.2 second.2
  | _, _ => False

/-- Two parts that do the same on such parsers. -/
def Agrees
    (Same : σ → τ → Prop)
    (first : Parse σ α)
    (second : Parse τ α) : Prop :=
  ∀ (parser : ConfigParser σ) (other : ConfigParser τ),
    Beside Same parser other → SameResult Same (first parser) (second other)

namespace Agrees

variable {Same : σ → τ → Prop}

theorem pure (value : α) :
    Agrees Same (Pure.pure value : Parse σ α) (Pure.pure value : Parse τ α) :=
  fun _ _ beside => ⟨rfl, beside⟩

theorem fail (code : String) (message : Bytes) :
    Agrees Same (Parse.fail code message : Parse σ α)
      (Parse.fail code message : Parse τ α) :=
  fun _ _ beside => ⟨rfl, beside⟩

theorem diverge :
    Agrees Same (Parse.diverge : Parse σ α) (Parse.diverge : Parse τ α) :=
  fun _ _ _ => trivial

theorem modifyConfig (change : ProcessConfig → ProcessConfig) :
    Agrees Same (Parse.modifyConfig change : Parse σ Unit)
      (Parse.modifyConfig change : Parse τ Unit) :=
  fun _ _ beside => ⟨rfl, beside.lexer, congrArg change beside.config, beside.garbage⟩

theorem bind
    {first : Parse σ β}
    {second : Parse τ β}
    {next : β → Parse σ α}
    {nextSecond : β → Parse τ α}
    (agrees : Agrees Same first second)
    (goesOn : ∀ value, Agrees Same (next value) (nextSecond value)) :
    Agrees Same (first >>= next) (second >>= nextSecond) := by
  intro parser other beside
  have same := agrees parser other beside
  cases ran : first parser with
  | none =>
      rw [ran] at same
      cases ranOther : second other with
      | none =>
          rw [Parse.bind_of_none ran, Parse.bind_of_none ranOther]
          trivial
      | some result =>
          rw [ranOther] at same
          exact same.elim
  | some result =>
      obtain ⟨result, middle⟩ := result
      rw [ran] at same
      cases ranOther : second other with
      | none =>
          rw [ranOther] at same
          exact same.elim
      | some resultOther =>
          obtain ⟨resultOther, middleOther⟩ := resultOther
          rw [ranOther] at same
          obtain ⟨equal, there⟩ := same
          cases equal
          cases result with
          | error error =>
              rw [Parse.bind_of_error ran, Parse.bind_of_error ranOther]
              exact ⟨rfl, there⟩
          | ok value =>
              rw [Parse.bind_of_ok ran, Parse.bind_of_ok ranOther]
              exact goesOn value middle middleOther there

end Agrees

end

namespace SameTokens

open ConfigParser

variable {σ τ : Type} [TokenSource σ] [TokenSource τ]
variable {Same : σ → τ → Prop}

theorem currentToken
    (same : SameTokens Same) :
    Agrees Same (ConfigParser.currentToken : Parse σ ConfigToken)
      (ConfigParser.currentToken : Parse τ ConfigToken) :=
  fun _ _ beside => ⟨congrArg Except.ok (same.current beside.lexer), beside⟩

theorem stringValue
    (same : SameTokens Same) :
    Agrees Same (ConfigParser.stringValue : Parse σ Bytes)
      (ConfigParser.stringValue : Parse τ Bytes) :=
  fun _ _ beside => ⟨congrArg Except.ok (same.string beside.lexer), beside⟩

theorem nextToken
    (same : SameTokens Same) :
    Agrees Same (ConfigParser.nextToken : Parse σ Unit)
      (ConfigParser.nextToken : Parse τ Unit) :=
  fun _ _ beside =>
    ⟨rfl, same.next beside.lexer, beside.config, beside.garbage⟩

theorem consumeOneOf
    (same : SameTokens Same)
    (kinds : List ConfigToken) :
    Agrees Same (ConfigParser.consumeOneOf kinds : Parse σ Bytes)
      (ConfigParser.consumeOneOf kinds : Parse τ Bytes) := by
  apply Agrees.bind same.currentToken
  intro token
  by_cases member : token ∈ kinds
  · simp only [if_pos member]
    apply Agrees.bind same.stringValue
    intro value
    exact Agrees.bind same.nextToken fun _ => .pure value
  · simp only [if_neg member]
    exact .fail _ _

theorem consumeEndOfLine
    (same : SameTokens Same) :
    Agrees Same (ConfigParser.consumeEndOfLine : Parse σ Unit)
      (ConfigParser.consumeEndOfLine : Parse τ Unit) := by
  apply Agrees.bind same.currentToken
  intro token
  by_cases atEnd : token = .end
  · simp only [if_pos atEnd]
    exact same.nextToken
  · simp only [if_neg atEnd]
    exact .fail _ _

theorem propertyList
    (same : SameTokens Same)
    (fuel : Nat)
    (output : PropertyList) :
    Agrees Same (ConfigParser.propertyList fuel output : Parse σ PropertyList)
      (ConfigParser.propertyList fuel output : Parse τ PropertyList) := by
  induction fuel generalizing output with
  | zero => exact .diverge
  | succ fuel inductionHypothesis =>
      apply Agrees.bind same.currentToken
      intro token
      by_cases isName : token = .name
      · simp only [if_pos isName]
        apply Agrees.bind same.stringValue
        intro name
        apply Agrees.bind (same.consumeOneOf _)
        intro value
        exact inductionHypothesis _
      · simp only [if_neg isName]
        exact .pure output

theorem sourceDecls
    (same : SameTokens Same)
    (fuel : Nat)
    (event : EventConfig) :
    Agrees Same (ConfigParser.sourceDecls fuel event : Parse σ EventConfig)
      (ConfigParser.sourceDecls fuel event : Parse τ EventConfig) := by
  induction fuel generalizing event with
  | zero => exact .diverge
  | succ fuel inductionHypothesis =>
      apply Agrees.bind same.currentToken
      intro token
      by_cases isSource : token = .source
      · simp only [if_pos isSource]
        apply Agrees.bind same.nextToken
        intro _
        apply Agrees.bind (same.consumeOneOf _)
        intro pluginName
        apply Agrees.bind (same.consumeOneOf _)
        intro pluginValue
        apply Agrees.bind (same.propertyList fuel _)
        intro properties
        exact inductionHypothesis _
      · simp only [if_neg isSource]
        exact .pure event

theorem eventDecl
    (same : SameTokens Same)
    (fuel : Nat)
    (event : EventConfig) :
    Agrees Same (ConfigParser.eventDecl fuel event : Parse σ EventConfig)
      (ConfigParser.eventDecl fuel event : Parse τ EventConfig) := by
  apply Agrees.bind same.nextToken
  intro _
  apply Agrees.bind (same.consumeOneOf _)
  intro eventName
  apply Agrees.bind (same.propertyList fuel _)
  intro properties
  apply Agrees.bind same.consumeEndOfLine
  intro _
  exact same.sourceDecls fuel _

theorem outputDecl
    (same : SameTokens Same)
    (output : TargetConfig) :
    Agrees Same (ConfigParser.outputDecl output : Parse σ TargetConfig)
      (ConfigParser.outputDecl output : Parse τ TargetConfig) := by
  apply Agrees.bind same.nextToken
  intro _
  apply Agrees.bind (same.consumeOneOf _)
  intro pluginValue
  apply Agrees.bind (.pure ())
  intro _
  apply Agrees.bind (same.consumeOneOf _)
  intro pluginName
  exact Agrees.bind same.consumeEndOfLine fun _ => .pure _

theorem pluginDecl
    (same : SameTokens Same) :
    Agrees Same (ConfigParser.pluginDecl : Parse σ Unit)
      (ConfigParser.pluginDecl : Parse τ Unit) := by
  apply Agrees.bind same.nextToken
  intro _
  apply Agrees.bind (same.consumeOneOf _)
  intro path
  exact Agrees.bind same.consumeEndOfLine fun _ => .modifyConfig _

end SameTokens

/-! ## The lexer on printed tokens -/

namespace ConfigLexer

/-- The lexer has just read the first token of a list, with the others printed
behind it. -/
def HasRead (lexer : ConfigLexer) (stream : TokenStream) : Prop :=
  ∃ tokens : List Printed,
    stream.tokens = tokens.map Printed.token ∧
      lexer.current = (tokens.map Printed.token).head?.getD (.eof, []) ∧
      lexer.At (behind tokens.tail)

theorem sameTokens_hasRead : SameTokens HasRead where
  current := by
    rintro lexer ⟨stream⟩ ⟨tokens, rfl, current, -⟩
    have kind := congrArg Prod.fst current
    cases tokens with
    | nil => exact kind
    | cons => exact kind
  string := by
    rintro lexer ⟨stream⟩ ⟨tokens, rfl, current, -⟩
    have text := congrArg Prod.snd current
    cases tokens with
    | nil => exact text
    | cons => exact text
  next := by
    rintro lexer ⟨stream⟩ ⟨tokens, rfl, -, there⟩
    refine ⟨tokens.tail, ?_, ?_⟩
    · cases tokens with
      | nil => rfl
      | cons => rfl
    cases tail : tokens.tail with
    | nil =>
        rw [tail] at there
        exact nextToken_nil there
    | cons token rest =>
        rw [tail] at there
        have read := reads_token token rest rfl there
        exact ⟨read.current, read.rest⟩

theorem create_hasRead (label : Bytes) (tokens : List Printed) :
    (create label (print tokens)).HasRead
      { tokens := tokens.map Printed.token } := by
  have start : ({ label := label, rest := print tokens } : ConfigLexer).At
      (0 :: print tokens) := ⟨rfl, rfl, rfl⟩
  refine ⟨tokens, rfl, ?_⟩
  rw [create]
  cases tokens with
  | nil => exact nextToken_last start rfl
  | cons token tokens =>
      have read := reads_token token tokens rfl start
      exact ⟨read.current, read.rest⟩

end ConfigLexer

/-- On a new lexer over printed tokens the functions for declarations do what
they do on the list of these tokens. -/
theorem declarations_print
    (label : Bytes)
    (tokens : List Printed)
    (config : ProcessConfig)
    (garbage : UInt64)
    (fuel : Nat)
    (event : EventConfig)
    (output : TargetConfig) :
    let parser : ConfigParser ConfigLexer :=
      { lexer := ConfigLexer.create label (print tokens)
        config := config
        garbage := garbage }
    let other : ConfigParser TokenStream :=
      { lexer := { tokens := tokens.map Printed.token }
        config := config
        garbage := garbage }
    SameResult ConfigLexer.HasRead (ConfigParser.pluginDecl parser)
        (ConfigParser.pluginDecl other) ∧
      SameResult ConfigLexer.HasRead (ConfigParser.eventDecl fuel event parser)
        (ConfigParser.eventDecl fuel event other) ∧
      SameResult ConfigLexer.HasRead (ConfigParser.outputDecl output parser)
        (ConfigParser.outputDecl output other) := by
  intro parser other
  have same := ConfigLexer.sameTokens_hasRead
  have beside : Beside ConfigLexer.HasRead parser other :=
    ⟨ConfigLexer.create_hasRead label tokens, rfl, rfl⟩
  exact ⟨same.pluginDecl _ _ beside, same.eventDecl fuel event _ _ beside,
    same.outputDecl output _ _ beside⟩

end Config
end EvCollect
