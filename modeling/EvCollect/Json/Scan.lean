import EvCollect.Json.Reader

/-!
# String literals do not adjoin

A scan of a text that only tells what is inside of string literals. In a JSON
text a string literal is followed by white space or punctuation, so a text with
two adjoining ones denotes nothing.
-/

namespace EvCollect
namespace Json

/-- Where a scan stands: outside of string literals, inside of one, behind a
backslash in one, right behind one, or behind something that is in no JSON
text. -/
inductive Place
  | between
  | inside
  | escaped
  | behind
  | stuck
  deriving DecidableEq, Repr

/-- Bytes that can come behind a string literal. -/
def isPunctuation (byte : UInt8) : Bool :=
  decide (byte = 0x2c ∨ byte = 0x3a ∨ byte = 0x5d ∨ byte = 0x7d)

namespace Place

/-- Move over a byte. -/
def step (byte : UInt8) : Place → Place
  | between => if byte = 0x22 then inside else between
  | inside =>
      if byte = 0x22 then behind
      else if byte = 0x5c then escaped
      else inside
  | escaped => inside
  | behind =>
      if isBlank byte then behind
      else if isPunctuation byte then between
      else stuck
  | stuck => stuck

/-- Move over a text. -/
def scan (place : Place) : List UInt8 → Place
  | [] => place
  | byte :: rest => (place.step byte).scan rest

@[simp] theorem scan_nil (place : Place) : place.scan [] = place := rfl

@[simp] theorem scan_cons
    (place : Place)
    (byte : UInt8)
    (rest : List UInt8) :
    place.scan (byte :: rest) = (place.step byte).scan rest := rfl

@[simp] theorem scan_append
    (place : Place)
    (first second : List UInt8) :
    place.scan (first ++ second) = (place.scan first).scan second := by
  induction first generalizing place with
  | nil => rfl
  | cons byte rest inductionHypothesis => exact inductionHypothesis _

@[simp] theorem scan_stuck (text : List UInt8) :
    stuck.scan text = stuck := by
  induction text with
  | nil => rfl
  | cons byte rest inductionHypothesis => exact inductionHypothesis

/-- Outside of string literals. -/
def Outside : Place → Prop
  | between | behind => True
  | _ => False

theorem outside_behind : behind.Outside := trivial

theorem Outside.cases
    {place : Place}
    (outside : place.Outside) :
    place = between ∨ place = behind := by
  cases place with
  | between => exact .inl rfl
  | behind => exact .inr rfl
  | inside => cases outside
  | escaped => cases outside
  | stuck => cases outside

theorem Outside.step_blank
    {place : Place}
    {byte : UInt8}
    (outside : place.Outside)
    (isBlank : isBlank byte = true) :
    place.step byte = place := by
  rcases outside.cases with rfl | rfl
  · rw [step, if_neg]
    rintro rfl
    cases isBlank
  · rw [step, if_pos isBlank]

theorem Outside.scan_blank
    {place : Place}
    {text : List UInt8}
    (outside : place.Outside)
    (blank : Blank text) :
    place.scan text = place := by
  induction text with
  | nil => rfl
  | cons byte rest inductionHypothesis =>
      rw [scan_cons, outside.step_blank (blank byte List.mem_cons_self)]
      exact inductionHypothesis fun other present =>
        blank other (List.mem_cons_of_mem _ present)

theorem Outside.step_punctuation
    {place : Place}
    {byte : UInt8}
    (outside : place.Outside)
    (punctuation : isPunctuation byte = true) :
    place.step byte = between := by
  have distinct := of_decide_eq_true punctuation
  rcases outside.cases with rfl | rfl
  · rcases distinct with rfl | rfl | rfl | rfl <;> rfl
  · rcases distinct with rfl | rfl | rfl | rfl <;> rfl

theorem scan_between_blank
    {text : List UInt8}
    (blank : Blank text) :
    between.scan text = between :=
  Outside.scan_blank trivial blank

/-- No byte of a number opens a string literal. -/
theorem scan_number
    {text : List UInt8}
    (fits : ∀ byte ∈ text, isNumberByte byte = true) :
    between.scan text = between := by
  induction text with
  | nil => rfl
  | cons byte rest inductionHypothesis =>
      have noQuote : byte ≠ 0x22 := by
        rintro rfl
        cases fits 0x22 List.mem_cons_self
      rw [scan_cons, step, if_neg noQuote]
      exact inductionHypothesis fun other present =>
        fits other (List.mem_cons_of_mem _ present)

theorem step_hexDigit
    {digit : UInt8}
    {value : Nat}
    (isDigit : hexValue digit = some value) :
    inside.step digit = inside := by
  rw [step, if_neg, if_neg]
  · rintro rfl
    cases isDigit
  · rintro rfl
    cases isDigit

theorem scan_letters
    {elements : List Element}
    {text : List UInt8}
    (letters : Letters elements text) :
    inside.scan text = inside := by
  induction letters with
  | nil => rfl
  | plain isPlain _ inductionHypothesis =>
      have facts := of_decide_eq_true isPlain
      rw [scan_cons, step, if_neg facts.2.1, if_neg facts.2.2]
      exact inductionHypothesis
  | short _ _ inductionHypothesis => exact inductionHypothesis
  | @long first second third fourth _ _ text digits _ inductionHypothesis =>
      obtain ⟨_, isFirst, digits⟩ := Option.bind_eq_some_iff.mp digits
      obtain ⟨_, isSecond, digits⟩ := Option.bind_eq_some_iff.mp digits
      obtain ⟨_, isThird, digits⟩ := Option.bind_eq_some_iff.mp digits
      obtain ⟨_, isFourth, -⟩ := Option.bind_eq_some_iff.mp digits
      change (step fourth (step third (step second (step first
        inside)))).scan text = inside
      rw [step_hexDigit isFirst, step_hexDigit isSecond, step_hexDigit isThird,
        step_hexDigit isFourth]
      exact inductionHypothesis

theorem scan_quoted
    {elements : List Element}
    {text : List UInt8}
    (letters : Letters elements text) :
    between.scan (quoted text) = behind := by
  change inside.scan (text ++ [0x22]) = behind
  rw [scan_append, scan_letters letters]
  rfl

end Place

open Place

/-- A scan over a part of a JSON text ends outside of string literals. -/
theorem Denotes.scan_outside
    {text : List UInt8}
    {part : Part}
    (denotes : Denotes text part) :
    (between.scan text).Outside := by
  induction denotes with
  | null => trivial
  | true => trivial
  | false => trivial
  | number isNumber =>
      rw [scan_number (isNumber_bytes isNumber).2]
      trivial
  | string letters =>
      rw [scan_quoted letters]
      trivial
  | noItems isBlank =>
      change (between.scan (_ ++ [0x5d])).Outside
      rw [scan_append, scan_between_blank isBlank]
      trivial
  | array _ inductionHypothesis =>
      change (between.scan (_ ++ [0x5d])).Outside
      rw [scan_append, scan_cons, inductionHypothesis.step_punctuation rfl]
      trivial
  | noMembers isBlank =>
      change (between.scan (_ ++ [0x7d])).Outside
      rw [scan_append, scan_between_blank isBlank]
      trivial
  | object _ inductionHypothesis =>
      change (between.scan (_ ++ [0x7d])).Outside
      rw [scan_append, scan_cons, inductionHypothesis.step_punctuation rfl]
      trivial
  | lastItem blankBefore _ blankAfter inductionHypothesis =>
      rw [scan_append, scan_append, scan_between_blank blankBefore,
        inductionHypothesis.scan_blank blankAfter]
      exact inductionHypothesis
  | item blankBefore _ blankAfter _ first remaining =>
      rw [scan_append, scan_append, scan_append, scan_between_blank blankBefore,
        first.scan_blank blankAfter, scan_cons, first.step_punctuation rfl]
      exact remaining
  | lastMember blankBefore letters blankBetween blankLead _ blankAfter
      inductionHypothesis =>
      rw [scan_append, scan_append, scan_append, scan_between_blank blankBefore,
        scan_quoted letters, outside_behind.scan_blank blankBetween,
        scan_cons, outside_behind.step_punctuation rfl, scan_append,
        scan_append, scan_between_blank blankLead,
        inductionHypothesis.scan_blank blankAfter]
      exact inductionHypothesis
  | member blankBefore letters blankBetween blankLead _ blankAfter _ first
      remaining =>
      rw [scan_append, scan_append, scan_append, scan_between_blank blankBefore,
        scan_quoted letters, outside_behind.scan_blank blankBetween,
        scan_cons, outside_behind.step_punctuation rfl, scan_append,
        scan_append, scan_append, scan_between_blank blankLead,
        first.scan_blank blankAfter, scan_cons, first.step_punctuation rfl]
      exact remaining

/-- A text over which a scan gets stuck is no JSON text. -/
theorem not_text_of_stuck
    {text : List UInt8}
    (stuck : between.scan text = stuck)
    (value : Value) :
    ¬ Text text value := by
  rintro ⟨before, body, after, blankBefore, denotes, blankAfter, rfl⟩
  have outside := denotes.scan_outside
  rw [scan_append, scan_append, scan_between_blank blankBefore,
    outside.scan_blank blankAfter] at stuck
  rw [stuck] at outside
  exact outside

/-- Two quotes in a row, with a letter behind them: whatever comes before them,
one of them ends a string literal, and no punctuation follows. -/
theorem stuck_of_adjoining
    {before after : List UInt8}
    {letter : UInt8}
    (noBlank : isBlank letter = false)
    (noPunctuation : isPunctuation letter = false) :
    between.scan (before ++ 0x22 :: 0x22 :: letter :: after) = stuck := by
  rw [scan_append]
  have behindStuck : behind.step letter = stuck := by
    rw [step, noBlank, noPunctuation]
    rfl
  cases between.scan before with
  | between => exact (congrArg (scan · after) behindStuck).trans (scan_stuck _)
  | inside => exact scan_stuck _
  | escaped => exact (congrArg (scan · after) behindStuck).trans (scan_stuck _)
  | behind => exact scan_stuck _
  | stuck => exact scan_stuck _

end Json
end EvCollect
