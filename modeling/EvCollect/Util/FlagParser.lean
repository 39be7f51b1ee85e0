import Mathlib.Data.List.Basic
import EvCollect.Basic

/-!
# Command line flags

`FlagParser`, with the names of its flags as pointers to C strings: the getters
compare the pointers, and `parseArgv` what they point to.
-/

namespace EvCollect

/-- A `const char*`. -/
abbrev Pointer := Nat

inductive FlagType
  | switch
  | string
  | float
  | integer
  deriving DecidableEq, Repr

structure FlagState where
  type : FlagType
  required : Bool
  longopt : Pointer
  shortopt : Option Pointer := none
  defaultValue : Option Pointer := none
  values : List Bytes := []
  deriving DecidableEq, Repr

structure FlagParser where
  argv : List Bytes := []
  flags : List FlagState := []
  deriving DecidableEq, Repr

/-- What a part of the command line sets: a value of a flag, or a positional
argument. -/
inductive Argument
  | value (flag : Nat) (value : Bytes)
  | positional (arg : Bytes)
  deriving DecidableEq, Repr

/-- Whether `arg.compare(0, text.size(), text)` is zero. -/
def startsWith (arg text : Bytes) : Bool :=
  arg.take text.length == text

section

-- The C strings that pointers point to.
variable (text : Pointer → Bytes)

namespace FlagState

/-- The name with two dashes. -/
def long (flag : FlagState) : Bytes :=
  bytes "--" ++ text flag.longopt

/-- The tests of `parseArgv` for a flag: whether it is the one that an argument
names and, where the argument goes on with `=`, the length up to there. -/
def accepts (flag : FlagState) (arg : Bytes) : Option (Option Nat) :=
  let longopt := flag.long text
  let longoptEq := flag.long text ++ bytes "="
  if arg.length = longopt.length ∧ startsWith arg longopt then some none
  else if arg.length = longoptEq.length ∧ startsWith arg longoptEq then
    some (some longoptEq.length)
  else
    match flag.shortopt with
    | none => none
    | some name =>
        let shortopt := bytes "-" ++ text name
        let shortoptEq := bytes "-" ++ text name ++ bytes "="
        if startsWith arg shortopt then some none
        else if startsWith arg shortoptEq then some (some shortoptEq.length)
        else none

end FlagState

/-- The loop of `parseArgv` over the flags, up to the first one that accepts the
argument. -/
def findFlag : List FlagState → Bytes → Option (Nat × FlagState × Option Nat)
  | [], _ => none
  | flag :: flags, arg =>
      match flag.accepts text arg with
      | some eqLen => some (0, flag, eqLen)
      | none => (findFlag flags arg).map fun found => (found.1 + 1, found.2)

namespace FlagParser

/-- `FlagParser::defineFlag`. -/
def defineFlag
    (parser : FlagParser)
    (longopt : Pointer)
    (type : FlagType)
    (required : Bool)
    (shortopt defaultValue : Option Pointer) : FlagParser :=
  { parser with
    flags := parser.flags ++
      [{ type := type
         required := required
         longopt := longopt
         shortopt := shortopt
         defaultValue := defaultValue }] }

/-- Append a value to a flag, or a positional argument. -/
def record (parser : FlagParser) : Argument → FlagParser
  | .value index value =>
      { parser with
        flags := parser.flags.modify index fun flag =>
          { flag with values := flag.values ++ [value] } }
  | .positional arg => { parser with argv := parser.argv ++ [arg] }

/-- The loop of `parseArgv` over the arguments. -/
def parseArgs : List Bytes → FlagParser → ReturnCode × FlagParser
  | [], parser => (ReturnCode.success, parser)
  | arg :: rest, parser =>
      if arg.length = 0 then parseArgs rest parser
      else
        match findFlag text parser.flags arg with
        | none => parseArgs rest (parser.record (.positional arg))
        | some (index, flag, eqLen) =>
            if flag.type = .switch then
              parseArgs rest (parser.record (.value index (bytes "true")))
            else
              match eqLen, rest with
              | some length, rest =>
                  if arg.length = length then
                    (ReturnCode.makeErrorf "FLAG_ERROR" (bytes "flag --" ++
                      text flag.longopt ++ bytes "=... has no value"), parser)
                  else
                    parseArgs rest
                      (parser.record (.value index (arg.drop length)))
              | none, [] =>
                  (ReturnCode.makeErrorf "FLAG_ERROR" (bytes "flag --" ++
                    text flag.longopt ++ bytes " has no value"), parser)
              | none, value :: rest =>
                  parseArgs rest (parser.record (.value index value))

/-- The check for flags that are required and not set. -/
def checkRequired (parser : FlagParser) : ReturnCode :=
  match parser.flags.find? fun flag => flag.required && flag.values.isEmpty with
  | none => ReturnCode.success
  | some flag =>
      ReturnCode.makeErrorf "FLAG_ERROR"
        (bytes "flag --" ++ text flag.longopt ++ bytes " is required")

/-- `FlagParser::parseArgv`. -/
def parseArgv
    (parser : FlagParser)
    (argv : List Bytes) : ReturnCode × FlagParser :=
  match parseArgs text argv parser with
  | (.error error, parser) => (.error error, parser)
  | (.ok _, parser) => (parser.checkRequired text, parser)

/-- The loops of the getters, up to the first flag with this pointer. -/
def lookup (parser : FlagParser) (longopt : Pointer) : Option FlagState :=
  parser.flags.find? fun flag => flag.longopt = longopt

/-- `FlagParser::getString`, or `none` if its assertion fails. -/
def getString (parser : FlagParser) (longopt : Pointer) : Option Bytes :=
  match parser.lookup longopt with
  | none => some []
  | some flag =>
      if flag.type ≠ .string then none
      else
        match flag.values.getLast? with
        | some value => some value
        | none => some ((flag.defaultValue.map text).getD [])

/-- `FlagParser::getStrings`, or `none` if its assertion fails. -/
def getStrings (parser : FlagParser) (longopt : Pointer) : Option (List Bytes) :=
  match parser.lookup longopt with
  | none => some []
  | some flag =>
      if flag.type ≠ .string then none
      else if flag.values.isEmpty then
        some (flag.defaultValue.map text).toList
      else some flag.values

/-- `FlagParser::getArgv`. -/
def getArgv (parser : FlagParser) : List Bytes :=
  parser.argv

end FlagParser

end

end EvCollect
