import EvCollect.Util.StringUtil
import EvCollect.Transition.Basic
import EvCollect.Logging.Slots

/-!
# The logger

`Logger`, whose members are atomic, and any number of threads that add targets to
it, set its minimum level and log messages. A step of a thread is one access to a
member, or one call of a target.
-/

namespace EvCollect
namespace Logging

open Transition

inductive LogLevel
  | fatal
  | emergency
  | alert
  | critical
  | error
  | warning
  | notice
  | info
  | debug
  | trace
  deriving DecidableEq, Repr

namespace LogLevel

/-- The values of the enumeration. -/
def value : LogLevel → Nat
  | .fatal => 10000
  | .emergency => 9000
  | .alert => 8000
  | .critical => 7000
  | .error => 6000
  | .warning => 5000
  | .notice => 4000
  | .info => 3000
  | .debug => 2000
  | .trace => 1000

/-- `logLevelToStr`. -/
def toStr : LogLevel → Bytes
  | .fatal => bytes "FATAL"
  | .emergency => bytes "EMERGENCY"
  | .alert => bytes "ALERT"
  | .critical => bytes "CRITICAL"
  | .error => bytes "ERROR"
  | .warning => bytes "WARNING"
  | .notice => bytes "NOTICE"
  | .info => bytes "INFO"
  | .debug => bytes "DEBUG"
  | .trace => bytes "TRACE"

/-- `strToLogLevel`, which fails an assertion for any other text. -/
def ofStr (text : Bytes) : Option LogLevel :=
  [fatal, emergency, alert, critical, error, warning, notice, info, debug,
    trace].find? (text = ·.toStr)

theorem ofStr_toStr (level : LogLevel) : ofStr level.toStr = some level := by
  cases level <;> decide

end LogLevel

/-- `LOGGER_MAX_LISTENERS`. -/
def maxListeners : Nat := 128

structure Logger (τ : Type) where
  minLevel : LogLevel := .notice
  maxListenerIndex : Nat := 0
  listeners : Nat → Option τ := fun _ => none
  /-- History: the targets of the calls of `addTarget` that have returned. -/
  added : List τ := []
  /-- History: the values that `min_level_` has had. -/
  levels : List LogLevel := [.notice]

/-- A call of `log`. -/
structure LogCall (τ : Type) where
  level : LogLevel
  message : Bytes
  args : List Bytes
  /-- History: the targets that had been added when it began. -/
  before : List τ
  /-- History: how many values `min_level_` had had before the one it had then. -/
  since : Nat

/-- What a call of `log` has left when it returns. -/
structure LogRecord (τ : Type) where
  call : LogCall τ
  /-- The targets that it has called, with the texts. -/
  delivered : List (τ × Bytes)
  /-- The targets that have been added. -/
  after : List τ
  /-- The values that `min_level_` has had during the call. -/
  levels : List LogLevel

/-- The text of a message: with no arguments, the overload without a format is
called. -/
def logText (message : Bytes) (args : List Bytes) : Option Bytes :=
  if args = [] then some message else StringUtil.format message args

/-- Where a thread stands. -/
inductive Thread (τ : Type)
  /-- In none of the functions. -/
  | idle
  /-- `addTarget` is about to store the target. -/
  | storing (target : τ) (index : Nat)
  /-- The overload of `log` with arguments is about to test the level. -/
  | testing (call : LogCall τ)
  /-- `log` is about to test the level. -/
  | entered (call : LogCall τ) (text : Bytes)
  /-- `log` is about to read `max_listener_index_`. -/
  | counting (call : LogCall τ) (text : Bytes)
  /-- At the head of the loop. -/
  | loading
      (call : LogCall τ)
      (text : Bytes)
      (delivered : List (τ × Bytes))
      (maxIndex index : Nat)
  /-- Before the call of a target. -/
  | calling
      (call : LogCall τ)
      (text : Bytes)
      (delivered : List (τ × Bytes))
      (maxIndex index : Nat)
      (listener : τ)

/-- What has no defined outcome. -/
inductive Undefined
  /-- An access behind the end of `listeners_`. -/
  | listener
  /-- A text that cannot be formatted. -/
  | unformatted
  deriving DecidableEq, Repr

/-- What a step of a thread leaves. -/
structure Moved (τ : Type) where
  thread : Thread τ
  logger : Logger τ
  record : Option (LogRecord τ) := none

variable {τ : Type}

namespace Logger

/-- A call of `log` begins. -/
def begin
    (level : LogLevel)
    (message : Bytes)
    (args : List Bytes)
    (logger : Logger τ) : LogCall τ where
  level := level
  message := message
  args := args
  before := logger.added
  since := logger.levels.length - 1

/-- A call of `log` returns. -/
def finish
    (call : LogCall τ)
    (delivered : List (τ × Bytes))
    (logger : Logger τ) : Moved τ where
  thread := .idle
  logger := logger
  record := some {
    call := call
    delivered := delivered
    after := logger.added
    levels := logger.levels.drop call.since }

/-- The store in `addTarget`. -/
def store (target : τ) (index : Nat) (logger : Logger τ) : Logger τ :=
  { logger with
    listeners := Function.update logger.listeners index (some target)
    added := logger.added ++ [target] }

/-- The next step of a thread in `addTarget` or `log`. -/
def advance (logger : Logger τ) : Thread τ → Option (Except Undefined (Moved τ))
  | .idle => none
  | .storing target index =>
      if index < maxListeners then
        some (.ok { thread := .idle, logger := logger.store target index })
      else some (.error .listener)
  | .testing call =>
      if logger.minLevel.value ≤ call.level.value then
        match StringUtil.format call.message call.args with
        | some text => some (.ok { thread := .entered call text, logger := logger })
        | none => some (.error .unformatted)
      else some (.ok (logger.finish call []))
  | .entered call text =>
      if call.level.value < logger.minLevel.value then
        some (.ok (logger.finish call []))
      else some (.ok { thread := .counting call text, logger := logger })
  | .counting call text =>
      some (.ok {
        thread := .loading call text [] logger.maxListenerIndex 0
        logger := logger })
  | .loading call text delivered maxIndex index =>
      if index < maxIndex then
        if index < maxListeners then
          match logger.listeners index with
          | some listener =>
              some (.ok {
                thread := .calling call text delivered maxIndex index listener
                logger := logger })
          | none =>
              some (.ok {
                thread := .loading call text delivered maxIndex (index + 1)
                logger := logger })
        else some (.error .listener)
      else some (.ok (logger.finish call delivered))
  | .calling call text delivered maxIndex index listener =>
      some (.ok {
        thread := .loading call text (delivered ++ [(listener, text)]) maxIndex
          (index + 1)
        logger := logger })

end Logger

structure System (τ : Type) where
  logger : Logger τ := {}
  threads : Nat → Thread τ := fun _ => .idle
  /-- History: the calls of `log` that have returned. -/
  records : List (LogRecord τ) := []
  undefined : Option Undefined := none

inductive Action (τ : Type)
  /-- A thread calls `addTarget`, which increments `max_listener_index_`. -/
  | addTarget (thread : Nat) (target : τ)
  | setMinimumLogLevel (level : LogLevel)
  /-- A thread calls `log`. -/
  | log (thread : Nat) (level : LogLevel) (message : Bytes) (args : List Bytes)
  /-- A thread takes its next step. -/
  | advance (thread : Nat)

namespace System

/-- A thread has moved. -/
def moved (thread : Nat) (moved : Moved τ) (system : System τ) : System τ :=
  { system with
    logger := moved.logger
    threads := Function.update system.threads thread moved.thread
    records := system.records ++ moved.record.toList }

/-- A step, with none behind an undefined one. -/
def step (system : System τ) (action : Action τ) : Option (System τ) :=
  if system.undefined.isSome then none
  else
    match action with
    | .addTarget thread target =>
        match system.threads thread with
        | .idle =>
            some (system.moved thread {
              thread := .storing target system.logger.maxListenerIndex
              logger := { system.logger with
                maxListenerIndex := system.logger.maxListenerIndex + 1 } })
        | _ => none
    | .setMinimumLogLevel level =>
        some { system with
          logger := { system.logger with
            minLevel := level
            levels := system.logger.levels ++ [level] } }
    | .log thread level message args =>
        match system.threads thread with
        | .idle =>
            let call := system.logger.begin level message args
            some (system.moved thread {
              thread := if args = [] then .entered call message else .testing call
              logger := system.logger })
        | _ => none
    | .advance thread =>
        match system.logger.advance (system.threads thread) with
        | none => none
        | some (.error undefined) =>
            some { system with undefined := some undefined }
        | some (.ok result) => some (system.moved thread result)

end System

end Logging
end EvCollect
