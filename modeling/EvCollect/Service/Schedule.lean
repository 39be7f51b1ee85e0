import EvCollect.Basic
import EvCollect.Queue.Keyed

/-!
# The schedule of the service

The event bindings, the queue of bindings ordered by their next tick, and the
steps that the main loop makes on them. Pointers to bindings are positions in
`eventBindings`, which never shrinks; pointers to plugins are opaque references.
-/

namespace EvCollect
namespace Service

/-- The `void* userdata` that a plugin hands out on attach. -/
abbrev Userdata := Nat

/-- A pointer to a registered plugin. -/
abbrev PluginRef := Nat

structure EventSourceBinding where
  plugin : PluginRef
  userdata : Userdata
  deriving DecidableEq, Repr

structure EventBinding where
  eventName : Bytes
  intervalMicros : UInt64
  sources : List EventSourceBinding
  nextTick : UInt64
  deriving DecidableEq, Repr, Inhabited

/-- Entries of the log of the main loop. -/
inductive RunEvent
  /-- `processEvent` is called for a binding, `now` having been read before. -/
  | start (job : Nat) (now : UInt64)
  /-- A binding with the given tick has been processed, `now` having been read
  after; `due` are the bindings left in the queue whose tick is not later. -/
  | finish (job : Nat) (tick now : UInt64) (due : List Nat)
  deriving DecidableEq, Repr

/-- What happened so far. No modelled function reads it. -/
structure History where
  /-- The clock reading at which each binding was added. -/
  added : List UInt64 := []
  log : List RunEvent := []
  /-- Every write to a binding's `nextTick`, with the queue at that moment. -/
  stores : List (Nat × List Nat) := []
  /-- Some sum of a tick and an interval did not fit 64 bits. -/
  wrapped : Bool := false
  deriving DecidableEq, Repr

/-- The part of the service that decides which binding is processed when. -/
structure Schedule where
  eventBindings : List EventBinding := []
  queue : List Nat := []
  history : History := {}
  deriving DecidableEq, Repr

namespace Schedule

/-- The binding behind a pointer. -/
def binding (schedule : Schedule) (job : Nat) : EventBinding :=
  schedule.eventBindings.getD job default

def nextTick (schedule : Schedule) (job : Nat) : UInt64 :=
  (schedule.binding job).nextTick

def intervalMicros (schedule : Schedule) (job : Nat) : UInt64 :=
  (schedule.binding job).intervalMicros

/-- The order of `queue_`: two bindings compare as their next ticks do. -/
def key (schedule : Schedule) (job : Nat) : Nat :=
  (schedule.nextTick job).toNat

/-- `queue_.insert(job)`. -/
def insertJob (job : Nat) (schedule : Schedule) : Schedule :=
  { schedule with
    queue := Queue.insertLast schedule.key job schedule.queue }

/-- `queue_.erase(queue_.begin())`. -/
def eraseBegin (schedule : Schedule) : Schedule :=
  { schedule with queue := schedule.queue.tail }

/-- Whether a sum of two 64 bit values is truncated. -/
def sumWraps (first second : UInt64) : Bool :=
  decide (2 ^ 64 ≤ first.toNat + second.toNat)

/-- Keep a new binding in `event_bindings_`. -/
def addBinding
    (config : EventConfig)
    (sources : List EventSourceBinding)
    (now : UInt64)
    (schedule : Schedule) : Schedule :=
  { schedule with
    eventBindings := schedule.eventBindings ++
      [{ eventName := config.eventName
         intervalMicros := config.intervalMicros
         sources := sources
         nextTick := now + config.intervalMicros }]
    history :=
      { schedule.history with
        added := schedule.history.added ++ [now]
        wrapped := schedule.history.wrapped ||
          sumWraps now config.intervalMicros } }

/-- The last statements of `addEvent`: the binding gets its first tick, is kept
in `event_bindings_` and is put into the queue. -/
def adopt
    (config : EventConfig)
    (sources : List EventSourceBinding)
    (now : UInt64)
    (schedule : Schedule) : Schedule :=
  insertJob schedule.eventBindings.length
    (addBinding config sources now schedule)

/-- A write to `job->next_tick`. -/
def storeNextTick
    (job : Nat)
    (tick : UInt64)
    (schedule : Schedule) : Schedule :=
  { schedule with
    eventBindings := schedule.eventBindings.modify job
      fun binding => { binding with nextTick := tick }
    history :=
      { schedule.history with
        stores := schedule.history.stores ++ [(job, schedule.queue)] } }

/-- Note a sum that the code computes. -/
def noteSum (first second : UInt64) (schedule : Schedule) : Schedule :=
  { schedule with
    history :=
      { schedule.history with
        wrapped := schedule.history.wrapped || sumWraps first second } }

/-- `job->next_tick = job->next_tick + job->interval_micros`. -/
def advanceTick (job : Nat) (schedule : Schedule) : Schedule :=
  storeNextTick job (schedule.nextTick job + schedule.intervalMicros job)
    (noteSum (schedule.nextTick job) (schedule.intervalMicros job) schedule)

/-- `if (job->next_tick < now) job->next_tick = now`. -/
def skipSamples
    (job : Nat)
    (now : UInt64)
    (schedule : Schedule) : Schedule :=
  if schedule.nextTick job < now then storeNextTick job now schedule
  else schedule

/-- Append to the log of the main loop. -/
def logEvent (event : RunEvent) (schedule : Schedule) : Schedule :=
  { schedule with
    history :=
      { schedule.history with log := schedule.history.log ++ [event] } }

/-- The bindings in the queue whose tick is not after `now`. -/
def due (schedule : Schedule) (now : UInt64) : List Nat :=
  schedule.queue.filter fun job => schedule.nextTick job ≤ now

/-- Log that a binding is about to be processed. -/
def logStart (job : Nat) (now : UInt64) : Schedule → Schedule :=
  logEvent (.start job now)

/-- Log that a binding, which is out of the queue, has been processed. -/
def logFinish
    (job : Nat)
    (now : UInt64)
    (schedule : Schedule) : Schedule :=
  logEvent (.finish job (schedule.nextTick job) now (schedule.due now))
    schedule

end Schedule

end Service
end EvCollect
