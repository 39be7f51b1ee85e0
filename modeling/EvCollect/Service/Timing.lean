import Mathlib.Data.List.Induction
import EvCollect.Service.Foreign
import EvCollect.Service.Run

/-!
# When bindings are processed

What the invariant of the main loop says of the timeouts that are handed to
`select`, of the order in which bindings are processed and of how often.
-/

namespace EvCollect
namespace Service

open Process ServiceImpl Schedule

variable {L τ : Type} [World τ]
variable {plugins : Plugins L τ}
variable {calls : List Setup}
variable {world : τ}
variable {service : ServiceImpl τ}

/-! ## The sleep of the main loop -/

/-- A timeout stands for the number of microseconds it was made from. -/
theorem micros_ofMicros (micros : UInt64) :
    (Timeval.ofMicros micros).micros = micros.toNat := by
  have parts := Nat.div_add_mod' micros.toNat 1000000
  simpa [Timeval.ofMicros, Timeval.micros, UInt64.toNat_div,
    UInt64.toNat_mod] using parts

/-- The 64 bit difference of two times is their distance exactly if the first
one is not earlier. -/
theorem toNat_sub_eq_iff (tick now : UInt64) :
    (tick - now).toNat = tick.toNat - now.toNat ↔ now ≤ tick := by
  constructor
  · intro equal
    by_contra late
    have later := UInt64.lt_iff_toNat_lt.mp (UInt64.not_le.mp late)
    have bound := now.toNat_lt
    rw [UInt64.toNat_sub] at equal
    omega
  · exact UInt64.toNat_sub_of_le tick now

/-- The main loop sleeps until the tick of the earliest binding, and does not
sleep if that tick has passed, exactly if the clock reading at the loop head is
not later than that tick. -/
theorem select_timeout_iff
    {now : UInt64}
    {timeout : Timeval}
    (reached : Reaches (serve plugins calls) { world := world }
      (.select now timeout) service) :
    ∃ job, service.queue.head? = some job ∧
      (∀ other < service.eventBindings.length,
        service.key job ≤ service.key other) ∧
      (timeout.micros = service.key job - now.toNat ↔
        now ≤ service.nextTick job) := by
  obtain ⟨inv, busy, equal⟩ := reaches_atPoint plugins reached
  have head := head?_of_ne_nil busy
  refine ⟨service.queue.headD 0, head, ?_, ?_⟩
  · exact fun other valid => inv.head_le head valid
  · rw [equal, micros_ofMicros]
    exact toNat_sub_eq_iff _ _

/-- One binding with one source that is sampled every second. -/
def everySecond : List Setup :=
  [.addEvent
    { eventName := bytes "load"
      intervalMicros := 1000000
      sources :=
        [{ pluginName := bytes "script"
           pluginValue := []
           properties := ⟨[]⟩ }] }]

/-- A script in which the binding is on time and processed until the clock
reads `finished`, and the loop head then reads `now`. -/
def onePass (finished now : UInt64) : List Entry :=
  [{}, {}, {}, {}, {}, {}, { monotonic := 1000000 }, {}, {}, {}, {}, {},
    { monotonic := finished }, {}, { monotonic := now }]

/-- Processing took a second and a half, so that the binding's tick is set to
the present; a microsecond later the loop computes a sleep of 584542 years. -/
theorem overdue_binding_sleeps :
    ∃ service, Reaches (serve (foreignPlugins id) everySecond)
        { world := () }
        (.select 2500001 { sec := 18446744073709, usec := 551615 }) service ∧
      service.queue = [0] ∧ service.key 0 = 2500000 ∧
      (Timeval.micros { sec := 18446744073709, usec := 551615 } ≠
        service.key 0 - (2500001 : UInt64).toNat) := by
  refine ⟨_, reaches_of_point _ _ (onePass 2500000 2500001) ?_, ?_⟩
  · decide
  · decide

/-- A pass that ends in time is followed by a sleep until the next tick. -/
theorem select_timeout_iff_onePass :
    ∃ service : ServiceImpl Unit, ∃ job,
      service.queue.head? = some job ∧
        (∀ other < service.eventBindings.length,
          service.key job ≤ service.key other) ∧
        (Timeval.micros { sec := 0, usec := 499999 } =
            service.key job - (1500001 : UInt64).toNat ↔
          1500001 ≤ service.nextTick job) :=
  have reached : Reaches (serve (foreignPlugins id) everySecond)
      { world := () } (.select 1500001 { sec := 0, usec := 499999 }) _ :=
    reaches_of_point _ _ (onePass 1500000 1500001) (by decide)
  ⟨_, select_timeout_iff reached⟩

/-! ## The order of processing -/

/-- The phase of the main loop at a program point is known to exist. -/
theorem reaches_inv
    {point : Point L}
    (reached : Reaches (serve plugins calls) { world := world } point
      service) :
    ∃ phase, Inv phase service.toSchedule := by
  have known := reaches_atPoint plugins reached
  cases point with
  | head => exact ⟨.idle, known⟩
  | headClock => exact ⟨.idle, known⟩
  | select now timeout => exact ⟨.idle, known.1⟩
  | dueClock => exact ⟨.idle, known⟩
  | process job => exact ⟨.idle, known.1⟩
  | addClock => exact known
  | doneClock => exact known
  | wallClock => exact known
  | round => exact known
  | plugin _ => exact known

/-- At the head of the main loop the queue holds every binding once, ordered by
tick; no tick is written while its binding is in the queue; a binding with a
least tick is processed; and no binding is processed twice while another one is
due. -/
theorem queue_fair
    {point : Point L}
    (reached : Reaches (serve plugins calls) { world := world } point
      service)
    (fits : service.history.wrapped = false) :
    (point = .head →
      service.queue.Perm (List.range service.eventBindings.length) ∧
        Queue.Ordered service.key service.queue) ∧
    (∀ store ∈ service.history.stores, store.1 ∉ store.2) ∧
    (∀ job, point = .process job →
      job < service.eventBindings.length ∧
        ∀ other < service.eventBindings.length,
          service.key job ≤ service.key other) ∧
    NoStarvation service.history.log := by
  obtain ⟨phase, inv⟩ := reaches_inv reached
  refine ⟨?_, inv.outside, ?_, inv.noStarvation fits⟩
  · rintro rfl
    have idle : Inv .idle service.toSchedule := reaches_atPoint plugins reached
    exact ⟨idle.contents, idle.ordered⟩
  · rintro job rfl
    obtain ⟨idle, head⟩ := reaches_atPoint plugins reached
    exact ⟨idle.lt_of_mem (List.mem_of_head? head),
      fun other valid => idle.head_le head valid⟩

/-- Two bindings that are both sampled every second. -/
def twoBindings : List Setup :=
  everySecond ++ everySecond

/-- A script that ends while the second binding is processed, which was due
when the first one had been. -/
def twoPasses : List Entry :=
  [{}, {}, {}, {}, {}, {}, {}, {}, {}, { monotonic := 1000000 }, {}, {}, {},
    {}, {}, {}, {}, {}, {}, {}, {}]

/-- The service in the state where that script ends. -/
def afterTwoPasses : ServiceImpl Unit :=
  (serve (foreignPlugins id) twoBindings twoPasses { world := () }).state

theorem reaches_afterTwoPasses :
    Reaches (serve (foreignPlugins id) twoBindings) { world := () }
      .wallClock afterTwoPasses :=
  reaches_of_point _ _ twoPasses (by decide)

theorem queue_fair_twoPasses :
    (∀ store ∈ afterTwoPasses.history.stores, store.1 ∉ store.2) ∧
      NoStarvation afterTwoPasses.history.log := by
  have fair := queue_fair reaches_afterTwoPasses (by decide)
  exact ⟨fair.2.1, fair.2.2.2⟩

/-! ## The sampling rate -/

/-- Whether a log entry says that a binding starts to be processed by a time. -/
def RunEvent.isStartBy (job time : Nat) : RunEvent → Bool
  | .start other now => other == job && decide (now.toNat ≤ time)
  | .finish _ _ _ _ => false

/-- How often a binding has been sampled by a time. -/
def startsBy (job time : Nat) (log : List RunEvent) : Nat :=
  log.countP (RunEvent.isStartBy job time)

theorem startsBy_le_starts
    (job time : Nat)
    (log : List RunEvent) :
    startsBy job time log ≤ starts job log := by
  apply List.countP_mono_left
  intro event _ counted
  cases event with
  | start other now =>
      simp only [RunEvent.isStartBy, Bool.and_eq_true] at counted
      exact counted.1
  | finish other tick now due => exact counted

/-- If every start comes at least one interval after the tick before it, then
so does the last one that was counted. -/
theorem startsBy_bound
    {job first interval time : Nat}
    {log : List RunEvent}
    (spaced : ∀ before now after, log = before ++ .start job now :: after →
      first + (starts job before + 1) * interval ≤ now.toNat)
    (sampled : startsBy job time log ≠ 0) :
    first + startsBy job time log * interval ≤ time := by
  induction log using List.reverseRecOn with
  | nil => exact absurd rfl sampled
  | append_singleton log event inductionHypothesis =>
      have shorter : ∀ before now after,
          log = before ++ .start job now :: after →
            first + (starts job before + 1) * interval ≤ now.toNat := by
        intro before now after split
        exact spaced before now (after ++ [event]) (by simp [split])
      by_cases counted : event.isStartBy job time
      · have count : startsBy job time (log ++ [event]) =
            startsBy job time log + 1 := by
          simp [startsBy, List.countP_append, counted]
        cases event with
        | finish other tick now due => exact absurd counted (by
            simp [RunEvent.isStartBy])
        | start other now =>
            simp only [RunEvent.isStartBy, Bool.and_eq_true, beq_iff_eq,
              decide_eq_true_eq] at counted
            obtain ⟨rfl, inTime⟩ := counted
            have bound := spaced log now [] rfl
            have fewer := startsBy_le_starts other time log
            rw [count]
            calc first + (startsBy other time log + 1) * interval
                ≤ first + (starts other log + 1) * interval :=
                  Nat.add_le_add_left (Nat.mul_le_mul_right interval
                    (Nat.succ_le_succ fewer)) first
              _ ≤ now.toNat := bound
              _ ≤ time := inTime
      · have count : startsBy job time (log ++ [event]) =
            startsBy job time log := by
          simp [startsBy, List.countP_append, counted]
        rw [count] at sampled ⊢
        exact inductionHypothesis shorter sampled

/-- The rate of sampling: a binding's tick and its processings never run ahead
of its interval, its tick keeps to the interval as long as the binding is on
time, and by any time it has been sampled at most as often as its interval has
passed since it was added. Missed samples are not caught up on: its next tick is
the later one of its last tick plus the interval and of the end of its last
processing, and no processing starts before the end of an earlier one and an
interval for each that came between. -/
theorem sampling_rate
    {point : Point L}
    {job : Nat}
    (reached : Reaches (serve plugins calls) { world := world } point
      service)
    (fits : service.history.wrapped = false)
    (valid : job < service.eventBindings.length) :
    service.addedAt job + (finishes job service.history.log + 1) *
        (service.intervalMicros job).toNat ≤ service.key job ∧
    (service.OnTime job → service.key job =
      service.addedAt job + (finishes job service.history.log + 1) *
        (service.intervalMicros job).toNat) ∧
    (∀ before now after,
      service.history.log = before ++ .start job now :: after →
      service.addedAt job + (starts job before + 1) *
        (service.intervalMicros job).toNat ≤ now.toNat) ∧
    (∀ time, 0 < (service.intervalMicros job).toNat →
      startsBy job time service.history.log ≤
        (time - service.addedAt job) / (service.intervalMicros job).toNat) ∧
    (∀ before tick now due after,
      service.history.log = before ++ .finish job tick now due :: after →
      finishes job after = 0 →
      service.key job =
        max (tick.toNat + (service.intervalMicros job).toNat) now.toNat) ∧
    (∀ before tick now due between now' after,
      service.history.log = before ++ .finish job tick now due :: between ++
        .start job now' :: after →
      now.toNat + finishes job between *
        (service.intervalMicros job).toNat ≤ now'.toNat) := by
  obtain ⟨phase, inv⟩ := reaches_inv reached
  have timely := inv.timely fits
  have unhurried := inv.unhurried fits
  refine ⟨timely.tick_ge job valid, timely.tick_eq job valid,
    fun before now after => timely.start_ge before job now after, ?_,
    fun before tick now due after => unhurried.tick_eq before job tick now due
      after,
    fun before tick now due between now' after => unhurried.start_ge before job
      tick now due between now' after⟩
  intro time positive
  rw [Nat.le_div_iff_mul_le positive]
  by_cases sampled : startsBy job time service.history.log = 0
  · simp [sampled]
  · have bound := startsBy_bound
      (fun before now after => timely.start_ge before job now after) sampled
    omega

theorem sampling_rate_twoPasses :
    startsBy 1 1500000 afterTwoPasses.history.log ≤
      (1500000 - afterTwoPasses.addedAt 1) /
        (afterTwoPasses.intervalMicros 1).toNat :=
  (sampling_rate reaches_afterTwoPasses (by decide) (by decide)).2.2.2.1
    1500000 (by decide)

end Service
end EvCollect
