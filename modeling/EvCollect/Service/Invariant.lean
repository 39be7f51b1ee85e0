import EvCollect.Service.Schedule

/-!
# Invariants of the schedule

What holds of the queue, of the ticks and of the log of the main loop while a
pass of the loop takes a binding off the queue, processes it and puts it back.
The steps of a pass are pure functions on the schedule, so each of them has one
lemma that says how it moves the invariant from one phase of a pass to the next.
-/

namespace EvCollect
namespace Service

/-! ## Reading the log -/

/-- Whether a log entry says that a binding starts to be processed. -/
def RunEvent.isStart (job : Nat) : RunEvent → Bool
  | .start other _ => other == job
  | .finish _ _ _ _ => false

/-- Whether a log entry says that a binding has been processed. -/
def RunEvent.isFinish (job : Nat) : RunEvent → Bool
  | .start _ _ => false
  | .finish other _ _ _ => other == job

/-- How often a binding has started to be processed. -/
def starts (job : Nat) (log : List RunEvent) : Nat :=
  log.countP (RunEvent.isStart job)

/-- How often a binding has been processed. -/
def finishes (job : Nat) (log : List RunEvent) : Nat :=
  log.countP (RunEvent.isFinish job)

@[simp] theorem starts_nil (job : Nat) : starts job [] = 0 := rfl

@[simp] theorem finishes_nil (job : Nat) : finishes job [] = 0 := rfl

@[simp] theorem starts_append_start
    (job other : Nat)
    (log : List RunEvent)
    (now : UInt64) :
    starts job (log ++ [.start other now]) =
      starts job log + if other = job then 1 else 0 := by
  simp [starts, RunEvent.isStart, List.countP_append, List.countP_cons]

@[simp] theorem starts_append_finish
    (job other : Nat)
    (log : List RunEvent)
    (tick now : UInt64)
    (due : List Nat) :
    starts job (log ++ [.finish other tick now due]) = starts job log := by
  simp [starts, RunEvent.isStart, List.countP_append]

@[simp] theorem finishes_append_start
    (job other : Nat)
    (log : List RunEvent)
    (now : UInt64) :
    finishes job (log ++ [.start other now]) = finishes job log := by
  simp [finishes, RunEvent.isFinish, List.countP_append]

@[simp] theorem finishes_append_finish
    (job other : Nat)
    (log : List RunEvent)
    (tick now : UInt64)
    (due : List Nat) :
    finishes job (log ++ [.finish other tick now due]) =
      finishes job log + if other = job then 1 else 0 := by
  simp [finishes, RunEvent.isFinish, List.countP_append, List.countP_cons]

/-- Splitting a log with one more entry at an entry: either the entry is the new
one, or the split is one of the old log. -/
theorem append_singleton_split
    {log before after : List α}
    {last item : α}
    (split : log ++ [last] = before ++ item :: after) :
    (before = log ∧ item = last ∧ after = []) ∨
      ∃ rest, after = rest ++ [last] ∧ log = before ++ item :: rest := by
  rcases List.eq_nil_or_concat' after with rfl | ⟨rest, final, rfl⟩
  · left
    obtain ⟨equal, single⟩ := List.append_inj' split rfl
    exact ⟨equal.symm, (List.cons.inj single).1.symm, rfl⟩
  · right
    rw [← List.cons_append, ← List.append_assoc] at split
    obtain ⟨equal, single⟩ := List.append_inj' split rfl
    refine ⟨rest, ?_, equal⟩
    rw [(List.cons.inj single).1]

namespace Schedule

/-! ## The steps of a pass -/

@[simp] theorem length_storeNextTick
    (schedule : Schedule)
    (job : Nat)
    (tick : UInt64) :
    (schedule.storeNextTick job tick).eventBindings.length =
      schedule.eventBindings.length := by
  simp [storeNextTick]

@[simp] theorem intervalMicros_storeNextTick
    (schedule : Schedule)
    (job other : Nat)
    (tick : UInt64) :
    (schedule.storeNextTick job tick).intervalMicros other =
      schedule.intervalMicros other := by
  simp only [intervalMicros, binding, storeNextTick,
    List.getD_eq_getElem?_getD, List.getElem?_modify]
  cases schedule.eventBindings[other]? with
  | none => rfl
  | some found => by_cases same : job = other <;> simp [same]

/-- A write to a binding's tick is read back. -/
theorem nextTick_storeNextTick_self
    (schedule : Schedule)
    {job : Nat}
    (valid : job < schedule.eventBindings.length)
    (tick : UInt64) :
    (schedule.storeNextTick job tick).nextTick job = tick := by
  simp [nextTick, binding, storeNextTick, List.getD_eq_getElem?_getD, valid]

/-- A write to a binding's tick changes no other tick. -/
theorem nextTick_storeNextTick_ne
    (schedule : Schedule)
    {job other : Nat}
    (different : other ≠ job)
    (tick : UInt64) :
    (schedule.storeNextTick job tick).nextTick other =
      schedule.nextTick other := by
  simp only [nextTick, binding, storeNextTick,
    List.getD_eq_getElem?_getD, List.getElem?_modify, if_neg different.symm]
  simp

theorem sumWraps_eq_false {first second : UInt64} :
    sumWraps first second = false ↔
      first.toNat + second.toNat < 2 ^ 64 := by
  simp [sumWraps]

/-- A sum that is not truncated is the sum of the numbers. -/
theorem toNat_add_of_not_wraps
    {first second : UInt64}
    (fits : sumWraps first second = false) :
    (first + second).toNat = first.toNat + second.toNat := by
  rw [UInt64.toNat_add, Nat.mod_eq_of_lt (sumWraps_eq_false.mp fits)]

/-! ## The invariant -/

/-- The clock reading at which a binding was added. -/
def addedAt (schedule : Schedule) (job : Nat) : Nat :=
  (schedule.history.added.getD job 0).toNat

/-- The tick of a binding that has been processed `count` times, if it was
never late. -/
def tickAfter (schedule : Schedule) (job count : Nat) : Nat :=
  schedule.addedAt job + (count + 1) * (schedule.intervalMicros job).toNat

/-- No processing of the binding ended after the tick that follows it. -/
def OnTime (schedule : Schedule) (job : Nat) : Prop :=
  ∀ tick now due, RunEvent.finish job tick now due ∈ schedule.history.log →
    now.toNat ≤ tick.toNat + (schedule.intervalMicros job).toNat

/-- One more end of a processing is one more interval. -/
theorem tickAfter_append_finish
    (schedule : Schedule)
    (job other : Nat)
    (log : List RunEvent)
    (tick now : UInt64)
    (due : List Nat) :
    schedule.tickAfter other (finishes other (log ++ [.finish job tick now due])) =
      schedule.tickAfter other (finishes other log) +
        if job = other then (schedule.intervalMicros other).toNat else 0 := by
  rw [finishes_append_finish]
  by_cases same : job = other
  · simp only [same, if_true, tickAfter]
    rw [Nat.add_mul (finishes other log + 1) 1]
    omega
  · simp [same]

/-- Ticks and starts of the bindings against their intervals. -/
structure Timely (schedule : Schedule) : Prop where
  tick_ge : ∀ job < schedule.eventBindings.length,
    schedule.tickAfter job (finishes job schedule.history.log) ≤
      schedule.key job
  tick_eq : ∀ job < schedule.eventBindings.length, schedule.OnTime job →
    schedule.key job =
      schedule.tickAfter job (finishes job schedule.history.log)
  start_ge : ∀ before job now after,
    schedule.history.log = before ++ .start job now :: after →
    schedule.tickAfter job (starts job before) ≤ now.toNat

/-- No samples are caught up on: when a processing of a binding has ended, its
next tick is not before that end, and from there it keeps to its interval. -/
structure Unhurried (schedule : Schedule) : Prop where
  tick_eq : ∀ before job tick now due after,
    schedule.history.log = before ++ .finish job tick now due :: after →
    finishes job after = 0 →
    schedule.key job =
      max (tick.toNat + (schedule.intervalMicros job).toNat) now.toNat
  tick_ge : ∀ before job tick now due after,
    schedule.history.log = before ++ .finish job tick now due :: after →
    now.toNat + finishes job after * (schedule.intervalMicros job).toNat ≤
      schedule.key job
  start_ge : ∀ before job tick now due between now' after,
    schedule.history.log = before ++ .finish job tick now due :: between ++
      .start job now' :: after →
    now.toNat + finishes job between * (schedule.intervalMicros job).toNat ≤
      now'.toNat

/-- Where a pass of the main loop stands. -/
inductive Phase
  /-- No binding is being processed. -/
  | idle
  /-- The binding at the head of the queue is being processed. -/
  | busy (job : Nat)
  /-- The binding has been processed and is out of the queue. -/
  | out (job : Nat)
  deriving DecidableEq

/-- How many processings of a binding have started and not ended. -/
def Phase.current (job : Nat) : Phase → Nat
  | .idle => 0
  | .busy other => if other = job then 1 else 0
  | .out other => if other = job then 1 else 0

/-- The bindings that are out of the queue. -/
def Phase.absent : Phase → List Nat
  | .idle => []
  | .busy _ => []
  | .out job => [job]

/-- Every binding that was due when a binding's processing ended has since been
processed, unless it still stands before that binding in the queue, or it is
just being put back, or that binding has been processed again. -/
def Waiting (phase : Phase) (schedule : Schedule) : Prop :=
  ∀ before job tick now due after,
    schedule.history.log = before ++ .finish job tick now due :: after →
    (∀ now', RunEvent.start job now' ∉ after) →
    ∀ other ∈ due, (∃ tick' now' due',
        RunEvent.finish other tick' now' due' ∈ after) ∨
      Queue.Precedes schedule.queue other job ∨ other ∈ phase.absent

/-- Between two starts of a binding, every binding is processed that was due
when the first of these processings ended. -/
def NoStarvation (log : List RunEvent) : Prop :=
  ∀ before job tick now due between now' after,
    log = before ++ .finish job tick now due :: between ++
      .start job now' :: after →
    ∀ other ∈ due, ∃ tick' now'' due',
      RunEvent.finish other tick' now'' due' ∈ between

/-- The invariant of the main loop in a phase of a pass. -/
structure Inv (phase : Phase) (schedule : Schedule) : Prop where
  contents : (phase.absent ++ schedule.queue).Perm
    (List.range schedule.eventBindings.length)
  ordered : Queue.Ordered schedule.key schedule.queue
  head : ∀ job, phase = .busy job → schedule.queue.head? = some job
  outside : ∀ store ∈ schedule.history.stores, store.1 ∉ store.2
  added_length :
    schedule.history.added.length = schedule.eventBindings.length
  counts : ∀ job, starts job schedule.history.log =
    finishes job schedule.history.log + phase.current job
  timely : schedule.history.wrapped = false → schedule.Timely
  unhurried : schedule.history.wrapped = false → schedule.Unhurried
  waiting : schedule.history.wrapped = false → schedule.Waiting phase
  noStarvation : schedule.history.wrapped = false →
    NoStarvation schedule.history.log

namespace Inv

variable {phase : Phase} {schedule : Schedule} {job : Nat}

/-- No binding is listed twice. -/
theorem nodup (inv : Inv phase schedule) :
    (phase.absent ++ schedule.queue).Nodup :=
  inv.contents.nodup_iff.mpr List.nodup_range

theorem lt_of_mem
    (inv : Inv phase schedule)
    (present : job ∈ schedule.queue) :
    job < schedule.eventBindings.length :=
  List.mem_range.mp (inv.contents.mem_iff.mp (List.mem_append_right _ present))

/-- The binding that is being processed is one of the bindings, -/
theorem lt_of_out
    (inv : Inv (.out job) schedule) :
    job < schedule.eventBindings.length :=
  List.mem_range.mp (inv.contents.mem_iff.mp (by simp [Phase.absent]))

/-- and not in the queue. -/
theorem not_mem_of_out
    (inv : Inv (.out job) schedule) :
    job ∉ schedule.queue := by
  have nodup := inv.nodup
  simp only [Phase.absent, List.singleton_append, List.nodup_cons] at nodup
  exact nodup.1

/-- Between two passes the binding at the head of the queue has a least tick. -/
theorem head_le
    (inv : Inv .idle schedule)
    (head : schedule.queue.head? = some job)
    {other : Nat}
    (valid : other < schedule.eventBindings.length) :
    schedule.key job ≤ schedule.key other := by
  have present : other ∈ schedule.queue :=
    inv.contents.mem_iff.mpr (List.mem_range.mpr valid)
  obtain ⟨rest, split⟩ := List.head?_eq_some_iff.mp head
  have ordered := inv.ordered
  rw [split] at ordered present
  exact ordered.head_le present

/-- Before the main loop has run nothing has to be caught up on. -/
theorem unhurried_of_fresh (fresh : schedule.history.log = []) :
    schedule.Unhurried where
  tick_eq := fun before job tick now due after split => by
    simp [fresh] at split
  tick_ge := fun before job tick now due after split => by
    simp [fresh] at split
  start_ge := fun before job tick now due between now' after split => by
    simp [fresh] at split

/-- The invariant holds before anything was added. -/
theorem empty : Inv .idle ({} : Schedule) where
  contents := List.Perm.refl _
  ordered := List.Pairwise.nil
  head := by simp
  outside := by simp
  added_length := rfl
  counts := by simp [Phase.current]
  timely := fun _ =>
    { tick_ge := by simp
      tick_eq := by simp
      start_ge := by simp }
  unhurried := fun _ => unhurried_of_fresh rfl
  waiting := fun _ before job tick now due after split => by simp at split
  noStarvation := fun _ before job tick now due between now' after split => by
    simp at split

/-! ## Adding a binding -/

theorem binding_addBinding_of_lt
    (config : EventConfig)
    (sources : List EventSourceBinding)
    (now : UInt64)
    (valid : job < schedule.eventBindings.length) :
    (addBinding config sources now schedule).binding job =
      schedule.binding job := by
  simp [binding, addBinding, List.getD_eq_getElem?_getD,
    List.getElem?_append_left valid]

theorem binding_addBinding_length
    (config : EventConfig)
    (sources : List EventSourceBinding)
    (now : UInt64) :
    (addBinding config sources now schedule).binding
        schedule.eventBindings.length =
      { eventName := config.eventName
        intervalMicros := config.intervalMicros
        sources := sources
        nextTick := now + config.intervalMicros } := by
  simp [binding, addBinding]

theorem tickAfter_addBinding_of_lt
    (inv : Inv phase schedule)
    (config : EventConfig)
    (sources : List EventSourceBinding)
    (now : UInt64)
    (count : Nat)
    (valid : job < schedule.eventBindings.length) :
    (addBinding config sources now schedule).tickAfter job count =
      schedule.tickAfter job count := by
  have addedValid : job < schedule.history.added.length := by
    rw [inv.added_length]
    exact valid
  simp only [tickAfter, addedAt, intervalMicros,
    binding_addBinding_of_lt config sources now valid]
  simp [addBinding, List.getD_eq_getElem?_getD,
    List.getElem?_append_left addedValid]

theorem tickAfter_addBinding_length
    (inv : Inv phase schedule)
    (config : EventConfig)
    (sources : List EventSourceBinding)
    (now : UInt64) :
    (addBinding config sources now schedule).tickAfter
        schedule.eventBindings.length 0 =
      now.toNat + config.intervalMicros.toNat := by
  simp only [tickAfter, addedAt, intervalMicros, binding_addBinding_length]
  simp [addBinding, List.getD_eq_getElem?_getD, ← inv.added_length]

/-- The new binding's first tick is one interval after it was added. -/
theorem timely_addBinding
    (inv : Inv phase schedule)
    (fresh : schedule.history.log = [])
    (config : EventConfig)
    (sources : List EventSourceBinding)
    (now : UInt64)
    (fits : (addBinding config sources now schedule).history.wrapped =
      false) :
    (addBinding config sources now schedule).Timely := by
  obtain ⟨fitsBefore, fitsNow⟩ : schedule.history.wrapped = false ∧
      sumWraps now config.intervalMicros = false := by
    simpa [addBinding] using fits
  have timely := inv.timely fitsBefore
  have noLog : (addBinding config sources now schedule).history.log = [] :=
    fresh
  have length : (addBinding config sources now schedule).eventBindings.length =
      schedule.eventBindings.length + 1 := by
    simp [addBinding]
  have newTick : (addBinding config sources now schedule).key
      schedule.eventBindings.length =
        (addBinding config sources now schedule).tickAfter
          schedule.eventBindings.length 0 := by
    rw [tickAfter_addBinding_length inv, key, nextTick,
      binding_addBinding_length]
    exact toNat_add_of_not_wraps fitsNow
  have oldTick : ∀ job < schedule.eventBindings.length,
      (addBinding config sources now schedule).key job = schedule.key job := by
    intro job valid
    rw [key, key, nextTick, nextTick,
      binding_addBinding_of_lt config sources now valid]
  refine ⟨?_, ?_, ?_⟩
  · intro job valid
    rw [noLog, finishes_nil]
    rcases Nat.lt_or_eq_of_le (Nat.lt_succ_iff.mp (length ▸ valid)) with
      old | rfl
    · rw [oldTick job old, tickAfter_addBinding_of_lt inv _ _ _ _ old]
      have bound := timely.tick_ge job old
      rwa [fresh, finishes_nil] at bound
    · exact newTick.ge
  · intro job valid _
    rw [noLog, finishes_nil]
    rcases Nat.lt_or_eq_of_le (Nat.lt_succ_iff.mp (length ▸ valid)) with
      old | rfl
    · rw [oldTick job old, tickAfter_addBinding_of_lt inv _ _ _ _ old]
      have exact' := timely.tick_eq job old (by simp [OnTime, fresh])
      rwa [fresh, finishes_nil] at exact'
    · exact newTick
  · intro before job now' after split
    rw [noLog] at split
    simp at split

/-- Adding a binding before the main loop has run keeps the invariant. -/
theorem adopt
    (inv : Inv .idle schedule)
    (fresh : schedule.history.log = [])
    (config : EventConfig)
    (sources : List EventSourceBinding)
    (now : UInt64) :
    Inv .idle (Schedule.adopt config sources now schedule) := by
  have agree : ∀ job ∈ schedule.queue,
      (addBinding config sources now schedule).key job = schedule.key job := by
    intro job present
    rw [key, key, nextTick, nextTick,
      binding_addBinding_of_lt config sources now (inv.lt_of_mem present)]
  have noLog : (Schedule.adopt config sources now schedule).history.log = [] :=
    fresh
  refine
    { contents := ?_
      ordered := (inv.ordered.congr agree).insertLast _
      head := by simp
      outside := inv.outside
      added_length := ?_
      counts := by simp [noLog, Phase.current]
      timely := ?_
      unhurried := fun _ => unhurried_of_fresh noLog
      waiting := ?_
      noStarvation := ?_ }
  · have perm := (Queue.insertLast_perm
      (addBinding config sources now schedule).key
      schedule.eventBindings.length schedule.queue).trans
        ((inv.contents.cons schedule.eventBindings.length).trans
          (List.perm_append_singleton _ _).symm)
    simpa [Schedule.adopt, insertJob, addBinding, Phase.absent,
      List.range_succ] using perm
  · simp [Schedule.adopt, insertJob, addBinding, inv.added_length]
  · intro fits
    have timely := timely_addBinding inv fresh config sources now fits
    exact ⟨timely.tick_ge, timely.tick_eq, timely.start_ge⟩
  · intro _ before job tick now' due after split
    rw [noLog] at split
    simp at split
  · intro _ before job tick now' due between now'' after split
    rw [noLog] at split
    simp at split

/-! ## A pass of the main loop -/

/-- While a binding is processed, no binding is waiting to be processed before
the one at the head of the queue. -/
theorem not_precedes_head
    (inv : Inv phase schedule)
    (head : schedule.queue.head? = some job)
    (other : Nat) :
    ¬Queue.Precedes schedule.queue other job := by
  intro precedes
  have nodup : schedule.queue.Nodup := (List.nodup_append.mp inv.nodup).2.1
  obtain ⟨rest, split⟩ := List.head?_eq_some_iff.mp head
  rw [split] at precedes nodup
  exact precedes.ne_head nodup rfl

/-- Before a binding starts again, all bindings have been processed that were
due when its last processing ended. -/
theorem noStarvation_logStart
    (inv : Inv .idle schedule)
    (head : schedule.queue.head? = some job)
    (now : UInt64)
    (fits : schedule.history.wrapped = false) :
    NoStarvation (schedule.history.log ++ [.start job now]) := by
  intro before job' tick now' due between now'' after split other present
  rw [List.append_assoc, List.cons_append, ← List.cons_append,
    ← List.append_assoc] at split
  rcases append_singleton_split split with
    ⟨old, equal, rfl⟩ | ⟨rest, rfl, old⟩
  · obtain ⟨rfl, rfl⟩ := RunEvent.start.inj equal
    by_cases again : ∃ time, RunEvent.start job' time ∈ between
    · obtain ⟨time, member⟩ := again
      obtain ⟨first, second, rfl⟩ := List.append_of_mem member
      obtain ⟨tick', now', due', finished⟩ := inv.noStarvation fits before job'
        tick now' due first time second (by simp [← old]) other present
      exact ⟨tick', now', due', List.mem_append_left _ finished⟩
    · rcases inv.waiting fits before job' tick now' due between old.symm
        (fun time member => again ⟨time, member⟩) other present with
        finished | precedes | absent
      · exact finished
      · exact absurd precedes (inv.not_precedes_head head other)
      · simp [Phase.absent] at absent
  · exact inv.noStarvation fits before job' tick now' due between now'' rest
      (by simpa using old) other present

/-- A binding that is due starts no earlier than it may. -/
theorem unhurried_logStart
    (inv : Inv .idle schedule)
    (now : UInt64)
    (isDue : schedule.key job ≤ now.toNat)
    (fits : schedule.history.wrapped = false) :
    (schedule.logStart job now).Unhurried := by
  have unhurried := inv.unhurried fits
  refine ⟨?_, ?_, ?_⟩
  · intro before job' tick now' due after split last
    rcases append_singleton_split split with
      ⟨_, equal, _⟩ | ⟨rest, rfl, old⟩
    · simp at equal
    · rw [finishes_append_start] at last
      exact unhurried.tick_eq before job' tick now' due rest old last
  · intro before job' tick now' due after split
    rcases append_singleton_split split with
      ⟨_, equal, _⟩ | ⟨rest, rfl, old⟩
    · simp at equal
    · rw [finishes_append_start]
      exact unhurried.tick_ge before job' tick now' due rest old
  · intro before job' tick now' due between now'' after split
    rw [List.append_assoc, List.cons_append, ← List.cons_append,
      ← List.append_assoc] at split
    rcases append_singleton_split split with
      ⟨old, equal, rfl⟩ | ⟨rest, rfl, old⟩
    · obtain ⟨rfl, rfl⟩ := RunEvent.start.inj equal
      exact (unhurried.tick_ge before job' tick now' due between
        old.symm).trans isDue
    · exact unhurried.start_ge before job' tick now' due between now'' rest
        (by simpa using old)

/-- Starting to process the binding at the head of the queue, which is due. -/
theorem logStart
    (inv : Inv .idle schedule)
    (head : schedule.queue.head? = some job)
    (now : UInt64)
    (isDue : schedule.key job ≤ now.toNat) :
    Inv (.busy job) (schedule.logStart job now) := by
  refine
    { contents := inv.contents
      ordered := inv.ordered
      head := ?_
      outside := inv.outside
      added_length := inv.added_length
      counts := ?_
      timely := ?_
      unhurried := inv.unhurried_logStart now isDue
      waiting := ?_
      noStarvation := inv.noStarvation_logStart head now }
  · intro other equal
    cases equal
    exact head
  · intro other
    have counts := inv.counts other
    simp only [Schedule.logStart, logEvent, starts_append_start,
      finishes_append_start, Phase.current] at counts ⊢
    omega
  · intro fits
    have timely := inv.timely fits
    refine ⟨?_, ?_, ?_⟩
    · intro other valid
      simp only [Schedule.logStart, logEvent, finishes_append_start]
      exact timely.tick_ge other valid
    · intro other valid onTime
      simp only [Schedule.logStart, logEvent, finishes_append_start]
      apply timely.tick_eq other valid
      intro tick now' due member
      exact onTime tick now' due (List.mem_append_left _ member)
    · intro before other now' after split
      rcases append_singleton_split split with
        ⟨rfl, equal, rfl⟩ | ⟨rest, rfl, old⟩
      · obtain ⟨rfl, rfl⟩ := RunEvent.start.inj equal
        have count := inv.counts other
        have valid := inv.lt_of_mem (List.mem_of_head? head)
        rw [count]
        exact (timely.tick_ge other valid).trans isDue
      · exact timely.start_ge before other now' rest old
  · intro fits before job' tick now' due after split unstarted other present
    rcases append_singleton_split split with
      ⟨_, equal, _⟩ | ⟨rest, rfl, old⟩
    · simp at equal
    · rcases inv.waiting fits before job' tick now' due rest old
        (fun time member => unstarted time (List.mem_append_left _ member))
        other present with
        ⟨tick', now'', due', finished⟩ | precedes | absent
      · exact Or.inl ⟨tick', now'', due', List.mem_append_left _ finished⟩
      · exact Or.inr (Or.inl precedes)
      · simp [Phase.absent] at absent

/-- Taking the processed binding off the queue. -/
theorem eraseBegin
    (inv : Inv (.busy job) schedule) :
    Inv (.out job) schedule.eraseBegin := by
  obtain ⟨rest, split⟩ := List.head?_eq_some_iff.mp (inv.head job rfl)
  have contents := inv.contents
  have ordered := inv.ordered
  rw [split] at contents ordered
  refine
    { contents := ?_
      ordered := ?_
      head := by simp
      outside := inv.outside
      added_length := inv.added_length
      counts := inv.counts
      timely := ?_
      unhurried := ?_
      waiting := ?_
      noStarvation := inv.noStarvation }
  · simpa [Schedule.eraseBegin, split, Phase.absent] using contents
  · have erased : schedule.eraseBegin.queue = rest := by
      simp [Schedule.eraseBegin, split]
    rw [erased]
    exact ordered.tail
  · intro fits
    have timely := inv.timely fits
    exact ⟨timely.tick_ge, timely.tick_eq, timely.start_ge⟩
  · intro fits
    have unhurried := inv.unhurried fits
    exact ⟨unhurried.tick_eq, unhurried.tick_ge, unhurried.start_ge⟩
  · intro fits before job' tick now due after old unstarted other present
    rcases inv.waiting fits before job' tick now due after old unstarted
      other present with finished | precedes | absent
    · exact Or.inl finished
    · by_cases equal : other = job
      · exact Or.inr (Or.inr (by simp [Phase.absent, equal]))
      · rw [split] at precedes
        refine Or.inr (Or.inl ?_)
        simpa [Schedule.eraseBegin, split] using precedes.of_cons equal
    · simp [Phase.absent] at absent

end Inv

/-- The rest of a pass once the clock was read after the processing: log the
end, compute the next tick, and put the binding back. -/
def finishPass (job : Nat) (now : UInt64) (schedule : Schedule) : Schedule :=
  (((schedule.logFinish job now).advanceTick job).skipSamples job
    now).insertJob job

/-! ### The next tick -/

/-- What the two writes to a binding's tick do to the schedule. -/
structure Retick
    (job : Nat)
    (now : UInt64)
    (before after : Schedule) : Prop where
  length : after.eventBindings.length = before.eventBindings.length
  queue : after.queue = before.queue
  log : after.history.log = before.history.log
  added : after.history.added = before.history.added
  interval : ∀ other,
    after.intervalMicros other = before.intervalMicros other
  other : ∀ other ≠ job, after.key other = before.key other
  stores : ∀ store ∈ after.history.stores,
    store ∈ before.history.stores ∨ store = (job, before.queue)
  wrapped : after.history.wrapped = false → before.history.wrapped = false
  tick : after.history.wrapped = false → after.key job =
    max (before.key job + (before.intervalMicros job).toNat) now.toNat

theorem advanceTick_fits
    {schedule : Schedule}
    {job : Nat}
    (fits : (schedule.advanceTick job).history.wrapped = false) :
    schedule.history.wrapped = false ∧
      sumWraps (schedule.nextTick job) (schedule.intervalMicros job) =
        false := by
  simpa [advanceTick, storeNextTick, noteSum] using fits

theorem nextTick_advanceTick
    {schedule : Schedule}
    {job : Nat}
    (valid : job < schedule.eventBindings.length) :
    (schedule.advanceTick job).nextTick job =
      schedule.nextTick job + schedule.intervalMicros job := by
  have noted : job < (noteSum (schedule.nextTick job)
      (schedule.intervalMicros job) schedule).eventBindings.length := valid
  exact nextTick_storeNextTick_self _ noted _

/-- The next tick is the old tick plus the interval, or the clock reading if
that is later. -/
theorem key_skipSamples_advanceTick
    {schedule : Schedule}
    {job : Nat}
    (valid : job < schedule.eventBindings.length)
    (now : UInt64)
    (fits : (schedule.advanceTick job).history.wrapped = false) :
    ((schedule.advanceTick job).skipSamples job now).key job =
      max (schedule.key job + (schedule.intervalMicros job).toNat)
        now.toNat := by
  have sum := toNat_add_of_not_wraps (advanceTick_fits fits).2
  have advanced := nextTick_advanceTick valid
  have validAfter : job < (schedule.advanceTick job).eventBindings.length := by
    simpa [advanceTick, noteSum] using valid
  unfold skipSamples
  by_cases late : (schedule.advanceTick job).nextTick job < now
  · rw [if_pos late, key, nextTick_storeNextTick_self _ validAfter, key, ← sum]
    rw [advanced] at late
    exact (max_eq_right (UInt64.lt_iff_toNat_lt.mp late).le).symm
  · rw [if_neg late, key, advanced, key, ← sum]
    rw [advanced] at late
    exact (max_eq_left
      (UInt64.le_iff_toNat_le.mp (UInt64.not_lt.mp late))).symm

theorem retick
    (schedule : Schedule)
    {job : Nat}
    (valid : job < schedule.eventBindings.length)
    (now : UInt64) :
    Retick job now schedule
      ((schedule.advanceTick job).skipSamples job now) := by
  have wrapped : ((schedule.advanceTick job).skipSamples job
      now).history.wrapped = (schedule.advanceTick job).history.wrapped := by
    unfold skipSamples
    split <;> rfl
  refine
    { length := ?_
      queue := ?_
      log := ?_
      added := ?_
      interval := ?_
      other := ?_
      stores := ?_
      wrapped := fun fits => (advanceTick_fits (wrapped ▸ fits)).1
      tick := fun fits =>
        key_skipSamples_advanceTick valid now (wrapped ▸ fits) }
  · unfold skipSamples
    split <;> simp [advanceTick, noteSum]
  · unfold skipSamples
    split <;> rfl
  · unfold skipSamples
    split <;> rfl
  · unfold skipSamples
    split <;> rfl
  · intro other
    unfold skipSamples
    split <;> simp only [advanceTick, intervalMicros_storeNextTick] <;> rfl
  · intro other different
    unfold skipSamples
    split <;>
      simp only [key, advanceTick,
        nextTick_storeNextTick_ne _ different] <;> rfl
  · intro store member
    unfold skipSamples at member
    split at member <;>
      simp only [storeNextTick, advanceTick, noteSum, List.mem_append,
        List.mem_singleton] at member <;> tauto

theorem Retick.tickAfter
    {before after : Schedule}
    {job : Nat}
    {now : UInt64}
    (ticked : Retick job now before after)
    (other count : Nat) :
    after.tickAfter other count = before.tickAfter other count := by
  simp only [Schedule.tickAfter, addedAt, ticked.interval, ticked.added]

/-! ### Putting the binding back -/

namespace Inv

variable {schedule : Schedule} {job : Nat}

/-- What the end of a pass does to the ticks, -/
theorem retick_finishPass
    (inv : Inv (.out job) schedule)
    (now : UInt64) :
    Retick job now (schedule.logFinish job now)
      (((schedule.logFinish job now).advanceTick job).skipSamples job now) :=
  retick (schedule.logFinish job now) inv.lt_of_out now

/-- and to the log. -/
theorem log_finishPass
    (inv : Inv (.out job) schedule)
    (now : UInt64) :
    (schedule.finishPass job now).history.log =
      schedule.history.log ++
        [.finish job (schedule.nextTick job) now (schedule.due now)] :=
  (inv.retick_finishPass now).log

/-- The bindings in the queue keep their ticks. -/
theorem key_skipSamples_queued
    (inv : Inv (.out job) schedule)
    (now : UInt64) :
    ∀ other ∈ schedule.queue,
      (((schedule.logFinish job now).advanceTick job).skipSamples job
        now).key other = schedule.key other := by
  intro other present
  apply (inv.retick_finishPass now).other other
  rintro rfl
  exact inv.not_mem_of_out present

/-- The tick of a processed binding, and of the others, after a pass. -/
theorem timely_finishPass
    (inv : Inv (.out job) schedule)
    (now : UInt64)
    (fits : (schedule.finishPass job now).history.wrapped = false) :
    (schedule.finishPass job now).Timely := by
  have ticked := inv.retick_finishPass now
  have log := inv.log_finishPass now
  have length : (schedule.finishPass job now).eventBindings.length =
      schedule.eventBindings.length := ticked.length
  have tickAfter : ∀ other count,
      (schedule.finishPass job now).tickAfter other count =
        schedule.tickAfter other count := ticked.tickAfter
  have tick : (schedule.finishPass job now).key job =
      max (schedule.key job + (schedule.intervalMicros job).toNat)
        now.toNat := ticked.tick fits
  have others : ∀ other ≠ job,
      (schedule.finishPass job now).key other = schedule.key other :=
    ticked.other
  have timely := inv.timely (ticked.wrapped fits)
  refine ⟨?_, ?_, ?_⟩
  · intro other validOther
    rw [tickAfter, log, tickAfter_append_finish]
    rw [length] at validOther
    have bound := timely.tick_ge other validOther
    by_cases same : job = other
    · subst same
      rw [tick, if_pos rfl]
      omega
    · rw [others other (Ne.symm same), if_neg same]
      exact bound
  · intro other validOther onTime
    rw [tickAfter, log, tickAfter_append_finish]
    rw [length] at validOther
    have interval : (schedule.finishPass job now).intervalMicros other =
        schedule.intervalMicros other := ticked.interval other
    have exact' := timely.tick_eq other validOther (by
      intro tick' now' due member
      have bound := onTime tick' now' due (by
        rw [log]
        exact List.mem_append_left _ member)
      rwa [interval] at bound)
    by_cases same : job = other
    · subst same
      have bound := onTime (schedule.nextTick job) now (schedule.due now) (by
        rw [log]
        simp)
      rw [interval] at bound
      rw [tick, if_pos rfl, ← exact']
      exact max_eq_left bound
    · rw [others other (Ne.symm same), if_neg same]
      exact exact'
  · intro before other now' after split
    rw [log] at split
    rw [tickAfter]
    rcases append_singleton_split split with
      ⟨_, equal, _⟩ | ⟨rest, _, old⟩
    · simp at equal
    · exact timely.start_ge before other now' rest old

/-- The tick of a processed binding is not before the end of its processing. -/
theorem unhurried_finishPass
    (inv : Inv (.out job) schedule)
    (now : UInt64)
    (fits : (schedule.finishPass job now).history.wrapped = false) :
    (schedule.finishPass job now).Unhurried := by
  have ticked := inv.retick_finishPass now
  have log := inv.log_finishPass now
  have interval : ∀ other, (schedule.finishPass job now).intervalMicros other =
      schedule.intervalMicros other := ticked.interval
  have tick : (schedule.finishPass job now).key job =
      max (schedule.key job + (schedule.intervalMicros job).toNat)
        now.toNat := ticked.tick fits
  have others : ∀ other ≠ job,
      (schedule.finishPass job now).key other = schedule.key other :=
    ticked.other
  have unhurried := inv.unhurried (ticked.wrapped fits)
  refine ⟨?_, ?_, ?_⟩
  · intro before other tick' now' due after split last
    rw [log] at split
    rw [interval]
    rcases append_singleton_split split with
      ⟨_, equal, _⟩ | ⟨rest, rfl, old⟩
    · obtain ⟨rfl, rfl, rfl, _⟩ := RunEvent.finish.inj equal
      exact tick
    · rw [finishes_append_finish] at last
      have different : other ≠ job := by
        rintro rfl
        simp at last
      rw [others other different]
      exact unhurried.tick_eq before other tick' now' due rest old (by omega)
  · intro before other tick' now' due after split
    rw [log] at split
    rw [interval]
    rcases append_singleton_split split with
      ⟨_, equal, rfl⟩ | ⟨rest, rfl, old⟩
    · obtain ⟨rfl, rfl, rfl, _⟩ := RunEvent.finish.inj equal
      rw [tick, finishes_nil, Nat.zero_mul, Nat.add_zero]
      exact le_max_right _ _
    · have bound := unhurried.tick_ge before other tick' now' due rest old
      rw [finishes_append_finish]
      by_cases same : job = other
      · subst same
        rw [tick, if_pos rfl, Nat.add_mul]
        omega
      · rw [others other (Ne.symm same), if_neg same]
        exact bound
  · intro before other tick' now' due between now'' after split
    rw [log, List.append_assoc, List.cons_append, ← List.cons_append,
      ← List.append_assoc] at split
    rw [interval]
    rcases append_singleton_split split with
      ⟨_, equal, _⟩ | ⟨rest, _, old⟩
    · simp at equal
    · exact unhurried.start_ge before other tick' now' due between now'' rest
        (by simpa using old)

/-- The binding is put behind everything that was due. -/
theorem waiting_finishPass
    (inv : Inv (.out job) schedule)
    (now : UInt64)
    (fits : (schedule.finishPass job now).history.wrapped = false) :
    (schedule.finishPass job now).Waiting .idle := by
  have ticked := inv.retick_finishPass now
  have agree := inv.key_skipSamples_queued now
  have log := inv.log_finishPass now
  have queue : (schedule.finishPass job now).queue =
      Queue.insertLast
        (((schedule.logFinish job now).advanceTick job).skipSamples job now).key
        job schedule.queue := by
    rw [finishPass, insertJob, ticked.queue]
    rfl
  intro before job' tick now' due after split unstarted other present
  rw [log] at split
  rw [queue]
  rcases append_singleton_split split with
    ⟨_, equal, _⟩ | ⟨rest, rfl, old⟩
  · obtain ⟨rfl, _, _, rfl⟩ := RunEvent.finish.inj equal
    simp only [Schedule.due, List.mem_filter, decide_eq_true_eq] at present
    obtain ⟨queued, isDue⟩ := present
    refine Or.inr (Or.inl ?_)
    refine (inv.ordered.congr agree).precedes_insertLast queued ?_
    rw [agree other queued, ticked.tick fits]
    exact (UInt64.le_iff_toNat_le.mp isDue).trans (le_max_right _ _)
  · rcases inv.waiting (ticked.wrapped fits) before job' tick now' due rest old
      (fun time member => unstarted time (List.mem_append_left _ member))
      other present with
      ⟨tick', now'', due', finished⟩ | precedes | isOut
    · exact Or.inl ⟨tick', now'', due', List.mem_append_left _ finished⟩
    · exact Or.inr (Or.inl (precedes.insertLast _ job))
    · simp only [Phase.absent, List.mem_singleton] at isOut
      subst isOut
      exact Or.inl ⟨_, _, _, List.mem_append_right _
        (List.mem_singleton.mpr rfl)⟩

/-- A pass of the main loop ends in the phase it began in. -/
theorem finishPass
    (inv : Inv (.out job) schedule)
    (now : UInt64) :
    Inv .idle (schedule.finishPass job now) := by
  have ticked := inv.retick_finishPass now
  have absent := inv.not_mem_of_out
  have log := inv.log_finishPass now
  refine
    { contents := ?_
      ordered := ?_
      head := by simp
      outside := ?_
      added_length := ?_
      counts := ?_
      timely := inv.timely_finishPass now
      unhurried := inv.unhurried_finishPass now
      waiting := inv.waiting_finishPass now
      noStarvation := ?_ }
  · have contents := inv.contents
    have length : (schedule.finishPass job now).eventBindings.length =
        schedule.eventBindings.length := ticked.length
    rw [length]
    refine (Queue.insertLast_perm _ job _).trans ?_
    rw [ticked.queue]
    exact contents
  · have ordered : Queue.Ordered schedule.key
        (((schedule.logFinish job now).advanceTick job).skipSamples job
          now).queue := by
      rw [ticked.queue]
      exact inv.ordered
    refine (ordered.congr fun other present => ?_).insertLast job
    rw [ticked.queue] at present
    exact inv.key_skipSamples_queued now other present
  · intro store member
    rcases ticked.stores store member with old | rfl
    · exact inv.outside store old
    · exact absent
  · exact ticked.added ▸ ticked.length ▸ inv.added_length
  · intro other
    have counts := inv.counts other
    rw [log, starts_append_finish, finishes_append_finish]
    simp only [Phase.current] at counts ⊢
    omega
  · intro fits before job' tick now' due between now'' after split
    rw [log, List.append_assoc, List.cons_append, ← List.cons_append,
      ← List.append_assoc] at split
    rcases append_singleton_split split with
      ⟨_, equal, _⟩ | ⟨rest, _, old⟩
    · simp at equal
    · exact inv.noStarvation (ticked.wrapped fits) before job' tick now' due
        between now'' rest (by simpa using old)

end Inv

end Schedule
end Service
end EvCollect
