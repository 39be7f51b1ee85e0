import Mathlib.Tactic.IntervalCases
import EvCollect.Process.Beside
import EvCollect.Process.Endless
import EvCollect.Service.Foreign
import EvCollect.Service.Run

/-!
# Stopping the service

`kill()` writes a byte to the wakeup pipe, which nobody reads. A pass of the
main loop that begins after that gets no further than its call of `select`, and
in the pass in which `kill()` is called `processEvent` is called once at most.
-/

namespace EvCollect
namespace Service

open Process ServiceImpl Schedule

variable {L τ : Type} [World τ]

/-- Whether a log entry says that `processEvent` is called. -/
def RunEvent.starting : RunEvent → Bool
  | .start _ _ => true
  | .finish _ _ _ _ => false

/-- How often `processEvent` has been called. -/
def Schedule.started (schedule : Schedule) : Nat :=
  schedule.history.log.countP RunEvent.starting

namespace Schedule

@[simp] theorem started_logStart
    (job : Nat)
    (now : UInt64)
    (schedule : Schedule) :
    (logStart job now schedule).started = schedule.started + 1 := by
  simp [started, logStart, logEvent, RunEvent.starting, List.countP_append]

@[simp] theorem started_logFinish
    (job : Nat)
    (now : UInt64)
    (schedule : Schedule) :
    (logFinish job now schedule).started = schedule.started := by
  simp [started, logFinish, logEvent, RunEvent.starting, List.countP_append]

@[simp] theorem started_skipSamples
    (job : Nat)
    (now : UInt64)
    (schedule : Schedule) :
    (skipSamples job now schedule).started = schedule.started := by
  unfold skipSamples
  split <;> rfl

end Schedule

/-- Whether the service thread is not inside of a plugin. -/
def Point.own : Point L → Bool
  | .plugin _ => false
  | _ => true

/-- `kill()` has been called, or is called at this point. -/
def Killed
    (point : Point L)
    (service : ServiceImpl τ)
    (entries : Stream' Entry) : Prop :=
  0 < service.wakeupPipe ∨ point.own = true ∧ entries.head.killed = true

/-- What the environment promises: `select` reports a readable pipe, and a call
of `processEvent` returns. -/
def Fair
    (plugins : Plugins L τ) :
    Point L → ServiceImpl τ → Stream' Entry → Prop
  | .select _ _, service, entries =>
      0 < service.wakeupPipe → 0 ≤ entries.head.result
  | .process job, service, entries => ∀ now,
      Terminates (processEvent plugins job) entries.tail
        (onSchedule (logStart job now) (react entries.head service))
  | _, _, _ => True

/-- The plugin functions that the main loop calls do not look ahead. -/
structure CausalPlugins (plugins : Plugins L τ) : Prop where
  nextEvent : ∀ ref userdata buffer,
    Causal ((plugins.source ref).pluginGetNextEvent userdata buffer)
  pendingEvent : ∀ ref userdata,
    Causal ((plugins.source ref).pluginHasPendingEvent userdata)
  emitEvent : ∀ ref userdata event,
    Causal ((plugins.output ref).pluginEmitEvent userdata event)

/-! ## Along a run -/

/-- The pipe is never emptied and the log never shortened, and a call of
`kill()` is seen by the next step of the service. -/
def watchPipe : Later Entry (Point L) (ServiceImpl τ) where
  before first second := first.wakeupPipe ≤ second.wakeupPipe ∧
    first.started ≤ second.started
  resume point entry first second :=
    (first.wakeupPipe ≤ second.wakeupPipe ∧ first.started ≤ second.started) ∧
      (point.own = true → entry.killed = true → 0 < second.wakeupPipe)
  refl := fun _ => ⟨Nat.le_refl _, Nat.le_refl _⟩
  trans := fun one two => ⟨one.1.trans two.1, one.2.trans two.2⟩
  resume_trans := fun one two =>
    ⟨⟨one.1.1.trans two.1, one.1.2.trans two.2⟩,
      fun own killed => (one.2 own killed).trans_le two.1⟩

section Onward

variable {plugins : Plugins L τ}

/-- A call that lets the environment act and keeps the log. -/
theorem call_onward
    (point : Point L)
    {effect : Entry → ServiceImpl τ → α × ServiceImpl τ}
    (pipe : ∀ entry service, (effect entry service).2.wakeupPipe =
      (react entry service).wakeupPipe)
    (started : ∀ entry service,
      service.started ≤ (effect entry service).2.started) :
    Onward watchPipe (Proc.call point effect) := by
  have more (entry : Entry) (service : ServiceImpl τ) :
      service.wakeupPipe ≤ (effect entry service).2.wakeupPipe := by
    rw [pipe]
    exact Nat.le_add_right _ _
  refine Onward.call (fun entry service => ⟨more entry service,
    started entry service⟩) fun entry service => ⟨⟨more entry service,
      started entry service⟩, fun _ killed => ?_⟩
  rw [pipe]
  simp [react, killed]

omit [World τ] in
theorem onWorld_onward
    {process : Proc Entry L τ α}
    (causal : Causal process) :
    Onward watchPipe (onWorld process : ServiceProc L τ α) :=
  Onward.zoom causal (fun _ _ => ⟨Nat.le_refl _, Nat.le_refl _⟩)
    fun _ _ _ _ _ => ⟨⟨Nat.le_refl _, Nat.le_refl _⟩, fun own => by cases own⟩

omit [World τ] in
theorem onSchedule_onward
    {step : Schedule → Schedule}
    (started : ∀ schedule, schedule.started ≤ (step schedule).started) :
    Onward watchPipe
      (Proc.modify (onSchedule step) : ServiceProc L τ Unit) :=
  Onward.modify fun service => ⟨Nat.le_refl _, started service.toSchedule⟩

theorem monotonicNow_onward (point : Point L) :
    Onward watchPipe (monotonicNow point : ServiceProc L τ UInt64) :=
  call_onward point (fun _ _ => rfl) fun _ _ => Nat.le_refl _

/-- What `select` leaves behind. -/
theorem select_effect
    (entry : Entry)
    (now : UInt64)
    (timeout : Timeval)
    (rest : List Entry)
    (service : ServiceImpl τ) :
    ∃ ready, (select now timeout : ServiceProc L τ Ready) (entry :: rest)
      service = .done ready rest (react entry service) ∧
      (0 < ready.rc ∧ ready.wakeup = true → 0 < (react entry service).wakeupPipe) ∧
      (0 < (react entry service).wakeupPipe → 0 ≤ entry.result →
        0 < ready.rc ∧ ready.wakeup = true) := by
  unfold select Proc.call
  dsimp only
  split
  next failed =>
    refine ⟨_, rfl, fun woken => absurd woken.2 (by simp), fun _ reports => ?_⟩
    exact absurd failed (by omega)
  next =>
    refine ⟨_, rfl, fun woken => of_decide_eq_true woken.2, fun ready _ => ?_⟩
    refine ⟨?_, decide_eq_true ready⟩
    rw [decide_eq_true ready]
    simp only [Bool.toNat_true]
    omega

theorem before_react (entry : Entry) (service : ServiceImpl τ) :
    (watchPipe : Later Entry (Point L) (ServiceImpl τ)).before service
      (react entry service) :=
  ⟨Nat.le_add_right _ _, Nat.le_refl _⟩

theorem resume_react
    (point : Point L)
    (entry : Entry)
    (service : ServiceImpl τ) :
    watchPipe.resume point entry service (react entry service) :=
  ⟨⟨Nat.le_add_right _ _, Nat.le_refl _⟩, fun _ killed => by
    simp [react, killed]⟩

theorem select_onward (now : UInt64) (timeout : Timeval) :
    Onward watchPipe (select now timeout : ServiceProc L τ Ready) := by
  refine call_onward _ (fun entry service => ?_) fun entry service => ?_
  · dsimp only
    split <;> rfl
  · dsimp only
    split <;> exact Nat.le_refl _

variable (plugins : Plugins L τ) (causal : CausalPlugins plugins)

include causal

theorem processCalls_onward : ProcessCalls plugins (Onward watchPipe) where
  toComposes := Onward.composes
  wallClock := call_onward _ (fun _ _ => rfl) fun _ _ => Nat.le_refl _
  getNextEvent := fun _ _ => onWorld_onward (causal.nextEvent _ _ _)
  hasPendingEvent := fun _ _ => onWorld_onward (causal.pendingEvent _ _)
  emitEvent := fun _ _ _ => Onward.bind
    (onWorld_onward (causal.emitEvent _ _ _)) fun _ => Onward.bind
      (Onward.modify fun _ => ⟨Nat.le_refl _, Nat.le_refl _⟩)
      fun _ => Onward.pure _
  round := fun each => Onward.iterate before_react (resume_react _) each ()

theorem loopCalls_onward : LoopCalls plugins (Onward watchPipe) where
  toComposes := Onward.composes
  processEvent := (processCalls_onward plugins causal).processEvent
  headClock := monotonicNow_onward _
  select := select_onward
  dueClock := monotonicNow_onward _
  doneClock := monotonicNow_onward _
  process := fun job now => call_onward _ (fun _ _ => rfl) fun _ _ =>
    Nat.le_of_lt (started_logStart job now _ ▸ Nat.lt_succ_self _)
  eraseBegin := onSchedule_onward fun _ => Nat.le_refl _
  logFinish := fun job now => onSchedule_onward fun schedule =>
    (started_logFinish job now schedule).ge
  advanceTick := fun _ => onSchedule_onward fun _ => Nat.le_refl _
  skipSamples := fun job now => onSchedule_onward fun schedule =>
    (started_skipSamples job now schedule).ge
  insertJob := fun _ => onSchedule_onward fun _ => Nat.le_refl _
  pass := fun each => Onward.iterate before_react (resume_react _) each ()

end Onward

/-! ## One pass of the main loop -/

/-- A pass of the main loop, with the step at its head. -/
abbrev loopPass (plugins : Plugins L τ) : ServiceProc L τ (Unit ⊕ ReturnCode) :=
  Proc.pass .head react (fun _ => runPass plugins) ()

section Pass

variable {plugins : Plugins L τ}
variable {service : ServiceImpl τ}

/-- Processing a binding calls `processEvent` once. -/
theorem processJob_started
    (job : Nat)
    (now : UInt64) :
    wp (fun _ after => after.started ≤ service.started + 1)
      (processJob plugins job now)
      (fun _ after => after.started = service.started + 1) service := by
  refine wp_bind (wp_call (Nat.le_succ _) fun entry => ?_)
  have once := @processEvent_preserves_schedule L τ _
    (fun schedule => schedule.started = service.started + 1) plugins job
  apply wp_seq (wp_mono (once _ (started_logStart job now _))
    (fun _ _ known => known.2.le) fun _ _ known => known)
  intro _ processed known
  refine wp_bind (wp_modify (wp_bind (wp_monotonicNow known.le
    fun finished read same => ?_)))
  refine wp_bind (wp_modify (wp_bind (wp_modify (wp_bind (wp_modify
    (wp_modify ?_))))))
  change (skipSamples job finished (advanceTick job
    (logFinish job finished read.toSchedule))).started = _
  rw [started_skipSamples]
  change (logFinish job finished read.toSchedule).started = _
  rw [started_logFinish, same]
  exact known

/-- `processEvent` is called once at most in a pass. -/
theorem loopPass_started
    (plugins : Plugins L τ)
    (service : ServiceImpl τ) :
    wp (fun _ after => after.started ≤ service.started + 1) (loopPass plugins)
      (fun _ after => after.started ≤ service.started + 1) service := by
  refine wp_bind (wp_call (Nat.le_succ _) fun entry => ?_)
  refine wp_bind (wp_monotonicNow (Nat.le_succ _) fun now read same => ?_)
  have first : read.started = service.started := congrArg Schedule.started same
  refine wp_bind (wp_get (wp_bind (wp_select (first ▸ Nat.le_succ _)
    fun ready woken same' => ?_)))
  have second : woken.started = service.started :=
    (congrArg Schedule.started same').trans first
  split
  · exact wp_pure (second ▸ Nat.le_succ _)
  split
  · exact wp_pure (second ▸ Nat.le_succ _)
  refine wp_bind (wp_monotonicNow (second ▸ Nat.le_succ _)
    fun now checked same'' => ?_)
  have third : checked.started = service.started :=
    (congrArg Schedule.started same'').trans second
  refine wp_bind (wp_get ?_)
  split
  · exact wp_pure (third ▸ Nat.le_succ _)
  · rw [← third]
    exact wp_seq (processJob_started _ now) fun _ _ known => wp_pure known.le

/-- A pass that ends the main loop returns success. -/
theorem runPass_returns
    (plugins : Plugins L τ)
    (service : ServiceImpl τ) :
    wp (fun _ _ => True) (runPass plugins)
      (AfterPass (fun _ _ => True) (fun rc _ => rc = ReturnCode.success))
      service := by
  refine wp_bind (wp_monotonicNow trivial fun now read _ => wp_bind (wp_get
    (wp_bind (wp_select trivial fun ready after _ => ?_))))
  split
  · exact wp_pure rfl
  split
  · apply wp_pure
    trivial
  refine wp_bind (wp_monotonicNow trivial fun now checked _ => wp_bind (wp_get ?_))
  split
  · apply wp_pure
    trivial
  · refine wp_seq (wp_trivial _ _) fun _ _ _ => wp_pure ?_
    trivial

/-- `select` reports a readable pipe only if `kill()` has been called. -/
theorem select_killed
    {entries : Stream' Entry}
    {now : UInt64}
    {timeout : Timeval}
    {count : Nat}
    {ready : Ready}
    {rest : List Entry}
    {after : ServiceImpl τ}
    (selected : (select now timeout : ServiceProc L τ Ready)
      (entries.take (count + 1)) service = .done ready rest after)
    (reported : 0 < ready.rc ∧ ready.wakeup = true) :
    Killed (.select now timeout : Point L) service entries := by
  obtain ⟨ready', selected', readable, -⟩ :=
    select_effect (L := L) entries.head now timeout (entries.tail.take count)
      service
  rw [Stream'.take_succ, selected'] at selected
  cases selected
  cases killed : entries.head.killed with
  | true => exact Or.inr ⟨rfl, killed⟩
  | false =>
      apply Or.inl
      have filled := readable reported
      rwa [react, killed] at filled

/-- A pass that ends the main loop has found the pipe readable in `select`. -/
theorem loopPass_woken
    {entries : Stream' Entry}
    {count : Nat}
    {rc : ReturnCode}
    {rest : List Entry}
    {after : ServiceImpl τ}
    (done : loopPass plugins (entries.take count) service =
      .done (.inr rc) rest after) :
    2 < count ∧ ∃ point between,
      loopPass plugins (entries.take 2) service = .cut point between ∧
        Killed point between (entries.drop 2) := by
  rcases count with _ | _ | _ | count
  · cases done
  · cases done
  · cases done
  refine ⟨Nat.le_add_left _ _, _, _, rfl, ?_⟩
  obtain ⟨_, _, _, called, done⟩ := done_of_bind done
  cases called
  obtain ⟨now, _, read, clocked, done⟩ := done_of_bind done
  cases clocked
  obtain ⟨_, _, _, same, done⟩ := done_of_bind done
  cases same
  obtain ⟨ready, _, woken, selected, done⟩ := done_of_bind done
  split at done
  next reported => exact select_killed selected reported
  split at done
  · cases done
  obtain ⟨_, _, checked, clocked, done⟩ := done_of_bind done
  obtain ⟨_, _, _, same, done⟩ := done_of_bind done
  split at done
  · cases done
  · obtain ⟨_, _, _, -, done⟩ := done_of_bind done
    cases done

/-- With a readable pipe, the main loop ends behind its call of `select`. -/
theorem runPass_killed
    (first second : Entry)
    (rest : List Entry)
    (killed : 0 < service.wakeupPipe)
    (reports : 0 ≤ second.result) :
    ∃ after, runPass plugins (first :: second :: rest) service =
        .done (.inr ReturnCode.success) rest after ∧
      after.started = service.started := by
  obtain ⟨now, read, clock, pipe, same⟩ : ∃ now read,
      (monotonicNow .headClock : ServiceProc L τ UInt64)
        (first :: second :: rest) service = .done now (second :: rest) read ∧
      service.wakeupPipe ≤ read.wakeupPipe ∧
      read.started = service.started :=
    ⟨_, _, rfl, Nat.le_add_right _ _, rfl⟩
  obtain ⟨ready, selected, -, woken⟩ := select_effect (L := L) second now
    (Timeval.ofMicros (read.nextTick (read.queue.headD 0) - now)) rest read
  have readable : 0 < (react second read).wakeupPipe :=
    Nat.lt_add_right _ (killed.trans_le pipe)
  refine ⟨react second read, ?_, same⟩
  refine (bind_of_done clock _).trans ((Proc.get_bind _ _ _).trans
    ((bind_of_done selected _).trans ?_))
  rw [if_pos (woken readable reports)]
  rfl

/-- A pass that begins with a readable pipe does not call `processEvent`, and
ends the main loop. -/
theorem loopPass_killed
    {entries : Stream' Entry}
    (fair : Along (Fair plugins) (loopPass plugins) entries service)
    (killed : 0 < service.wakeupPipe) :
    (∃ after, Returns (loopPass plugins) entries service 3
      (.inr ReturnCode.success) after) ∧
    ∀ count, (loopPass plugins (entries.take count) service).Sat
      (fun _ after => after.started = service.started)
      (fun result after => result = .inr ReturnCode.success ∧
        after.started = service.started) := by
  have readable : 0 < (react (entries.get 1) (react entries.head
      service)).wakeupPipe :=
    Nat.lt_add_right _ (Nat.lt_add_right _ killed)
  have reports : 0 ≤ (entries.get 2).result := fair 2 _ _ rfl readable
  have ends (count : Nat) : ∃ after,
      loopPass plugins (entries.take (count + 3)) service =
        .done (.inr ReturnCode.success) ((entries.drop 3).take count) after ∧
      after.started = service.started :=
    runPass_killed (entries.get 1) (entries.get 2) _
      (Nat.lt_add_right _ killed) reports
  refine ⟨?_, fun count => ?_⟩
  · obtain ⟨after, done, -⟩ := ends 0
    exact ⟨after, done⟩
  rcases count with _ | _ | _ | count
  · exact rfl
  · exact rfl
  · exact rfl
  · obtain ⟨after, done, same⟩ := ends count
    rw [done]
    exact ⟨rfl, same⟩

/-- Processing a binding ends if the call of `processEvent` does. -/
theorem processJob_terminates
    {entries : Stream' Entry}
    (causal : CausalPlugins plugins)
    (job : Nat)
    (now : UInt64)
    (fair : Along (Fair plugins) (processJob plugins job now) entries service) :
    Terminates (processJob plugins job now) entries service := by
  have returns := fair 0 _ _ rfl now
  refine Terminates.call_bind fair fun fair => ?_
  refine Terminates.bind fair
    ((processCalls_onward plugins causal).processEvent job).causal
    (fun _ => returns) fun _ _ _ _ fair => ?_
  refine Terminates.bind fair (Causal.modify _) (fun _ => .modify _)
    fun _ _ _ _ fair => ?_
  refine Terminates.bind fair (Causal.call _ _) (fun _ => .call _ _)
    fun _ now _ _ fair => ?_
  refine Terminates.bind fair (Causal.modify _) (fun _ => .modify _)
    fun _ _ _ _ fair => ?_
  refine Terminates.bind fair (Causal.modify _) (fun _ => .modify _)
    fun _ _ _ _ fair => ?_
  exact Terminates.bind fair (Causal.modify _) (fun _ => .modify _)
    fun _ _ _ _ _ => .modify _

/-- Every pass ends if the call of `processEvent` in it does. -/
theorem loopPass_terminates
    {entries : Stream' Entry}
    (causal : CausalPlugins plugins)
    (fair : Along (Fair plugins) (loopPass plugins) entries service) :
    Terminates (loopPass plugins) entries service := by
  refine Terminates.bind fair (Causal.call _ _) (fun _ => .call _ _)
    fun _ _ _ _ fair => ?_
  refine Terminates.bind fair (Causal.call _ _) (fun _ => .call _ _)
    fun _ now _ _ fair => ?_
  refine Terminates.bind fair Causal.get (fun _ => .get)
    fun _ service _ _ fair => ?_
  refine Terminates.bind fair (Causal.call _ _) (fun _ => .call _ _)
    fun _ ready _ _ fair => ?_
  revert fair
  split
  · exact fun _ => .pure _
  split
  · exact fun _ => .pure _
  intro fair
  refine Terminates.bind fair (Causal.call _ _) (fun _ => .call _ _)
    fun _ now _ _ fair => ?_
  refine Terminates.bind fair Causal.get (fun _ => .get)
    fun _ service _ _ fair => ?_
  revert fair
  split
  · exact fun _ => .pure _
  intro fair
  refine Terminates.bind fair
    ((loopCalls_onward plugins causal).processJob _ _).causal
    (processJob_terminates causal _ _) fun _ _ _ _ _ => .pure _

end Pass

/-! ## The main loop -/

/-- The passes of the main loop. -/
abbrev mainLoop (plugins : Plugins L τ) : ServiceProc L τ ReturnCode :=
  Proc.iterate .head react (fun _ => runPass plugins) ()

section Loop

variable {plugins : Plugins L τ}
variable {service between : ServiceImpl τ}
variable {entries : Stream' Entry}

theorem mainLoop_eq (causal : CausalPlugins plugins) :
    mainLoop plugins =
      loopPass plugins >>= Proc.proceed (fun _ => mainLoop plugins) :=
  iterate_eq (fun _ => (loopCalls_onward plugins causal).runPass.causal) ()

theorem loopPass_causal (causal : CausalPlugins plugins) :
    Causal (loopPass plugins) :=
  Causal.pass (fun _ => (loopCalls_onward plugins causal).runPass.causal) ()

theorem loopPass_onward (causal : CausalPlugins plugins) :
    Onward watchPipe (loopPass plugins) :=
  Onward.pass before_react (resume_react _)
    (fun _ => (loopCalls_onward plugins causal).runPass) ()

theorem loopPass_positive
    {length : Nat}
    {result : Unit ⊕ ReturnCode}
    {after : ServiceImpl τ}
    (causal : CausalPlugins plugins)
    (returns : Returns (loopPass plugins) entries service length result after) :
    0 < length := by
  have shorter := length_lt_of_pass
    (fun _ => (loopCalls_onward plugins causal).runPass.causal) returns
  rwa [Stream'.length_take] at shorter

/-- The main loop is cut where its first pass is. -/
theorem mainLoop_cut
    {point : Point L}
    {script : List Entry}
    (causal : CausalPlugins plugins)
    (stopped : loopPass plugins script service = .cut point between) :
    mainLoop plugins script service = .cut point between := by
  rw [mainLoop_eq causal]
  exact bind_of_cut stopped _

/-- Behind its first pass the main loop is done, or begins again. -/
theorem mainLoop_run
    {length : Nat}
    {result : Unit ⊕ ReturnCode}
    {after : ServiceImpl τ}
    (causal : CausalPlugins plugins)
    (returns : Returns (loopPass plugins) entries service length result after)
    (more : Nat) :
    mainLoop plugins (entries.take (length + more)) service =
      Proc.proceed (fun _ => mainLoop plugins) result
        ((entries.drop length).take more) after :=
  (congrFun (congrFun (mainLoop_eq causal) _) _).trans
    (bind_run (loopPass_causal causal) returns more)

/-- What is promised along the main loop is promised along its first pass. -/
theorem mainLoop_ofFirst
    (causal : CausalPlugins plugins)
    (fair : Along (Fair plugins) (mainLoop plugins) entries service) :
    Along (Fair plugins) (loopPass plugins) entries service := by
  rw [mainLoop_eq causal] at fair
  exact fair.ofFirst

/-- It is promised behind the first pass, too. -/
theorem mainLoop_ofNext
    {length : Nat}
    {after : ServiceImpl τ}
    (causal : CausalPlugins plugins)
    (fair : Along (Fair plugins) (mainLoop plugins) entries service)
    (returns : Returns (loopPass plugins) entries service length (.inl ()) after) :
    Along (Fair plugins) (mainLoop plugins) (entries.drop length) after := by
  rw [mainLoop_eq causal] at fair
  exact fair.ofNext (loopPass_causal causal) returns

/-- The main loop returns nothing but success, whatever `processEvent` does. -/
theorem mainLoop_returns
    (plugins : Plugins L τ)
    (service : ServiceImpl τ) :
    wp (fun _ _ => True) (mainLoop plugins)
      (fun rc _ => rc = ReturnCode.success) service :=
  wp_iterate (fun _ _ => True) trivial (fun _ _ _ => trivial)
    fun _ _ _ _ => runPass_returns plugins _

/-- The main loop ends only behind a call of `kill()`. -/
theorem mainLoop_woken
    (causal : CausalPlugins plugins)
    {count : Nat}
    {rc : ReturnCode}
    {rest : List Entry}
    {after : ServiceImpl τ}
    (done : mainLoop plugins (entries.take count) service = .done rc rest after) :
    ∃ earlier < count, ∃ point between,
      mainLoop plugins (entries.take earlier) service = .cut point between ∧
        Killed point between (entries.drop earlier) := by
  -- By induction on the entries that are taken, pass by pass.
  induction count using Nat.strongRecOn generalizing entries service with
  | ind count inductionHypothesis =>
      cases outcome : loopPass plugins (entries.take count) service with
      | cut point between =>
          rw [mainLoop_cut causal outcome] at done
          cases done
      | done result rest' between =>
          cases result with
          | inr rc' =>
              obtain ⟨enough, point, between', stopped, killed⟩ :=
                loopPass_woken outcome
              exact ⟨2, enough, point, between', mainLoop_cut causal stopped,
                killed⟩
          | inl _ =>
              obtain ⟨length, used, returns⟩ :=
                (loopPass_causal causal).returns outcome
              obtain ⟨left, rfl⟩ := Nat.exists_eq_add_of_le used
              have positive := loopPass_positive causal returns
              rw [mainLoop_run causal returns left] at done
              obtain ⟨earlier, less, point, between', stopped, killed⟩ :=
                inductionHypothesis left (by omega) done
              rw [Stream'.drop_drop] at killed
              exact ⟨length + earlier, by omega, point, between',
                (mainLoop_run causal returns earlier).trans stopped, killed⟩

/-- The main loop that begins a pass with a readable pipe does not call
`processEvent` any more, and ends. -/
theorem mainLoop_killed
    (causal : CausalPlugins plugins)
    (fair : Along (Fair plugins) (mainLoop plugins) entries service)
    (killed : 0 < service.wakeupPipe) :
    (∃ after, Returns (mainLoop plugins) entries service 3
      ReturnCode.success after) ∧
    ∀ count, (mainLoop plugins (entries.take count) service).state.started =
      service.started := by
  obtain ⟨⟨after, returns⟩, same⟩ :=
    loopPass_killed (mainLoop_ofFirst causal fair) killed
  refine ⟨⟨after, mainLoop_run causal returns 0⟩, fun count => ?_⟩
  have known := same count
  cases outcome : loopPass plugins (entries.take count) service with
  | cut point between =>
      rw [outcome] at known
      rw [mainLoop_cut causal outcome]
      exact known
  | done result rest between =>
      rw [outcome] at known
      obtain ⟨rfl, known⟩ := known
      rw [mainLoop_eq causal, bind_of_done outcome]
      exact known

/-! ### Behind a call of `kill()` -/

section Stops

variable {point : Point L}
variable {count : Nat}
variable (causal : CausalPlugins plugins)
variable (fair : Along (Fair plugins) (mainLoop plugins) entries service)
variable (stopped : loopPass plugins (entries.take count) service =
  .cut point between)
variable (killed : Killed point between (entries.drop count))

include causal stopped killed

omit fair in
/-- The rest of the pass in which `kill()` is called leaves the pipe
readable. -/
theorem loopPass_later (more : Nat) :
    0 < (loopPass plugins (entries.take (count + (more + 1)))
      service).state.wakeupPipe := by
  obtain ⟨⟨pipe, -⟩, seen⟩ := (loopPass_onward causal).resumed _
    (entries.drop count).head ((entries.drop count).tail.take more) _ _ _ stopped
  rw [take_add]
  exact killed.elim pipe.trans_lt' fun own => seen own.1 own.2

include fair

/-- Behind a kill in the first pass, `processEvent` is called once at most. -/
theorem mainLoop_started (more : Nat) :
    (mainLoop plugins (entries.take (count + more)) service).state.started ≤
      between.started + 1 := by
  have begun : service.started ≤ between.started := by
    have known := ((loopPass_onward causal).onward (entries.take count) service).2
    rwa [stopped] at known
  rcases more with _ | more
  · rw [Nat.add_zero, mainLoop_cut causal stopped]
    exact Nat.le_succ _
  have once := loopPass_started plugins service (entries.take (count + (more + 1)))
  have pipe := loopPass_later causal stopped killed more
  cases outcome : loopPass plugins (entries.take (count + (more + 1))) service with
  | cut point' after =>
      rw [outcome] at once
      rw [mainLoop_cut causal outcome]
      exact once.trans (Nat.succ_le_succ begun)
  | done result rest after =>
      rw [outcome] at once pipe
      obtain ⟨length, used, returns⟩ := (loopPass_causal causal).returns outcome
      obtain ⟨left, split⟩ := Nat.exists_eq_add_of_le used
      rw [split, mainLoop_run causal returns]
      refine Nat.le_trans ?_ (once.trans (Nat.succ_le_succ begun))
      cases result with
      | inr rc => exact Nat.le_refl _
      | inl _ =>
          exact ((mainLoop_killed causal (mainLoop_ofNext causal fair returns)
            pipe).2 left).le

/-- Behind a kill in the first pass, the main loop ends with this pass or the
next one. -/
theorem mainLoop_ends :
    ∃ length after,
      Returns (mainLoop plugins) entries service length ReturnCode.success
        after := by
  obtain ⟨length, result, after, returns⟩ :=
    loopPass_terminates causal (mainLoop_ofFirst causal fair)
  have longer : count < length := by
    refine Nat.lt_of_not_le fun covers => ?_
    obtain ⟨left, rfl⟩ := Nat.exists_eq_add_of_le covers
    rw [returns.run (loopPass_causal causal) left] at stopped
    cases stopped
  obtain ⟨more, rfl⟩ := Nat.exists_eq_add_of_lt longer
  have pipe : 0 < (loopPass plugins (entries.take (count + more + 1))
      service).state.wakeupPipe :=
    loopPass_later causal stopped killed more
  rw [returns] at pipe
  cases result with
  | inr rc =>
      have ended := mainLoop_run causal returns 0
      have known := mainLoop_returns plugins service
        (entries.take (count + more + 1 + 0))
      rw [ended] at known
      cases known
      exact ⟨_, after, ended⟩
  | inl _ =>
      obtain ⟨⟨after', last⟩, -⟩ :=
        mainLoop_killed causal (mainLoop_ofNext causal fair returns) pipe
      exact ⟨_, after', (mainLoop_run causal returns 3).trans last⟩

end Stops

/-- At most one further call of `processEvent`, and the end of the main loop,
wherever in a pass `kill()` is called. -/
theorem mainLoop_stops
    (causal : CausalPlugins plugins)
    (count : Nat)
    (fair : Along (Fair plugins) (mainLoop plugins) entries service)
    {point : Point L}
    (stopped : mainLoop plugins (entries.take count) service =
      .cut point between)
    (killed : Killed point between (entries.drop count)) :
    (∀ more, (mainLoop plugins (entries.take (count + more))
      service).state.started ≤ between.started + 1) ∧
    ∃ length after,
      Returns (mainLoop plugins) entries service length ReturnCode.success
        after := by
  -- By induction on the entries that are taken before the kill.
  induction count using Nat.strongRecOn generalizing entries service with
  | ind count inductionHypothesis =>
      cases outcome : loopPass plugins (entries.take count) service with
      | cut point' after =>
          rw [mainLoop_cut causal outcome] at stopped
          cases stopped
          exact ⟨mainLoop_started causal fair outcome killed,
            mainLoop_ends causal fair outcome killed⟩
      | done result rest after =>
          obtain ⟨length, used, returns⟩ :=
            (loopPass_causal causal).returns outcome
          obtain ⟨left, rfl⟩ := Nat.exists_eq_add_of_le used
          have positive := loopPass_positive causal returns
          rw [mainLoop_run causal returns] at stopped
          cases result with
          | inr rc => cases stopped
          | inl _ =>
              rw [← Stream'.drop_drop] at killed
              obtain ⟨once, length', after', last⟩ := inductionHypothesis left
                (by omega) (mainLoop_ofNext causal fair returns) stopped killed
              refine ⟨fun more => ?_, _, after',
                (mainLoop_run causal returns length').trans last⟩
              rw [Nat.add_assoc, mainLoop_run causal returns]
              exact once more

end Loop

section Run

variable {plugins : Plugins L τ}
variable {service : ServiceImpl τ}

theorem run_eq_mainLoop
    (plugins : Plugins L τ)
    (busy : service.queue ≠ [])
    (script : List Entry) :
    run plugins script service = mainLoop plugins script service := by
  have filled : service.queue.length ≠ 0 :=
    fun empty => busy (List.length_eq_zero_iff.mp empty)
  refine (Proc.get_bind _ script service).trans ?_
  rw [if_neg filled]

/-- The service stops when it is told to, and only then. `run` returns success
if it returns, and only behind a call of `kill()`. Behind a call of `kill()`,
wherever in the run it comes, `processEvent` is called once at most, and `run`
returns. What is promised is that `select` reports a pipe that was filled before
the call, and that the calls of `processEvent` return. -/
theorem run_stops
    {entries : Stream' Entry}
    (causal : CausalPlugins plugins)
    (busy : service.queue ≠ [])
    (fair : Along (Fair plugins) (run plugins) entries service) :
    (∀ count rc rest after,
      run plugins (entries.take count) service = .done rc rest after →
      rc = ReturnCode.success ∧ ∃ earlier < count, ∃ point between,
        run plugins (entries.take earlier) service = .cut point between ∧
          Killed point between (entries.drop earlier)) ∧
    ∀ count point between,
      run plugins (entries.take count) service = .cut point between →
      Killed point between (entries.drop count) →
      (∀ more, (run plugins (entries.take (count + more))
        service).state.started ≤ between.started + 1) ∧
      ∃ length after,
        Returns (run plugins) entries service length ReturnCode.success after := by
  have same := run_eq_mainLoop plugins busy
  simp only [Along, Returns, same] at fair ⊢
  refine ⟨fun count rc rest after done => ⟨?_, mainLoop_woken causal done⟩,
    fun count point between => mainLoop_stops causal count fair⟩
  have known := mainLoop_returns plugins service (entries.take count)
  rw [done] at known
  exact known

/-- Plugins of the outside do not look ahead. -/
theorem foreignPlugins_causal (label : ForeignCall → L) :
    CausalPlugins (foreignPlugins label : Plugins L τ) where
  nextEvent := fun _ _ _ => Causal.call _ _
  pendingEvent := fun _ _ => Causal.call _ _
  emitEvent := fun _ _ _ => Causal.call _ _

/-- A binding with a source that is due at once. -/
def dueService : ServiceImpl Unit :=
  { eventBindings := [⟨bytes "load", 0, [⟨0, 0⟩], 0⟩]
    queue := [0]
    world := () }

/-- `kill()` interrupts the first call of `select`. -/
def interrupted : Stream' Entry :=
  fun position =>
    if position = 2 then { killed := true, result := -1 } else {}

/-- The source is polled once more before the service stops. -/
theorem run_stops_interrupted :
    ∃ length after,
      Returns (run (foreignPlugins id)) interrupted dueService length
        ReturnCode.success after := by
  have causal := foreignPlugins_causal (τ := Unit) (id : ForeignCall → ForeignCall)
  have fair : Along (Fair (foreignPlugins id)) (run (foreignPlugins id))
      interrupted dueService := by
    refine Along.of_returns (loopCalls_onward _ causal).run.causal
      (show Returns _ interrupted dueService 13 _ _ from rfl)
      fun early before point between stopped => ?_
    interval_cases early
    all_goals cases stopped
    all_goals try trivial
    · exact fun filled => absurd filled (by decide)
    · exact fun now => ⟨4, _, _, rfl⟩
    · exact fun _ => by decide
  have busy : dueService.queue ≠ [] := by decide
  exact ((run_stops causal busy fair).2 2 _ _ rfl (Or.inr ⟨rfl, rfl⟩)).2

end Run

end Service
end EvCollect
