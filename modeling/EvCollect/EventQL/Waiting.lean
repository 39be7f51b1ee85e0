import EvCollect.EventQL.Discard

/-!
# Waiting for each other

A caller of `enqueueEvent` waits while the queue is full, and the upload thread
waits in `awaitEvent` if the queue is empty. A queue is not both at once, unless
its bound is zero, and `pluginAttach` accepts a bound of zero.
-/

namespace EvCollect
namespace EventQL

open Transition

/-- Whether a thread is in `cv_.wait` inside of `enqueueEvent`. -/
def Emitter.Waits : Emitter → Prop
  | .waiting _ _ _ _ => True
  | _ => False

/-- A caller of `emitEvent` waits for room in the queue while the upload thread
waits for an event, and neither of them has been notified. -/
def System.MutualWait (system : System) : Prop :=
  (∃ thread, (system.emitters thread).Waits) ∧
    system.target.uploadThread = .waiting

/-- The upload thread is not told to stop. -/
def BeforeShutdown (_ : System) (action : Action) : Prop :=
  action ≠ .stop

instance (system : System) (action : Action) :
    Decidable (BeforeShutdown system action) :=
  inferInstanceAs (Decidable (action ≠ .stop))

/-- The event that `emitEvent` enqueues first, if there is one. -/
def firstEvent
    (eventName eventData : Bytes) : List EventRouting → Option EnqueuedEvent
  | [] => none
  | route :: routes =>
      match routeEvent eventName eventData route with
      | .skipped => firstEvent eventName eventData routes
      | .failed _ => none
      | .matched event => some event

/-! ## What a step does to an emitting thread -/

/-- What one step of the system can do to a thread that calls `emitEvent`. -/
inductive EmitterMove (target target' : EventQLTarget) :
    Emitter → Emitter → Prop
  | kept {emitter : Emitter} (same : target'.queue = target.queue) :
      EmitterMove target target' emitter emitter
  | woken {emitter : Emitter} :
      EmitterMove target target' emitter emitter.wake
  | called {last : Option ReturnCode} {eventName eventData : Bytes} :
      EmitterMove target target' (.idle last)
        (.routing eventName eventData target.routes)
  | returned {eventName eventData : Bytes} {routes : List EventRouting}
      {rc : ReturnCode} :
      EmitterMove target target' (.routing eventName eventData routes)
        (.idle (some rc))
  | skipped {eventName eventData : Bytes} {route : EventRouting}
      {routes : List EventRouting}
      (routed : routeEvent eventName eventData route = .skipped) :
      EmitterMove target target' (.routing eventName eventData (route :: routes))
        (.routing eventName eventData routes)
  | matched {eventName eventData : Bytes} {route : EventRouting}
      {routes : List EventRouting} {event : EnqueuedEvent}
      (routed : routeEvent eventName eventData route = .matched event) :
      EmitterMove target target' (.routing eventName eventData (route :: routes))
        (.enqueue event eventName eventData routes)
  | waits {event : EnqueuedEvent} {eventName eventData : Bytes}
      {routes : List EventRouting}
      (full : target.queueMaxLength ≤ target.queue.length)
      (same : target'.queue = target.queue) :
      EmitterMove target target' (.enqueue event eventName eventData routes)
        (.waiting event eventName eventData routes)
  | pushed {event : EnqueuedEvent} {eventName eventData : Bytes}
      {routes : List EventRouting} :
      EmitterMove target target' (.enqueue event eventName eventData routes)
        (.routing eventName eventData routes)

namespace EventQLTarget

variable {target target' : EventQLTarget}

/-- A caller waits only if the queue is full. -/
theorem le_of_enqueueEvent_eq_none
    {event : EnqueuedEvent}
    (blocked : target.enqueueEvent event = none) :
    target.queueMaxLength ≤ target.queue.length := by
  unfold enqueueEvent at blocked
  split at blocked
  next full => exact full
  next => cases blocked

/-- A step of the upload thread that notifies nobody leaves the queue alone. -/
theorem queue_uploadStep
    (quiet : target.uploadNotifies = false)
    (taken : target.uploadStep = some target') :
    target'.queue = target.queue := by
  unfold uploadStep at taken
  unfold uploadNotifies at quiet
  split at taken
  next => cases taken
  next =>
    cases taken
    rfl
  next atAwait =>
    cases taken
    rw [atAwait] at quiet
    rw [if_pos (by simpa using quiet)]
  next => cases taken
  next atWoken =>
    cases taken
    rw [atWoken] at quiet
    have isEmpty : target.queue = [] := by simpa using quiet
    unfold popEvent
    rw [isEmpty]
  next =>
    cases taken
    rfl
  next =>
    cases taken
    rfl
  next => cases taken

end EventQLTarget

namespace System

variable {system system' : System}

@[simp] theorem emitters_setEmitter
    (thread : Nat)
    (emitter : Emitter)
    (system : System) :
    (system.setEmitter thread emitter).emitters thread = emitter :=
  Function.update_self ..

theorem emitStep_emitters
    {thread : Nat}
    (taken : system.emitStep thread = some system')
    (other : Nat) :
    EmitterMove system.target system'.target (system.emitters other)
      (system'.emitters other) := by
  unfold emitStep at taken
  by_cases own : other = thread
  · subst own
    split at taken
    next => cases taken
    next isRouting =>
      cases taken
      simp only [setEmitter, Function.update_self, isRouting]
      exact .returned
    next isRouting =>
      rw [isRouting]
      split at taken <;> cases taken <;>
        simp only [setEmitter, Function.update_self]
      next routed => exact .skipped routed
      next => exact .returned
      next routed => exact .matched routed
    next isEnqueue =>
      rw [isEnqueue]
      split at taken <;> cases taken <;>
        simp only [setEmitter, Function.update_self]
      next blocked =>
        exact .waits (EventQLTarget.le_of_enqueueEvent_eq_none blocked) rfl
      next => exact .pushed
    next => cases taken
  · split at taken
    next => cases taken
    next =>
      cases taken
      simp only [setEmitter, Function.update_of_ne own]
      exact .kept rfl
    next =>
      split at taken <;> cases taken <;>
        simp only [setEmitter, Function.update_of_ne own] <;>
        exact .kept rfl
    next =>
      split at taken <;> cases taken <;>
        simp only [setEmitter, Function.update_of_ne own, notifyEmitters]
      · exact .kept rfl
      · exact .woken
    next => cases taken

theorem uploadStep_emitters
    (taken : system.uploadStep = some system')
    (thread : Nat) :
    EmitterMove system.target system'.target (system.emitters thread)
      (system'.emitters thread) := by
  unfold uploadStep at taken
  split at taken
  next => cases taken
  next stepped =>
    split at taken
    next =>
      cases taken
      exact .woken
    next quiet =>
      cases taken
      exact .kept (EventQLTarget.queue_uploadStep (by simpa using quiet) stepped)

theorem controlStep_emitters
    (taken : system.controlStep = some system')
    (thread : Nat) :
    EmitterMove system.target system'.target (system.emitters thread)
      (system'.emitters thread) := by
  unfold controlStep at taken
  split at taken
  next => cases taken
  next => split at taken <;> cases taken <;> exact .kept rfl
  next =>
    cases taken
    exact .kept rfl
  next => split at taken <;> cases taken <;> exact .kept rfl
  next =>
    cases taken
    exact .kept rfl
  next =>
    cases taken
    exact .woken
  next =>
    split at taken
    · cases taken
    next joined =>
      cases taken
      unfold EventQLTarget.joinThread at joined
      split at joined <;> cases joined
      exact .kept rfl
  next =>
    cases taken
    exact .kept rfl

/-- Every step moves every emitting thread in one of these ways. -/
theorem step_emitters
    {action : Action}
    (taken : system.step action = some system')
    (thread : Nat) :
    EmitterMove system.target system'.target (system.emitters thread)
      (system'.emitters thread) := by
  cases action with
  | call caller eventName eventData =>
      simp only [step] at taken
      split at taken <;> cases taken
      next isIdle =>
        by_cases own : thread = caller
        · subst own
          simp only [setEmitter, Function.update_self, isIdle]
          exact .called
        · simp only [setEmitter, Function.update_of_ne own]
          exact .kept rfl
  | emit caller => exact emitStep_emitters taken thread
  | wakeEmitter caller =>
      simp only [step] at taken
      split at taken <;> cases taken
      next isWaiting =>
        by_cases own : thread = caller
        · subst own
          simp only [setEmitter, Function.update_self, isWaiting]
          exact .woken
        · simp only [setEmitter, Function.update_of_ne own]
          exact .kept rfl
  | upload => exact uploadStep_emitters taken thread
  | wakeUpload =>
      simp only [step] at taken
      split at taken
      · cases taken
      next woken =>
        cases taken
        unfold EventQLTarget.wakeUpload at woken
        split at woken <;> cases woken
        exact .kept rfl
  | start =>
      simp only [step] at taken
      split at taken <;> cases taken
      exact .kept rfl
  | stop =>
      simp only [step] at taken
      split at taken <;> cases taken
      exact .kept rfl
  | control => exact controlStep_emitters taken thread

end System

/-! ## A bound that is not zero -/

/-- The queue is full where a caller waits, and empty where the upload thread
waits. -/
structure Watchful (system : System) : Prop where
  full : ∀ thread, (system.emitters thread).Waits →
    system.target.queueMaxLength ≤ system.target.queue.length
  asleep : system.target.uploadThread = .waiting → system.target.queue = []

theorem Emitter.not_waits_wake (emitter : Emitter) : ¬emitter.wake.Waits := by
  cases emitter <;> exact id

/-- A caller that waits after a step finds the queue full. -/
theorem EmitterMove.full
    {target target' : EventQLTarget}
    {emitter emitter' : Emitter}
    (move : EmitterMove target target' emitter emitter')
    (full : emitter.Waits → target.queueMaxLength ≤ target.queue.length)
    (waits : emitter'.Waits) :
    target.queueMaxLength ≤ target'.queue.length := by
  cases move with
  | kept same =>
      rw [same]
      exact full waits
  | woken => exact absurd waits emitter.not_waits_wake
  | called => exact waits.elim
  | returned => exact waits.elim
  | skipped => exact waits.elim
  | matched => exact waits.elim
  | waits isFull same =>
      rw [same]
      exact isFull
  | pushed => exact waits.elim

namespace EventQLTarget

variable {target target' : EventQLTarget}

/-- The options of the target, which no thread changes. -/
def options (target : EventQLTarget) : List EventRouting × Nat :=
  (target.routes, target.queueMaxLength)

@[simp] theorem options_notifyUpload (target : EventQLTarget) :
    target.notifyUpload.options = target.options := by
  unfold notifyUpload
  split <;> rfl

@[simp] theorem options_popEvent (target : EventQLTarget) :
    target.popEvent.options = target.options := by
  unfold popEvent
  split <;> rfl

theorem options_enqueueEvent
    {event : EnqueuedEvent}
    (pushed : target.enqueueEvent event = some target') :
    target'.options = target.options := by
  unfold enqueueEvent at pushed
  split at pushed <;> cases pushed
  exact options_notifyUpload _

theorem options_uploadStep (taken : target.uploadStep = some target') :
    target'.options = target.options := by
  unfold uploadStep at taken
  split at taken <;> cases taken <;> try rfl
  · split
    · rfl
    · exact options_popEvent target
  · exact options_popEvent target

theorem options_wakeUpload (woken : target.wakeUpload = some target') :
    target'.options = target.options := by
  unfold wakeUpload at woken
  split at woken <;> cases woken
  rfl

theorem options_joinThread (joined : target.joinThread = some target') :
    target'.options = target.options := by
  unfold joinThread at joined
  split at joined <;> cases joined
  rfl

end EventQLTarget

theorem Move.options
    {action : Action}
    {control control' : Control}
    {target target' : EventQLTarget}
    (move : Move action control target control' target') :
    target'.options = target.options := by
  cases move with
  | internal => rfl
  | enqueue pushed => exact EventQLTarget.options_enqueueEvent pushed
  | upload taken => exact EventQLTarget.options_uploadStep taken
  | wakeUpload woken => exact EventQLTarget.options_wakeUpload woken
  | start => rfl
  | startFails => rfl
  | startTest => rfl
  | launch => rfl
  | stop => rfl
  | stopReturns => rfl
  | stopTest => rfl
  | store => rfl
  | notify => exact EventQLTarget.options_notifyUpload target
  | join joined => exact EventQLTarget.options_joinThread joined
  | clear => rfl

/-- The upload thread waits only while the queue is empty. -/
theorem Move.asleep
    {action : Action}
    {control control' : Control}
    {target target' : EventQLTarget}
    (move : Move action control target control' target')
    (asleep : target.uploadThread = .waiting → target.queue = []) :
    target'.uploadThread = .waiting → target'.queue = [] := by
  cases move with
  | internal => exact asleep
  | enqueue pushed =>
      exact fun waiting =>
        absurd waiting (EventQLTarget.enqueueEvent_awake pushed).1
  | upload taken => exact EventQLTarget.asleep_uploadStep taken
  | wakeUpload woken =>
      unfold EventQLTarget.wakeUpload at woken
      split at woken <;> cases woken
      exact fun waiting => by cases waiting
  | start => exact asleep
  | startFails => exact asleep
  | startTest => exact asleep
  | launch => exact fun waiting => by cases waiting
  | stop => exact asleep
  | stopReturns => exact asleep
  | stopTest => exact asleep
  | store => exact asleep
  | notify =>
      exact fun waiting =>
        absurd waiting (EventQLTarget.notifyUpload_awake target)
  | join joined =>
      unfold EventQLTarget.joinThread at joined
      split at joined <;> cases joined
      exact fun waiting => by cases waiting
  | clear => exact asleep

theorem Watchful.step
    {action : Action}
    {system system' : System}
    (watchful : Watchful system)
    (taken : system.step action = some system') :
    Watchful system' := by
  have move := System.step_move taken
  refine ⟨fun thread waits => ?_, move.asleep watchful.asleep⟩
  have bound := congrArg Prod.snd move.options
  change system'.target.queueMaxLength = system.target.queueMaxLength at bound
  rw [bound]
  exact (System.step_emitters taken thread).full (watchful.full thread) waits

section Reached

variable {allowed : System → Action → Prop}
variable {routes : List EventRouting}
variable {queueMaxLength : Nat}
variable {system : System}

theorem reachable_options
    (reached : Reachable System.step allowed
      (System.initial routes queueMaxLength) system) :
    system.target.options = (routes, queueMaxLength) := by
  apply reached.invariant fun system : System =>
    system.target.options = (routes, queueMaxLength)
  · rfl
  · intro state action state' same _ taken
    rw [(System.step_move taken).options, same]

theorem reachable_watchful
    (reached : Reachable System.step allowed
      (System.initial routes queueMaxLength) system) :
    Watchful system := by
  apply reached.invariant Watchful
  · exact ⟨fun _ waits => waits.elim, fun _ => rfl⟩
  · intro state action state' watchful _ taken
    exact watchful.step taken

/-- With room for one event in the queue no two sides wait for each other. -/
theorem not_mutualWait_of_pos
    (reached : Reachable System.step allowed
      (System.initial routes queueMaxLength) system)
    (room : 0 < queueMaxLength) :
    ¬system.MutualWait := by
  rintro ⟨⟨thread, waits⟩, asleep⟩
  have watchful := reachable_watchful reached
  have full := watchful.full thread waits
  rw [watchful.asleep asleep] at full
  have bound := congrArg Prod.snd (reachable_options reached)
  change system.target.queueMaxLength = queueMaxLength at bound
  rw [bound] at full
  exact absurd full (Nat.not_le.mpr room)

/-! ## A bound of zero -/

/-- Whether a caller of `emitEvent` will not enqueue anything. -/
def Emitter.EnqueuesNothing : Emitter → Prop
  | .idle _ => True
  | .routing eventName eventData routes =>
      firstEvent eventName eventData routes = none
  | .enqueue _ _ _ _ => False
  | .waiting _ _ _ _ => False

theorem EmitterMove.enqueuesNothing
    {target target' : EventQLTarget}
    {emitter emitter' : Emitter}
    (move : EmitterMove target target' emitter emitter')
    (unrouted : ∀ eventName eventData,
      firstEvent eventName eventData target.routes = none)
    (nothing : emitter.EnqueuesNothing) :
    emitter'.EnqueuesNothing := by
  cases move with
  | kept same => exact nothing
  | woken => cases emitter <;> exact nothing
  | called => exact unrouted _ _
  | returned => trivial
  | skipped routed =>
      simpa only [Emitter.EnqueuesNothing, firstEvent, routed] using nothing
  | matched routed =>
      simp [Emitter.EnqueuesNothing, firstEvent, routed] at nothing
  | waits => exact nothing.elim
  | pushed => exact nothing.elim

theorem not_mutualWait_of_unrouted
    (reached : Reachable System.step allowed
      (System.initial routes queueMaxLength) system)
    (unrouted : ∀ eventName eventData,
      firstEvent eventName eventData routes = none) :
    ¬system.MutualWait := by
  rintro ⟨⟨thread, waits⟩, -⟩
  suffices nothing : system.target.options = (routes, queueMaxLength) ∧
      ∀ thread, (system.emitters thread).EnqueuesNothing by
    have nothing := nothing.2 thread
    revert waits nothing
    cases system.emitters thread <;> simp [Emitter.Waits, Emitter.EnqueuesNothing]
  apply reached.invariant fun system : System =>
    system.target.options = (routes, queueMaxLength) ∧
      ∀ thread, (system.emitters thread).EnqueuesNothing
  · exact ⟨rfl, fun _ => trivial⟩
  · rintro state action state' ⟨same, nothing⟩ _ taken
    refine ⟨by rw [(System.step_move taken).options, same], fun thread => ?_⟩
    apply (System.step_emitters taken thread).enqueuesNothing _ (nothing thread)
    rw [show state.target.routes = routes from congrArg Prod.fst same]
    exact unrouted

end Reached

/-- The upload thread has been launched and waits, and one thread is in the loop
over the routes. -/
structure Waiting
    (eventName eventData : Bytes)
    (routes : List EventRouting)
    (system : System) : Prop where
  emitter : system.emitters 0 = .routing eventName eventData routes
  uploadThread : system.target.uploadThread = .waiting
  queueMaxLength : system.target.queueMaxLength = 0

/-- A caller that comes to a route with its event name waits with the upload
thread. -/
theorem Waiting.mutualWait
    {start : System}
    {eventName eventData : Bytes}
    {event : EnqueuedEvent}
    (routes : List EventRouting)
    (system : System)
    (reached : Reachable System.step BeforeShutdown start system)
    (waiting : Waiting eventName eventData routes system)
    (first : firstEvent eventName eventData routes = some event) :
    ∃ system', Reachable System.step BeforeShutdown start system' ∧
      system'.MutualWait := by
  induction routes generalizing system with
  | nil => cases first
  | cons route routes inductionHypothesis =>
      unfold firstEvent at first
      split at first
      next routed =>
        let next := system.setEmitter 0 (.routing eventName eventData routes)
        have taken : system.step (.emit 0) = some next := by
          simp only [System.step, System.emitStep, waiting.emitter, routed, next]
        have before : BeforeShutdown system (.emit 0) := by simp [BeforeShutdown]
        apply inductionHypothesis next (reached.next before taken)
        · exact ⟨System.emitters_setEmitter .., waiting.uploadThread,
            waiting.queueMaxLength⟩
        · exact first
      next => cases first
      next matched routed =>
        let next := system.setEmitter 0
          (.enqueue matched eventName eventData routes)
        have taken : system.step (.emit 0) = some next := by
          simp only [System.step, System.emitStep, waiting.emitter, routed, next]
        let final := next.setEmitter 0
          (.waiting matched eventName eventData routes)
        have blocked : next.target.enqueueEvent matched = none :=
          if_pos (waiting.queueMaxLength ▸ Nat.zero_le _)
        have waits : next.step (.emit 0) = some final := by
          have atEnqueue : next.emitters 0 =
              .enqueue matched eventName eventData routes :=
            System.emitters_setEmitter ..
          simp only [System.step, System.emitStep, atEnqueue, blocked, final]
        have allowed (state : System) : BeforeShutdown state (.emit 0) := by
          simp [BeforeShutdown]
        refine ⟨final, (reached.next (allowed _) taken).next (allowed _) waits,
          ⟨0, ?_⟩, waiting.uploadThread⟩
        rw [show final.emitters 0 = .waiting matched eventName eventData routes
          from System.emitters_setEmitter ..]
        trivial

/-- The upload thread waits before anything is emitted, and a caller waits with
it where there is no room in the queue at all. -/
theorem exists_mutualWait
    {eventName eventData : Bytes}
    {event : EnqueuedEvent}
    {routes : List EventRouting}
    (first : firstEvent eventName eventData routes = some event) :
    ∃ system, Reachable System.step BeforeShutdown
      (System.initial routes 0) system ∧ system.MutualWait := by
  obtain ⟨system, ran, waiting⟩ : ∃ system : System,
      runWith System.step (fun system action => BeforeShutdown system action)
        [.start, .control, .control, .upload, .upload,
          .call 0 eventName eventData]
        (System.initial routes 0) = some system ∧
      Waiting eventName eventData routes system :=
    ⟨_, rfl, ⟨System.emitters_setEmitter .., rfl, rfl⟩⟩
  apply waiting.mutualWait routes system _ first
  exact reachable_of_runWith
    (fun _ _ passed => of_decide_eq_true passed) _ ran

/-- Before shutdown no caller of `emitEvent` waits for room in the queue while the
upload thread waits for an event, for exactly those options that leave room in
the queue or let no event into it. -/
theorem not_mutualWait_iff
    (config : PropertyList)
    (target : EventQLTarget)
    (built : buildTarget config = .ok target) :
    (∀ system, Reachable System.step BeforeShutdown
        { target := target } system → ¬system.MutualWait) ↔
      0 < target.queueMaxLength ∨
        ∀ eventName eventData,
          firstEvent eventName eventData target.routes = none := by
  have fresh : ({ target := target } : System) =
      System.initial target.routes target.queueMaxLength := by
    rw [System.initial, ← eq_of_buildTarget built]
  rw [fresh]
  constructor
  · intro free
    rcases Nat.eq_zero_or_pos target.queueMaxLength with noRoom | room
    · right
      intro eventName eventData
      rw [noRoom] at free
      cases first : firstEvent eventName eventData target.routes with
      | none => rfl
      | some event =>
          obtain ⟨system, reached, mutualWait⟩ := exists_mutualWait first
          exact absurd mutualWait (free system reached)
    · exact Or.inl room
  · rintro (room | unrouted) system reached
    · exact not_mutualWait_of_pos reached room
    · exact not_mutualWait_of_unrouted reached unrouted

/-- One route, and a queue with a bound. -/
def routeLoad (queueMaxLength : String) : PropertyList where
  properties :=
    [(bytes "route", [bytes "load", bytes "db/load"]),
      (bytes "queue_maxlen", [bytes queueMaxLength])]

theorem not_mutualWait_iff_roomForOne :
    ∃ target, buildTarget (routeLoad "1") = .ok target ∧
      0 < target.queueMaxLength ∧
      ∀ system, Reachable System.step BeforeShutdown
        { target := target } system → ¬system.MutualWait := by
  have built : buildTarget (routeLoad "1") =
      .ok { routes := [⟨bytes "load", bytes "db/load"⟩], queueMaxLength := 1 } := by
    decide
  exact ⟨_, built, Nat.one_pos,
    (not_mutualWait_iff (routeLoad "1") _ built).mpr (Or.inl Nat.one_pos)⟩

/-- A bound of zero is accepted, and the first event waits for ever. -/
theorem mutualWait_noRoom :
    ∃ target, buildTarget (routeLoad "0") = .ok target ∧
      ∃ system, Reachable System.step BeforeShutdown
        { target := target } system ∧ system.MutualWait := by
  have built : buildTarget (routeLoad "0") =
      .ok { routes := [⟨bytes "load", bytes "db/load"⟩], queueMaxLength := 0 } := by
    decide
  have first : firstEvent (bytes "load") (bytes "1")
      [⟨bytes "load", bytes "db/load"⟩] =
      some ⟨bytes "db", bytes "load", bytes "1"⟩ := by decide
  exact ⟨_, built, exists_mutualWait first⟩

end EventQL
end EvCollect
