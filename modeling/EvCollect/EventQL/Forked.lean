import EvCollect.EventQL.Queue

/-!
# An EventQL target behind a fork

`daemonize` calls `daemon`, which forks, after the targets have been attached. A
fork takes over the thread that calls it only, so the new process has the state
of a target whose upload thread does not exist. From then on nothing is uploaded,
`emitEvent` waits forever once the queue is full, and `stopUploadThread` never
returns.
-/

namespace EvCollect
namespace EventQL

open Transition

/-- The steps that can be taken in a process that has not taken over the upload
thread. -/
def Forked (_system : System) (action : Action) : Prop :=
  action ≠ .upload ∧ action ≠ .wakeUpload

instance (system : System) (action : Action) :
    Decidable (Forked system action) :=
  inferInstanceAs (Decidable (_ ∧ _))

/-- There is an upload thread that has not returned. -/
def UploadThread.Alive (thread : UploadThread) : Prop :=
  thread ≠ .absent ∧ thread ≠ .exited

/-- The event that a thread wants to enqueue. -/
def Emitter.enqueuing : Emitter → Option EnqueuedEvent
  | .enqueue event _ _ _ | .waiting event _ _ _ => some event
  | .idle _ | .routing _ _ _ => none

/-- What has become of the target that a process has taken over: there are more
events in its queue, and its upload thread is as good as running. -/
structure Orphaned
    (start : EventQLTarget)
    (control : Control)
    (target : EventQLTarget) : Prop where
  running : target.threadRunning = true
  alive : target.uploadThread.Alive
  uploaded : target.uploaded = start.uploaded
  grown : ∃ more, target.accepted = start.accepted ++ more ∧
    target.queue = start.queue ++ more
  limit : target.queueMaxLength = start.queueMaxLength
  bounded : target.queue.length ≤ start.queueMaxLength
  /-- No other upload thread is launched, and none has been joined. -/
  control : control ≠ .launch ∧ control ≠ .clear

variable {start target target' : EventQLTarget}
variable {control control' : Control}

theorem UploadThread.Alive.notifyUpload
    (alive : target.uploadThread.Alive) :
    target.notifyUpload.uploadThread.Alive := by
  unfold EventQLTarget.notifyUpload
  split
  · exact ⟨nofun, nofun⟩
  · exact alive

theorem Orphaned.notifyUpload
    (orphaned : Orphaned start control target)
    (same : control' ≠ .launch ∧ control' ≠ .clear) :
    Orphaned start control' target.notifyUpload := by
  have kept : target.notifyUpload.threadRunning = target.threadRunning ∧
      target.notifyUpload.uploaded = target.uploaded ∧
      target.notifyUpload.accepted = target.accepted ∧
      target.notifyUpload.queueMaxLength = target.queueMaxLength := by
    unfold EventQLTarget.notifyUpload
    split <;> exact ⟨rfl, rfl, rfl, rfl⟩
  obtain ⟨running, uploaded, accepted, limit⟩ := kept
  have queue := EventQLTarget.queue_notifyUpload target
  exact {
    running := running.trans orphaned.running
    alive := orphaned.alive.notifyUpload
    uploaded := uploaded.trans orphaned.uploaded
    grown := by rw [accepted, queue]; exact orphaned.grown
    limit := limit.trans orphaned.limit
    bounded := queue ▸ orphaned.bounded
    control := same }

/-- An event that is enqueued stays in the queue. -/
theorem Orphaned.enqueueEvent
    {event : EnqueuedEvent}
    (orphaned : Orphaned start control target)
    (pushed : target.enqueueEvent event = some target') :
    Orphaned start control target' := by
  unfold EventQLTarget.enqueueEvent at pushed
  split at pushed
  · cases pushed
  next room =>
    cases pushed
    obtain ⟨more, accepted, queue⟩ := orphaned.grown
    have longer : (target.queue ++ [event]).length ≤ start.queueMaxLength := by
      rw [List.length_append, List.length_singleton, ← orphaned.limit]
      exact Nat.not_le.mp room
    refine Orphaned.notifyUpload ⟨orphaned.running, orphaned.alive,
      orphaned.uploaded, ⟨more ++ [event], ?_, ?_⟩, orphaned.limit, longer,
      orphaned.control⟩ orphaned.control
    · rw [accepted, List.append_assoc]
    · rw [queue, List.append_assoc]

/-- A thread that is not there is not joined. -/
theorem UploadThread.Alive.not_joined (alive : target.uploadThread.Alive) :
    target.joinThread = none := by
  unfold EventQLTarget.joinThread
  split
  next exited => exact absurd exited alive.2
  · rfl

/-- A step of any thread that is there. -/
theorem Move.orphaned
    {system : System}
    {action : Action}
    (move : Move action control target control' target')
    (forked : Forked system action)
    (orphaned : Orphaned start control target) :
    Orphaned start control' target' := by
  cases move with
  | internal => exact orphaned
  | enqueue pushed => exact orphaned.enqueueEvent pushed
  | upload taken => exact absurd rfl forked.1
  | wakeUpload woken => exact absurd rfl forked.2
  | start | startFails | stop | stopReturns | stopTest =>
      exact { orphaned with control := ⟨nofun, nofun⟩ }
  | startTest stopped =>
      rw [orphaned.running] at stopped
      cases stopped
  | launch => exact absurd rfl orphaned.control.1
  | store =>
      exact ⟨orphaned.running, orphaned.alive, orphaned.uploaded,
        orphaned.grown, orphaned.limit, orphaned.bounded, ⟨nofun, nofun⟩⟩
  | notify => exact orphaned.notifyUpload ⟨nofun, nofun⟩
  | join joined =>
      rw [orphaned.alive.not_joined] at joined
      cases joined
  | clear => exact absurd rfl orphaned.control.2

/-- The thread that stops the upload thread stays in `join`. -/
theorem Move.joining
    {action : Action}
    (move : Move action .join target control' target')
    (alive : target.uploadThread.Alive) : control' = .join := by
  cases move with
  | join joined =>
      rw [alive.not_joined] at joined
      cases joined
  | internal | enqueue | upload | wakeUpload => rfl

/-- In a run of such a process. -/
theorem orphaned_of_forked
    {system after : System}
    (orphaned : Orphaned start system.control system.target)
    (ran : Reachable System.step Forked system after) :
    Orphaned start after.control after.target :=
  ran.invariant (fun system => Orphaned start system.control system.target)
    orphaned fun _ _ _ held forked taken =>
      (System.step_move taken).orphaned forked held

/-! ## Waiting -/

section Waiting

variable {system system' : System}
variable {thread : Nat}
variable {event : EnqueuedEvent}

theorem enqueuing_wake (emitter : Emitter) :
    emitter.wake.enqueuing = emitter.enqueuing := by
  cases emitter <;> rfl

theorem enqueuing_setEmitter
    {other : Nat}
    {emitter : Emitter}
    (wants : (system.emitters thread).enqueuing = some event)
    (own : other = thread → emitter.enqueuing = some event) :
    ((system.setEmitter other emitter).emitters thread).enqueuing =
      some event := by
  change (Function.update system.emitters other emitter thread).enqueuing = _
  by_cases same : thread = other
  · subst same
    rw [Function.update_self]
    exact own rfl
  · rw [Function.update_of_ne same]
    exact wants

/-- Where the queue is full, a thread in `emitEvent` does not come to enqueue
its event. -/
theorem enqueuing_emitStep
    {other : Nat}
    (full : system.target.queueMaxLength ≤ system.target.queue.length)
    (wants : (system.emitters thread).enqueuing = some event)
    (taken : system.emitStep other = some system') :
    (system'.emitters thread).enqueuing = some event := by
  have own : ∀ emitter, system.emitters other = emitter → other = thread →
      emitter.enqueuing = some event := by
    rintro _ rfl rfl
    exact wants
  unfold System.emitStep at taken
  split at taken
  · cases taken
  next atEnd =>
    cases taken
    exact enqueuing_setEmitter wants fun same => nomatch own _ atEnd same
  next atRoute =>
    split at taken <;> cases taken <;>
      exact enqueuing_setEmitter wants fun same => nomatch own _ atRoute same
  next atQueue =>
    rw [EventQLTarget.enqueueEvent, if_pos full] at taken
    cases taken
    have mine := own _ atQueue
    exact enqueuing_setEmitter wants mine
  · cases taken

theorem enqueuing_controlStep
    (wants : (system.emitters thread).enqueuing = some event)
    (taken : system.controlStep = some system') :
    (system'.emitters thread).enqueuing = some event := by
  unfold System.controlStep at taken
  split at taken
  · cases taken
  · split at taken <;> cases taken <;> exact wants
  · cases taken
    exact wants
  · split at taken <;> cases taken <;> exact wants
  · cases taken
    exact wants
  · cases taken
    exact (enqueuing_wake _).trans wants
  · split at taken <;> cases taken
    exact wants
  · cases taken
    exact wants

/-- So it is for any step of a process without an upload thread. -/
theorem enqueuing_step
    {action : Action}
    (full : system.target.queueMaxLength ≤ system.target.queue.length)
    (forked : Forked system action)
    (wants : (system.emitters thread).enqueuing = some event)
    (taken : system.step action = some system') :
    (system'.emitters thread).enqueuing = some event := by
  cases action with
  | call other eventName eventData =>
      simp only [System.step] at taken
      split at taken
      next isIdle =>
        cases taken
        refine enqueuing_setEmitter wants fun same => ?_
        rw [← same, isIdle] at wants
        cases wants
      · cases taken
  | emit other => exact enqueuing_emitStep full wants taken
  | wakeEmitter other =>
      simp only [System.step] at taken
      split at taken
      next isWaiting =>
        cases taken
        refine enqueuing_setEmitter wants fun same => ?_
        rw [← same, isWaiting] at wants
        exact wants
      · cases taken
  | upload => exact absurd rfl forked.1
  | wakeUpload => exact absurd rfl forked.2
  | start | stop =>
      simp only [System.step] at taken
      split at taken <;> cases taken
      exact wants
  | control => exact enqueuing_controlStep wants taken

end Waiting

/-! ## What is left behind a fork -/

/-- A target that is taken over by a fork has nothing in addition yet. -/
theorem Orphaned.refl
    {system : System}
    {last : Option ReturnCode}
    (running : system.target.threadRunning = true)
    (alive : system.target.uploadThread.Alive)
    (bounded : system.target.queue.length ≤ system.target.queueMaxLength)
    (outside : system.control = .idle last) :
    Orphaned system.target system.control system.target where
  running := running
  alive := alive
  uploaded := rfl
  grown := ⟨[], (List.append_nil _).symm, (List.append_nil _).symm⟩
  limit := rfl
  bounded := bounded
  control := by
    rw [outside]
    exact ⟨nofun, nofun⟩

/-- What has been added stays. -/
theorem Orphaned.again
    (orphaned : Orphaned start control target) :
    Orphaned target control target :=
  { orphaned with
    uploaded := rfl
    grown := ⟨[], (List.append_nil _).symm, (List.append_nil _).symm⟩
    limit := rfl
    bounded := orphaned.limit ▸ orphaned.bounded }

/-- A queue that is full stays full. -/
theorem Orphaned.full
    (orphaned : Orphaned start control target)
    (full : start.queueMaxLength ≤ start.queue.length) :
    target.queueMaxLength ≤ target.queue.length := by
  obtain ⟨more, -, queue⟩ := orphaned.grown
  rw [orphaned.limit, queue, List.length_append]
  exact Nat.le_add_right_of_le full

/-- The threads of a process that has taken over a target by a fork, whatever
they do: no event is uploaded any more, all that are accepted stay in the queue,
up to its bound, a thread that finds the queue full never enqueues its event, and
`stopUploadThread` never returns from `join`. -/
theorem forked_stalls
    {routes : List EventRouting}
    {queueMaxLength : Nat}
    {system after : System}
    {last : Option ReturnCode}
    (reached : Reachable System.step anyAction
      (System.initial routes queueMaxLength) system)
    (outside : system.control = .idle last)
    (alive : system.target.uploadThread.Alive)
    (ran : Reachable System.step Forked system after) :
    after.target.uploaded = system.target.uploaded ∧
      (∃ more, after.target.accepted = system.target.accepted ++ more ∧
        after.target.queue = system.target.queue ++ more ∧
        after.target.queue.length ≤ system.target.queueMaxLength) ∧
      ∀ later, Reachable System.step Forked after later →
        (after.control = .join → later.control = .join) ∧
        (after.target.queueMaxLength ≤ after.target.queue.length →
          ∀ thread event,
            (after.emitters thread).enqueuing = some event →
              (later.emitters thread).enqueuing = some event) := by
  have kept : system.target.Fifo ∧ NoThread system.control system.target :=
    reached.invariant
      (fun system => system.target.Fifo ∧ NoThread system.control system.target)
      ⟨⟨rfl, Nat.zero_le _⟩, fun _ => rfl⟩ fun _ _ _ held _ taken =>
        ⟨(System.step_move taken).fifo held.1 held.2,
          (System.step_move taken).noThread held.2⟩
  have running : system.target.threadRunning = true := by
    by_contra stopped
    exact alive.1 (kept.2 (.inl (Bool.not_eq_true _ ▸ stopped)))
  have orphaned := orphaned_of_forked
    (.refl running alive kept.1.bounded outside) ran
  obtain ⟨more, accepted, queue⟩ := orphaned.grown
  refine ⟨orphaned.uploaded, ⟨more, accepted, queue, orphaned.bounded⟩,
    fun later stalled => ⟨fun atJoin => ?_, fun full thread event wants => ?_⟩⟩
  · have joining := stalled.invariant
      (fun state => Orphaned system.target state.control state.target ∧
        state.control = .join) ⟨orphaned, atJoin⟩ ?_
    · exact joining.2
    · rintro state action state' ⟨held, isJoin⟩ forked taken
      have move := System.step_move taken
      refine ⟨move.orphaned forked held, ?_⟩
      rw [isJoin] at move
      exact move.joining held.alive
  · have waits := stalled.invariant
      (fun state => Orphaned after.target state.control state.target ∧
        (state.emitters thread).enqueuing = some event)
      ⟨orphaned.again, wants⟩ ?_
    · exact waits.2
    · rintro state action state' ⟨held, stillWants⟩ forked taken
      exact ⟨(System.step_move taken).orphaned forked held,
        enqueuing_step (held.full full) forked stillWants taken⟩

/-- One event fills the queue, a thread waits with the next one, and the target
is detached. -/
def afterFork : List Action :=
  [.call 0 (bytes "load") (bytes "1"), .emit 0, .emit 0, .emit 0,
    .call 0 (bytes "load") (bytes "2"), .emit 0, .emit 0,
    .stop, .control, .control, .control]

theorem forked_stalls_afterFork :
    ∃ system after : System, after.control = .join ∧
      (after.emitters 0).enqueuing =
        some ⟨bytes "db", bytes "load", bytes "2"⟩ ∧
      after.target.uploaded = system.target.uploaded ∧
      ∀ later, Reachable System.step Forked after later →
        (after.control = .join → later.control = .join) := by
  obtain ⟨system, started, outside, alive⟩ : ∃ system,
      runWith System.step (fun _ _ => true) [.start, .control, .control]
        (System.initial [⟨bytes "load", bytes "db/load"⟩] 1) = some system ∧
      system.control = .idle (some ReturnCode.success) ∧
      system.target.uploadThread.Alive :=
    ⟨_, rfl, rfl, nofun, nofun⟩
  obtain ⟨after, ran, joining, waiting⟩ : ∃ after,
      runWith System.step (fun state action => decide (Forked state action))
        afterFork system = some after ∧
      after.control = .join ∧
      (after.emitters 0).enqueuing =
        some ⟨bytes "db", bytes "load", bytes "2"⟩ := by
    cases started
    exact ⟨_, rfl, rfl, rfl⟩
  have stalls := forked_stalls
    (reachable_of_runWith (fun _ _ _ => trivial) _ started) outside alive
    (reachable_of_runWith (fun _ _ passed => of_decide_eq_true passed) _ ran)
  exact ⟨system, after, joining, waiting, stalls.1,
    fun later stalled => (stalls.2.2 later stalled).1⟩

end EventQL
end EvCollect
