import EvCollect.EventQL.Threads

/-!
# Stopping the upload thread

`stopUploadThread` stores the shutdown flag and notifies without the mutex,
while the upload thread tests the flag in one critical section and begins to
wait in the next one. A notification between the two is lost.
-/

namespace EvCollect
namespace EventQL

open Transition

/-- The thread that stops the upload thread is blocked in `join`, the upload
thread waits, and no other thread is about to notify anybody. -/
def System.Stuck (system : System) : Prop :=
  system.control = .join ∧ system.target.uploadThread = .waiting ∧
    ∀ thread, (system.emitters thread).AtRest

/-- The notification of `stopUploadThread` does not fall between the upload
thread's test of the flag and the critical section in which it would find
the queue empty. -/
def NotifyHeard (system : System) (action : Action) : Prop :=
  action = .control → system.control = .notify →
    system.target.uploadThread = .await → system.target.queue ≠ []

/-- What the upload thread can still do once it has been told to stop. -/
structure Stopping (control : Control) (target : EventQLTarget) : Prop where
  told : control = .notify ∨ control = .join → target.threadShutdown = true
  awake : control = .join → target.uploadThread ≠ .waiting
  fed : control = .join → target.uploadThread = .await → target.queue ≠ []

namespace EventQLTarget

variable {target target' : EventQLTarget}

@[simp] theorem threadShutdown_notifyUpload (target : EventQLTarget) :
    target.notifyUpload.threadShutdown = target.threadShutdown := by
  unfold notifyUpload
  split <;> rfl

@[simp] theorem threadShutdown_popEvent (target : EventQLTarget) :
    target.popEvent.threadShutdown = target.threadShutdown := by
  unfold popEvent
  split <;> rfl

theorem notifyUpload_awake (target : EventQLTarget) :
    target.notifyUpload.uploadThread ≠ .waiting := by
  unfold notifyUpload
  split
  · simp
  · assumption

theorem notifyUpload_await
    (awaits : target.notifyUpload.uploadThread = .await) :
    target.uploadThread = .await := by
  unfold notifyUpload at awaits
  split at awaits
  · simp at awaits
  · exact awaits

theorem threadShutdown_enqueueEvent
    {event : EnqueuedEvent}
    (pushed : target.enqueueEvent event = some target') :
    target'.threadShutdown = target.threadShutdown := by
  unfold enqueueEvent at pushed
  split at pushed
  · cases pushed
  · cases pushed
    exact threadShutdown_notifyUpload _

theorem threadShutdown_uploadStep
    (taken : target.uploadStep = some target') :
    target'.threadShutdown = target.threadShutdown := by
  unfold uploadStep at taken
  split at taken <;> cases taken <;> try rfl
  · split
    · rfl
    · exact threadShutdown_popEvent target
  · exact threadShutdown_popEvent target

theorem threadShutdown_wakeUpload
    (woken : target.wakeUpload = some target') :
    target'.threadShutdown = target.threadShutdown := by
  unfold wakeUpload at woken
  split at woken <;> cases woken
  rfl

/-- After a push the upload thread is awake, and it has something to do. -/
theorem enqueueEvent_awake
    {event : EnqueuedEvent}
    (pushed : target.enqueueEvent event = some target') :
    target'.uploadThread ≠ .waiting ∧ target'.queue ≠ [] := by
  unfold enqueueEvent at pushed
  split at pushed
  · cases pushed
  · cases pushed
    refine ⟨notifyUpload_awake _, ?_⟩
    unfold notifyUpload
    split <;> simp

theorem popEvent_awake (target : EventQLTarget) :
    target.popEvent.uploadThread ≠ .waiting ∧
      target.popEvent.uploadThread ≠ .await := by
  unfold popEvent
  split <;> simp

/-- Once the flag is set, the upload thread does not go to sleep unless it is
past the test and finds the queue empty. -/
theorem uploadStep_awake
    (told : target.threadShutdown = true)
    (fed : target.uploadThread = .await → target.queue ≠ [])
    (taken : target.uploadStep = some target') :
    target'.uploadThread ≠ .waiting ∧ target'.uploadThread ≠ .await := by
  unfold uploadStep at taken
  split at taken
  next => cases taken
  next =>
    cases taken
    simp [told]
  next atAwait =>
    cases taken
    rw [if_neg (by simpa using fed atAwait)]
    exact popEvent_awake target
  next => cases taken
  next =>
    cases taken
    exact popEvent_awake target
  next =>
    cases taken
    simp
  next =>
    cases taken
    simp
  next => cases taken

end EventQLTarget

/-- One step keeps the upload thread on its way to its end, if the notification
is heard. -/
theorem Move.stopping
    {action : Action}
    {control control' : Control}
    {target target' : EventQLTarget}
    (move : Move action control target control' target')
    (heard : action = .control → control = .notify →
      target.uploadThread = .await → target.queue ≠ [])
    (stopping : Stopping control target) :
    Stopping control' target' := by
  cases move with
  | internal => exact stopping
  | enqueue pushed =>
      have awake := EventQLTarget.enqueueEvent_awake pushed
      refine ⟨?_, fun _ => awake.1, fun _ _ => awake.2⟩
      rw [EventQLTarget.threadShutdown_enqueueEvent pushed]
      exact stopping.told
  | upload taken =>
      have told := stopping.told
      rw [← EventQLTarget.threadShutdown_uploadStep taken] at told
      refine ⟨told, ?_, ?_⟩
      · intro joining
        exact (EventQLTarget.uploadStep_awake (stopping.told (Or.inr joining))
          (stopping.fed joining) taken).1
      · intro joining awaits
        exact absurd awaits (EventQLTarget.uploadStep_awake
          (stopping.told (Or.inr joining)) (stopping.fed joining) taken).2
  | wakeUpload woken =>
      have told := stopping.told
      rw [← EventQLTarget.threadShutdown_wakeUpload woken] at told
      unfold EventQLTarget.wakeUpload at woken
      split at woken <;> cases woken
      exact ⟨told, by simp, by simp⟩
  | start => exact ⟨by simp, by simp, by simp⟩
  | startFails => exact ⟨by simp, by simp, by simp⟩
  | startTest => exact ⟨by simp, by simp, by simp⟩
  | launch => exact ⟨by simp, by simp, by simp⟩
  | stop => exact ⟨by simp, by simp, by simp⟩
  | stopReturns => exact ⟨by simp, by simp, by simp⟩
  | stopTest => exact ⟨by simp, by simp, by simp⟩
  | store => exact ⟨fun _ => rfl, by simp, by simp⟩
  | notify =>
      refine ⟨?_, fun _ => EventQLTarget.notifyUpload_awake target, ?_⟩
      · intro _
        rw [EventQLTarget.threadShutdown_notifyUpload]
        exact stopping.told (Or.inl rfl)
      · intro _ awaits
        have fed := heard rfl rfl (EventQLTarget.notifyUpload_await awaits)
        unfold EventQLTarget.notifyUpload
        split <;> exact fed
  | join => exact ⟨by simp, by simp, by simp⟩
  | clear => exact ⟨by simp, by simp, by simp⟩

/-- No run gets stuck in `join` in which the notification of every stop is
heard. -/
theorem reachable_not_stuck
    {routes : List EventRouting}
    {queueMaxLength : Nat}
    {system : System}
    (reached : Reachable System.step NotifyHeard
      (System.initial routes queueMaxLength) system) :
    ¬system.Stuck := by
  suffices kept : Stopping system.control system.target by
    rintro ⟨joining, waiting, _⟩
    exact kept.awake joining waiting
  apply reached.invariant fun system : System =>
    Stopping system.control system.target
  · exact ⟨by simp [System.initial], by simp [System.initial],
      by simp [System.initial]⟩
  · intro state action state' stopping heard taken
    exact (System.step_move taken).stopping heard stopping

/-- The upload thread is launched and stopped. -/
def launchAndStop : List Action :=
  [.start, .control, .control, .stop, .control, .control, .control]

instance (system : System) (action : Action) :
    Decidable (NotifyHeard system action) := by
  unfold NotifyHeard
  infer_instance

theorem reachable_not_stuck_launchAndStop :
    ∃ system : System, system.control = .join ∧ ¬system.Stuck := by
  obtain ⟨system, ran, joining⟩ : ∃ system,
      runWith System.step (fun system action => NotifyHeard system action)
        launchAndStop (System.initial [] 8192) = some system ∧
      system.control = .join := ⟨_, rfl, rfl⟩
  exact ⟨system, joining, reachable_not_stuck
    (reachable_of_runWith (fun _ _ passed => of_decide_eq_true passed)
      launchAndStop ran)⟩

/-- The upload thread tests the flag, is told to stop, and begins to wait: the
notification came before the wait, and there is none left. -/
theorem reachable_stuck :
    ∃ system, Reachable System.step anyAction (System.initial [] 8192) system ∧
      system.Stuck := by
  obtain ⟨system, ran, joining, waiting, rest⟩ : ∃ system : System,
      runWith System.step (fun _ _ => true)
        [.start, .control, .control, .upload, .stop, .control, .control,
          .control, .upload] (System.initial [] 8192) = some system ∧
      system.control = .join ∧ system.target.uploadThread = .waiting ∧
      ∀ thread, system.emitters thread = .idle none :=
    ⟨_, rfl, rfl, rfl, fun _ => rfl⟩
  refine ⟨system, reachable_of_runWith (fun _ _ _ => trivial) _ ran,
    joining, waiting, ?_⟩
  intro thread
  rw [rest thread]
  trivial

end EventQL
end EvCollect
