import EvCollect.EventQL.Threads

/-!
# What the histories of a target record

The histories of a target are read off the program points of its threads:
`uploaded` grows by an event exactly when the upload thread enters `uploadEvent`
with it, and `accepted` exactly when `enqueueEvent` pushes one and returns.
-/

namespace EvCollect
namespace EventQL

/-- The events with which the upload thread enters `uploadEvent` in a step. -/
def UploadThread.handedOver
    (before after : UploadThread) : List EnqueuedEvent :=
  match after with
  | .uploading event => if before = after then [] else [event]
  | _ => []

@[simp] theorem UploadThread.handedOver_self (thread : UploadThread) :
    thread.handedOver thread = [] := by
  cases thread <;> simp [UploadThread.handedOver]

/-- The events with which `enqueueEvent` returns in a step of its caller. -/
def Emitter.pushed (before after : Emitter) : List EnqueuedEvent :=
  match before, after with
  | .enqueue event _ _ _, .routing _ _ _ => [event]
  | _, _ => []

/-- The events with which `enqueueEvent` returns in a step of the system. -/
def Action.pushed
    (action : Action)
    (before after : System) : List EnqueuedEvent :=
  match action with
  | .emit thread =>
      (before.emitters thread).pushed (after.emitters thread)
  | _ => []

namespace EventQLTarget

/-- The histories record a step: the events with which `uploadEvent` is entered,
and those that have been pushed. -/
structure Recorded
    (pushed : List EnqueuedEvent)
    (before after : EventQLTarget) : Prop where
  uploaded : after.uploaded = before.uploaded ++
    before.uploadThread.handedOver after.uploadThread
  accepted : after.accepted = before.accepted ++ pushed

variable {target target' : EventQLTarget}

/-- Nothing is recorded of a step that leaves the upload thread outside of
`uploadEvent`, and the histories alone. -/
theorem Recorded.of_outside
    (outside : ∀ event, target'.uploadThread ≠ .uploading event)
    (uploaded : target'.uploaded = target.uploaded)
    (accepted : target'.accepted = target.accepted) :
    Recorded [] target target' := by
  have nothing : target.uploadThread.handedOver target'.uploadThread = [] := by
    unfold UploadThread.handedOver
    split
    next event inside => exact absurd inside (outside event)
    next => rfl
  constructor
  · rw [nothing, List.append_nil, uploaded]
  · rw [List.append_nil, accepted]

/-- Nothing is recorded of a step that the upload thread does not notice. -/
theorem Recorded.of_same
    (same : target'.uploadThread = target.uploadThread)
    (uploaded : target'.uploaded = target.uploaded)
    (accepted : target'.accepted = target.accepted) :
    Recorded [] target target' := by
  constructor
  · rw [same, UploadThread.handedOver_self, List.append_nil, uploaded]
  · rw [List.append_nil, accepted]

theorem recorded_notifyUpload (target : EventQLTarget) :
    Recorded [] target target.notifyUpload := by
  unfold notifyUpload
  split
  · exact .of_outside (by simp) rfl rfl
  · exact .of_same rfl rfl rfl

/-- An event is recorded as accepted when it has been pushed. -/
theorem recorded_enqueueEvent
    {event : EnqueuedEvent}
    (pushed : target.enqueueEvent event = some target') :
    Recorded [event] target target' := by
  unfold enqueueEvent at pushed
  split at pushed
  · cases pushed
  · cases pushed
    have notified := recorded_notifyUpload
      { target with
        queue := target.queue ++ [event]
        accepted := target.accepted ++ [event] }
    exact ⟨notified.uploaded, by simpa using notified.accepted⟩

theorem recorded_popEvent (target : EventQLTarget) :
    Recorded [] target target.popEvent := by
  unfold popEvent
  split <;> exact .of_outside (by simp) rfl rfl

/-- An event is recorded as uploaded when `uploadEvent` is entered with it. -/
theorem recorded_uploadStep (taken : target.uploadStep = some target') :
    Recorded [] target target' := by
  unfold uploadStep at taken
  split at taken
  next => cases taken
  next =>
    cases taken
    refine .of_outside ?_ rfl rfl
    cases target.threadShutdown <;> simp
  next =>
    cases taken
    split
    · exact .of_outside (by simp) rfl rfl
    · exact recorded_popEvent target
  next => cases taken
  next =>
    cases taken
    exact recorded_popEvent target
  next event popped =>
    cases taken
    constructor
    · simp [popped, UploadThread.handedOver]
    · simp
  next =>
    cases taken
    exact .of_outside (by simp) rfl rfl
  next => cases taken

theorem recorded_wakeUpload (woken : target.wakeUpload = some target') :
    Recorded [] target target' := by
  unfold wakeUpload at woken
  split at woken <;> cases woken
  exact .of_outside (by simp) rfl rfl

theorem recorded_launchThread (target : EventQLTarget) :
    Recorded [] target target.launchThread :=
  .of_outside (by simp [launchThread]) rfl rfl

theorem recorded_joinThread (joined : target.joinThread = some target') :
    Recorded [] target target' := by
  unfold joinThread at joined
  split at joined <;> cases joined
  exact .of_outside (by simp) rfl rfl

end EventQLTarget

open EventQLTarget

/-- A step of a thread that does not emit. -/
theorem Move.recorded
    {action : Action}
    {control control' : Control}
    {target target' : EventQLTarget}
    (move : Move action control target control' target')
    (emitsNot : ∀ thread, action ≠ .emit thread) :
    Recorded [] target target' := by
  cases move with
  | internal => exact .of_same rfl rfl rfl
  | enqueue => exact absurd rfl (emitsNot _)
  | upload taken => exact recorded_uploadStep taken
  | wakeUpload woken => exact recorded_wakeUpload woken
  | start => exact .of_same rfl rfl rfl
  | startFails => exact .of_same rfl rfl rfl
  | startTest => exact .of_same rfl rfl rfl
  | launch => exact recorded_launchThread target
  | stop => exact .of_same rfl rfl rfl
  | stopReturns => exact .of_same rfl rfl rfl
  | stopTest => exact .of_same rfl rfl rfl
  | store => exact .of_same rfl rfl rfl
  | notify => exact recorded_notifyUpload target
  | join joined => exact recorded_joinThread joined
  | clear => exact .of_same rfl rfl rfl

namespace System

/-- A step of a thread in `emitEvent`. -/
theorem recorded_emitStep
    {thread : Nat}
    {system system' : System}
    (taken : system.emitStep thread = some system') :
    Recorded ((system.emitters thread).pushed (system'.emitters thread))
      system.target system'.target := by
  unfold emitStep at taken
  split at taken
  next => cases taken
  next isRouting =>
    cases taken
    rw [isRouting]
    exact .of_same rfl rfl rfl
  next isRouting =>
    rw [isRouting]
    split at taken <;> cases taken <;> exact .of_same rfl rfl rfl
  next isEnqueue =>
    rw [isEnqueue]
    split at taken
    next =>
      cases taken
      simp only [setEmitter, Function.update_self]
      exact .of_same rfl rfl rfl
    next pushed =>
      cases taken
      simp only [setEmitter, Function.update_self]
      exact recorded_enqueueEvent pushed
  next => cases taken

/-- The histories record every step of every thread. -/
theorem recorded_step
    {action : Action}
    {system system' : System}
    (taken : system.step action = some system') :
    Recorded (action.pushed system system') system.target system'.target := by
  cases action with
  | emit thread => exact recorded_emitStep taken
  | call => exact (step_move taken).recorded (by simp)
  | wakeEmitter => exact (step_move taken).recorded (by simp)
  | upload => exact (step_move taken).recorded (by simp)
  | wakeUpload => exact (step_move taken).recorded (by simp)
  | start => exact (step_move taken).recorded (by simp)
  | stop => exact (step_move taken).recorded (by simp)
  | control => exact (step_move taken).recorded (by simp)

end System

end EventQL
end EvCollect
