import EvCollect.EventQL.Plugin
import EvCollect.EventQL.Queue
import EvCollect.EventQL.Shutdown

/-!
# What stopping leaves in the queue

Once `thread_shutdown_` is set the upload thread takes at most one more event
from the queue: the one that it is about to await. What is left of the queue
then does not change any more, and is discarded with the target.
-/

namespace EvCollect
namespace EventQL

open Process Service

namespace EventQLTarget

/-- The events that the upload thread does not take any more if it is told to
stop now. -/
def discarded (target : EventQLTarget) : List EnqueuedEvent :=
  match target.uploadThread with
  | .await => target.queue.tail
  | .woken => target.queue.tail
  | _ => target.queue

/-- The upload thread keeps the order of the events, and waits only if there
are none. -/
structure Orderly (target : EventQLTarget) : Prop where
  fifo : target.Fifo
  asleep : target.uploadThread = .waiting → target.queue = []

/-- What the upload thread does not touch. -/
structure SameBooks (before after : EventQLTarget) : Prop where
  routes : after.routes = before.routes
  accepted : after.accepted = before.accepted
  threadRunning : after.threadRunning = before.threadRunning
  threadShutdown : after.threadShutdown = before.threadShutdown

variable {target target' : EventQLTarget}

theorem SameBooks.refl (target : EventQLTarget) : target.SameBooks target :=
  ⟨rfl, rfl, rfl, rfl⟩

theorem sameBooks_popEvent (target : EventQLTarget) :
    target.SameBooks target.popEvent := by
  unfold popEvent
  split <;> exact ⟨rfl, rfl, rfl, rfl⟩

theorem sameBooks_notifyUpload (target : EventQLTarget) :
    target.SameBooks target.notifyUpload := by
  unfold notifyUpload
  split <;> exact ⟨rfl, rfl, rfl, rfl⟩

theorem sameBooks_uploadStep (taken : target.uploadStep = some target') :
    target.SameBooks target' := by
  unfold uploadStep at taken
  split at taken <;> cases taken
  · exact ⟨rfl, rfl, rfl, rfl⟩
  · split
    · exact ⟨rfl, rfl, rfl, rfl⟩
    · exact sameBooks_popEvent target
  · exact sameBooks_popEvent target
  · exact ⟨rfl, rfl, rfl, rfl⟩
  · exact ⟨rfl, rfl, rfl, rfl⟩

theorem sameBooks_wakeUpload (woken : target.wakeUpload = some target') :
    target.SameBooks target' := by
  unfold wakeUpload at woken
  split at woken <;> cases woken
  exact ⟨rfl, rfl, rfl, rfl⟩

/-! ## Steps of the upload thread -/

/-- The upload thread goes to sleep only where it finds the queue empty. -/
theorem asleep_uploadStep
    (taken : target.uploadStep = some target')
    (waiting : target'.uploadThread = .waiting) :
    target'.queue = [] := by
  unfold uploadStep at taken
  split at taken <;> cases taken
  · split at waiting <;> cases waiting
  · split at waiting
    next isEmpty =>
      rw [if_pos isEmpty]
      exact List.isEmpty_iff.mp isEmpty
    next => exact absurd waiting (popEvent_awake target).1
  · exact absurd waiting (popEvent_awake target).1
  · cases waiting
  · cases waiting

theorem Orderly.uploadStep
    (orderly : target.Orderly)
    (taken : target.uploadStep = some target') :
    target'.Orderly :=
  ⟨orderly.fifo.uploadStep taken, asleep_uploadStep taken⟩

theorem Orderly.wakeUpload
    (orderly : target.Orderly)
    (woken : target.wakeUpload = some target') :
    target'.Orderly := by
  refine ⟨orderly.fifo.wakeUpload woken, fun waiting => ?_⟩
  unfold EventQLTarget.wakeUpload at woken
  split at woken <;> cases woken
  cases waiting

theorem Orderly.notifyUpload (orderly : target.Orderly) :
    target.notifyUpload.Orderly :=
  ⟨orderly.fifo.notifyUpload, fun waiting =>
    absurd waiting (notifyUpload_awake target)⟩

theorem Orderly.enqueueEvent
    {event : EnqueuedEvent}
    (orderly : target.Orderly)
    (pushed : target.enqueueEvent event = some target') :
    target'.Orderly :=
  ⟨orderly.fifo.enqueueEvent pushed, fun waiting =>
    absurd waiting (enqueueEvent_awake pushed).1⟩

/-- An event is popped from the front, and nothing else happens to the queue. -/
theorem discarded_popEvent (target : EventQLTarget) :
    target.popEvent.discarded = target.queue.tail := by
  unfold popEvent
  split
  next isEmpty => simp [discarded, isEmpty]
  next event queue split => simp [discarded, split]

/-- Once it has been told to stop, no step of the upload thread changes what
will be discarded. -/
theorem discarded_uploadStep
    (told : target.threadShutdown = true)
    (taken : target.uploadStep = some target') :
    target'.discarded = target.discarded := by
  unfold uploadStep at taken
  split at taken
  next => cases taken
  next atTest =>
    cases taken
    simp [discarded, atTest, told]
  next atAwait =>
    cases taken
    split
    next isEmpty =>
      simp [discarded, atAwait, List.isEmpty_iff.mp isEmpty]
    next =>
      rw [discarded_popEvent]
      simp [discarded, atAwait]
  next => cases taken
  next atWoken =>
    cases taken
    rw [discarded_popEvent]
    simp [discarded, atWoken]
  next atPopped =>
    cases taken
    simp [discarded, atPopped]
  next atUploading =>
    cases taken
    simp [discarded, atUploading]
  next => cases taken

theorem discarded_notifyUpload (orderly : target.Orderly) :
    target.notifyUpload.discarded = target.discarded := by
  unfold notifyUpload
  split
  next waiting => simp [discarded, waiting, orderly.asleep waiting]
  next => rfl

theorem discarded_wakeUpload
    (orderly : target.Orderly)
    (woken : target.wakeUpload = some target') :
    target'.discarded = target.discarded := by
  unfold wakeUpload at woken
  split at woken <;> cases woken
  next waiting => simp [discarded, waiting, orderly.asleep waiting]

/-! ## Actions of other threads -/

theorem sameBooks_act (peer : Peer) (target : EventQLTarget) :
    target.SameBooks (target.act peer) := by
  cases peer with
  | upload =>
      change target.SameBooks (target.uploadStep.getD target)
      cases taken : target.uploadStep with
      | none => exact SameBooks.refl target
      | some target' => exact sameBooks_uploadStep taken
  | spuriousUpload =>
      change target.SameBooks (target.wakeUpload.getD target)
      cases woken : target.wakeUpload with
      | none => exact SameBooks.refl target
      | some target' => exact sameBooks_wakeUpload woken
  | spuriousService => exact SameBooks.refl target

theorem Orderly.act
    (orderly : target.Orderly)
    (peer : Peer) :
    (target.act peer).Orderly := by
  cases peer with
  | upload =>
      change (target.uploadStep.getD target).Orderly
      cases taken : target.uploadStep with
      | none => exact orderly
      | some target' => exact orderly.uploadStep taken
  | spuriousUpload =>
      change (target.wakeUpload.getD target).Orderly
      cases woken : target.wakeUpload with
      | none => exact orderly
      | some target' => exact orderly.wakeUpload woken
  | spuriousService => exact orderly

theorem discarded_act
    (orderly : target.Orderly)
    (told : target.threadShutdown = true)
    (peer : Peer) :
    (target.act peer).discarded = target.discarded := by
  cases peer with
  | upload =>
      change (target.uploadStep.getD target).discarded = _
      cases taken : target.uploadStep with
      | none => rfl
      | some target' => exact discarded_uploadStep told taken
  | spuriousUpload =>
      change (target.wakeUpload.getD target).discarded = _
      cases woken : target.wakeUpload with
      | none => rfl
      | some target' => exact discarded_wakeUpload orderly woken
  | spuriousService => rfl

/-- Without an upload thread nobody acts. -/
theorem act_absent
    (absent : target.uploadThread = .absent)
    (peer : Peer) :
    target.act peer = target := by
  cases peer <;> simp [act, uploadStep, wakeUpload, absent]

/-! ## The histories -/

/-- A step on a target that has been attached, of another thread or of the
service thread, and the events that it pushes. -/
inductive Step :
    List EnqueuedEvent → EventQLTarget → EventQLTarget → Prop
  | act {target : EventQLTarget} (peer : Peer) :
      Step [] target (target.act peer)
  | launch {target : EventQLTarget} :
      Step [] target target.launchThread
  | enqueue {event : EnqueuedEvent} {target target' : EventQLTarget}
      (pushed : target.enqueueEvent event = some target') :
      Step [event] target target'
  | store {target : EventQLTarget} :
      Step [] target target.storeShutdown
  | notify {target : EventQLTarget} :
      Step [] target target.notifyUpload
  | join {target target' : EventQLTarget}
      (joined : target.joinThread = some target') :
      Step [] target target'
  | clear {target : EventQLTarget} :
      Step [] target target.clearRunning

theorem recorded_act (peer : Peer) (target : EventQLTarget) :
    Recorded [] target (target.act peer) := by
  cases peer with
  | upload =>
      change Recorded [] target (target.uploadStep.getD target)
      cases taken : target.uploadStep with
      | none => exact .of_same rfl rfl rfl
      | some target' => exact recorded_uploadStep taken
  | spuriousUpload =>
      change Recorded [] target (target.wakeUpload.getD target)
      cases woken : target.wakeUpload with
      | none => exact .of_same rfl rfl rfl
      | some target' => exact recorded_wakeUpload woken
  | spuriousService => exact .of_same rfl rfl rfl

/-- The histories record every step on a target. -/
theorem Step.recorded
    {pushed : List EnqueuedEvent}
    (step : Step pushed target target') :
    Recorded pushed target target' := by
  cases step with
  | act peer => exact recorded_act peer target
  | launch => exact recorded_launchThread target
  | enqueue pushed => exact recorded_enqueueEvent pushed
  | store => exact .of_same rfl rfl rfl
  | notify => exact recorded_notifyUpload target
  | join joined => exact recorded_joinThread joined
  | clear => exact .of_same rfl rfl rfl

end EventQLTarget

end EventQL
end EvCollect
