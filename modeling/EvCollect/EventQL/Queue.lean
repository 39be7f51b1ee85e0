import EvCollect.EventQL.Histories

/-!
# The upload queue neither loses nor repeats events

The events handed to `uploadEvent`, the one that is on its way there and the
queue make up the events that were enqueued, in order, and the queue never grows
beyond its bound.
-/

namespace EvCollect
namespace EventQL

open Transition

namespace EventQLTarget

/-- Events leave the queue in the order in which they came, and the queue keeps
its bound. -/
structure Fifo (target : EventQLTarget) : Prop where
  order : target.uploaded ++ target.uploadThread.inFlight ++ target.queue =
    target.accepted
  bounded : target.queue.length ≤ target.queueMaxLength

variable {target target' : EventQLTarget}

@[simp] theorem queue_notifyUpload (target : EventQLTarget) :
    target.notifyUpload.queue = target.queue := by
  unfold notifyUpload
  split <;> rfl

@[simp] theorem inFlight_notifyUpload (target : EventQLTarget) :
    target.notifyUpload.uploadThread.inFlight =
      target.uploadThread.inFlight := by
  unfold notifyUpload
  split
  next waiting => rw [waiting]; rfl
  · rfl

@[simp] theorem threadRunning_popEvent (target : EventQLTarget) :
    target.popEvent.threadRunning = target.threadRunning := by
  unfold popEvent
  split <;> rfl

/-- The upload thread does not change whether it runs. -/
theorem threadRunning_uploadStep
    (taken : target.uploadStep = some target') :
    target'.threadRunning = target.threadRunning := by
  unfold uploadStep at taken
  split at taken <;> cases taken <;> try rfl
  · split
    · rfl
    · exact threadRunning_popEvent target
  · exact threadRunning_popEvent target

theorem Fifo.notifyUpload (fifo : target.Fifo) : target.notifyUpload.Fifo := by
  have order := fifo.order
  have bounded := fifo.bounded
  constructor
  · rw [inFlight_notifyUpload, queue_notifyUpload]
    unfold EventQLTarget.notifyUpload
    split <;> exact order
  · rw [queue_notifyUpload]
    unfold EventQLTarget.notifyUpload
    split <;> exact bounded

theorem Fifo.enqueueEvent
    {event : EnqueuedEvent}
    (fifo : target.Fifo)
    (pushed : target.enqueueEvent event = some target') :
    target'.Fifo := by
  unfold EventQLTarget.enqueueEvent at pushed
  split at pushed
  · cases pushed
  next notFull =>
    cases pushed
    refine Fifo.notifyUpload ⟨?_, ?_⟩
    · rw [← fifo.order]
      simp
    · rw [List.length_append]
      simp only [List.length_singleton]
      omega

/-- An event that is popped is on its way from then on. -/
theorem Fifo.popEvent
    (fifo : target.Fifo)
    (free : target.uploadThread.inFlight = []) :
    target.popEvent.Fifo := by
  have order := fifo.order
  have bounded := fifo.bounded
  rw [free] at order
  unfold EventQLTarget.popEvent
  split
  next empty =>
    rw [empty] at order
    exact ⟨by simpa [UploadThread.inFlight, empty] using order, bounded⟩
  next event queue split =>
    rw [split] at order bounded
    refine ⟨by simpa [UploadThread.inFlight] using order, ?_⟩
    simp only [List.length_cons] at bounded
    exact Nat.le_of_succ_le bounded

theorem Fifo.uploadStep
    (fifo : target.Fifo)
    (taken : target.uploadStep = some target') :
    target'.Fifo := by
  have order := fifo.order
  have bounded := fifo.bounded
  unfold EventQLTarget.uploadStep at taken
  split at taken
  next => cases taken
  next atTest =>
    cases taken
    rw [atTest] at order
    refine ⟨?_, bounded⟩
    cases target.threadShutdown <;> exact order
  next atAwait =>
    cases taken
    rw [atAwait] at order
    split
    · exact ⟨order, bounded⟩
    · exact fifo.popEvent (by rw [atAwait]; rfl)
  next => cases taken
  next atWoken =>
    cases taken
    exact fifo.popEvent (by rw [atWoken]; rfl)
  next event atPopped =>
    cases taken
    rw [atPopped] at order
    exact ⟨by simpa [UploadThread.inFlight] using order, bounded⟩
  next event atUploading =>
    cases taken
    rw [atUploading] at order
    exact ⟨order, bounded⟩
  next => cases taken

theorem Fifo.wakeUpload
    (fifo : target.Fifo)
    (woken : target.wakeUpload = some target') :
    target'.Fifo := by
  unfold EventQLTarget.wakeUpload at woken
  split at woken
  next atWaiting =>
    cases woken
    have order := fifo.order
    rw [atWaiting] at order
    exact ⟨order, fifo.bounded⟩
  · cases woken

theorem Fifo.joinThread
    (fifo : target.Fifo)
    (joined : target.joinThread = some target') :
    target'.Fifo := by
  unfold EventQLTarget.joinThread at joined
  split at joined
  next atExited =>
    cases joined
    have order := fifo.order
    rw [atExited] at order
    exact ⟨order, fifo.bounded⟩
  · cases joined

/-- A thread is launched only where there is none, so that it drops no event of
another one. -/
theorem Fifo.launchThread
    (fifo : target.Fifo)
    (absent : target.uploadThread = .absent) :
    target.launchThread.Fifo := by
  have order := fifo.order
  rw [absent] at order
  exact ⟨order, fifo.bounded⟩

end EventQLTarget

/-! ## Runs -/

/-- There is no upload thread where the thread that starts and stops it relies
on that. -/
def NoThread (control : Control) (target : EventQLTarget) : Prop :=
  target.threadRunning = false ∨ control = .launch ∨ control = .clear →
    target.uploadThread = .absent

theorem NoThread.notifyUpload
    {control control' : Control}
    {target : EventQLTarget}
    (noThread : NoThread control target)
    (implies : control' = .launch ∨ control' = .clear →
      control = .launch ∨ control = .clear) :
    NoThread control' target.notifyUpload := by
  intro relied
  have absent : target.uploadThread = .absent := by
    apply noThread
    rcases relied with stopped | relies
    · left
      unfold EventQLTarget.notifyUpload at stopped
      split at stopped <;> exact stopped
    · exact Or.inr (implies relies)
  simp only [EventQLTarget.notifyUpload, absent]

/-- One step of any thread keeps the queue in order. -/
theorem Move.fifo
    {action : Action}
    {control control' : Control}
    {target target' : EventQLTarget}
    (move : Move action control target control' target')
    (fifo : target.Fifo)
    (noThread : NoThread control target) :
    target'.Fifo := by
  cases move with
  | internal => exact fifo
  | enqueue pushed => exact fifo.enqueueEvent pushed
  | upload taken => exact fifo.uploadStep taken
  | wakeUpload woken => exact fifo.wakeUpload woken
  | start => exact fifo
  | startFails => exact fifo
  | startTest => exact fifo
  | launch => exact fifo.launchThread (noThread (Or.inr (Or.inl rfl)))
  | stop => exact fifo
  | stopReturns => exact fifo
  | stopTest => exact fifo
  | store => exact ⟨fifo.order, fifo.bounded⟩
  | notify => exact fifo.notifyUpload
  | join joined => exact fifo.joinThread joined
  | clear => exact ⟨fifo.order, fifo.bounded⟩

/-- One step of any thread keeps the upload thread where it is relied on. -/
theorem Move.noThread
    {action : Action}
    {control control' : Control}
    {target target' : EventQLTarget}
    (move : Move action control target control' target')
    (noThread : NoThread control target) :
    NoThread control' target' := by
  cases move with
  | internal => exact noThread
  | @enqueue thread event _ _ _ pushed =>
      unfold EventQLTarget.enqueueEvent at pushed
      split at pushed
      · cases pushed
      · cases pushed
        have pushed : NoThread control
            { target with
              queue := target.queue ++ [event]
              accepted := target.accepted ++ [event] } := noThread
        exact pushed.notifyUpload id
  | upload taken =>
      intro relied
      rw [EventQLTarget.threadRunning_uploadStep taken] at relied
      simp [EventQLTarget.uploadStep, noThread relied] at taken
  | wakeUpload woken =>
      unfold EventQLTarget.wakeUpload at woken
      split at woken
      next atWaiting =>
        cases woken
        intro relied
        rw [noThread relied] at atWaiting
        cases atWaiting
      · cases woken
  | start => exact fun relied => noThread (by simpa using relied)
  | startFails => exact fun relied => noThread (by simpa using relied)
  | startTest stopped => exact fun _ => noThread (Or.inl stopped)
  | launch => exact fun relied => by simp [EventQLTarget.launchThread] at relied
  | stop => exact fun relied => noThread (by simpa using relied)
  | stopReturns => exact fun relied => noThread (by simpa using relied)
  | stopTest => exact fun relied => noThread (by simpa using relied)
  | store =>
      exact fun relied =>
        noThread (by simpa [EventQLTarget.storeShutdown] using relied)
  | notify => exact noThread.notifyUpload (by simp)
  | join joined =>
      unfold EventQLTarget.joinThread at joined
      split at joined
      · cases joined
        exact fun _ => rfl
      · cases joined
  | clear => exact fun _ => noThread (Or.inr (Or.inr rfl))

/-- In every interleaving of any number of emitting threads, the upload thread
and the thread that starts and stops it, the events handed to `uploadEvent`,
the one that has been popped and the queue are the events that were enqueued,
in order, and the queue keeps its bound. Whatever step is taken next, the two
sequences grow by the events with which `uploadEvent` is entered in it, and by
those that have been pushed when `enqueueEvent` returns in it. -/
theorem reachable_fifo
    {routes : List EventRouting}
    {queueMaxLength : Nat}
    {system : System}
    (reached : Reachable System.step anyAction
      (System.initial routes queueMaxLength) system) :
    system.target.uploaded ++ system.target.uploadThread.inFlight ++
        system.target.queue = system.target.accepted ∧
      system.target.queue.length ≤ system.target.queueMaxLength ∧
      ∀ action after, system.step action = some after →
        EventQLTarget.Recorded (action.pushed system after) system.target
          after.target := by
  suffices kept : system.target.Fifo ∧ NoThread system.control system.target from
    ⟨kept.1.order, kept.1.bounded, fun _ _ taken => System.recorded_step taken⟩
  apply reached.invariant fun system : System =>
    system.target.Fifo ∧ NoThread system.control system.target
  · exact ⟨⟨rfl, Nat.zero_le _⟩, fun _ => rfl⟩
  · intro state action state' holds _ taken
    have move := System.step_move taken
    exact ⟨move.fifo holds.1 holds.2, move.noThread holds.2⟩

/-- One event is emitted, enqueued and popped. -/
def onePopped : List Action :=
  [.start, .control, .control, .call 0 (bytes "load") (bytes "1"), .emit 0,
    .emit 0, .upload, .upload]

theorem reachable_fifo_onePopped :
    ∃ system : System,
      system.target.uploadThread =
        .popped ⟨bytes "db", bytes "load", bytes "1"⟩ ∧
      system.target.uploaded ++ system.target.uploadThread.inFlight ++
          system.target.queue = system.target.accepted ∧
        system.target.queue.length ≤ system.target.queueMaxLength ∧
        ∀ action after, system.step action = some after →
          EventQLTarget.Recorded (action.pushed system after) system.target
            after.target := by
  obtain ⟨system, ran, popped⟩ : ∃ system,
      runWith System.step (fun _ _ => true) onePopped
        (System.initial [⟨bytes "load", bytes "db/load"⟩] 8192) = some system ∧
      system.target.uploadThread =
        .popped ⟨bytes "db", bytes "load", bytes "1"⟩ := ⟨_, rfl, rfl⟩
  exact ⟨system, popped, reachable_fifo
    (reachable_of_runWith (fun _ _ _ => trivial) onePopped ran)⟩

end EventQL
end EvCollect
