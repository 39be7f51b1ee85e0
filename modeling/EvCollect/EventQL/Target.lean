import EvCollect.Util.StringUtil

/-!
# The EventQL target

The state that the threads of an `EventQLTarget` share, and the steps that they
make on it. A critical section of `mutex_` is one step, and so is every store, or
notification, outside of one. Waiting for `cv_` gives the mutex back, so a wait
ends one step, and taking the mutex again begins the next one.
-/

namespace EvCollect
namespace EventQL

/-- An event that is queued for upload. -/
structure EnqueuedEvent where
  database : Bytes
  table : Bytes
  data : Bytes
  deriving DecidableEq, Repr

structure EventRouting where
  eventNameMatch : Bytes
  target : Bytes
  deriving DecidableEq, Repr

/-- Where the upload thread stands. -/
inductive UploadThread
  /-- There is no upload thread, or it has been joined. -/
  | absent
  /-- Before the critical section that tests `thread_shutdown_`. -/
  | test
  /-- Before the critical section of `awaitEvent`. -/
  | await
  /-- In `cv_.wait` inside of `awaitEvent`. -/
  | waiting
  /-- Woken up, before it takes the mutex again. -/
  | woken
  /-- An event has been popped, before the call of `uploadEvent`. -/
  | popped (event : EnqueuedEvent)
  /-- In `uploadEvent`, whose outcome is only reported to the log. -/
  | uploading (event : EnqueuedEvent)
  | exited
  deriving DecidableEq, Repr

/-- The event that has been popped and not been handed to `uploadEvent`. -/
def UploadThread.inFlight : UploadThread → List EnqueuedEvent
  | .popped event => [event]
  | _ => []

structure EventQLTarget where
  routes : List EventRouting := []
  queue : List EnqueuedEvent := []
  queueMaxLength : Nat := 8192
  threadRunning : Bool := false
  threadShutdown : Bool := false
  uploadThread : UploadThread := .absent
  /-- History: the events in the order of their enqueue steps. -/
  accepted : List EnqueuedEvent := []
  /-- History: the events that were handed to `uploadEvent`, in order. -/
  uploaded : List EnqueuedEvent := []
  deriving DecidableEq, Repr

/-- What the loop of `emitEvent` does with a route: nothing, fail, or enqueue an
event. -/
inductive Routed
  | skipped
  | failed (error : Error)
  | matched (event : EnqueuedEvent)
  deriving DecidableEq, Repr

/-- The body of the loop of `emitEvent` up to the call of `enqueueEvent`. The
separator is not empty, so `split` returns. -/
def routeEvent
    (eventName eventData : Bytes)
    (route : EventRouting) : Routed :=
  if route.eventNameMatch ≠ eventName then .skipped
  else
    match (StringUtil.split route.target (bytes "/")).getD [] with
    | [database, table] =>
        .matched { database := database, table := table, data := eventData }
    | _ =>
        .failed
          { code := bytes "EINVAL"
            message := bytes
              ("invalid target specification. " ++
                "format is: database/table") }

namespace EventQLTarget

/-- What `cv_.notify_all()` does to the upload thread. -/
def notifyUpload (target : EventQLTarget) : EventQLTarget :=
  match target.uploadThread with
  | .waiting => { target with uploadThread := .woken }
  | _ => target

/-- A critical section of `enqueueEvent`: `none` if the caller has to wait, else
the queue after the push and the notification. -/
def enqueueEvent
    (event : EnqueuedEvent)
    (target : EventQLTarget) : Option EventQLTarget :=
  if target.queueMaxLength ≤ target.queue.length then none
  else some
    { target with
      queue := target.queue ++ [event]
      accepted := target.accepted ++ [event] }.notifyUpload

/-- The end of `awaitEvent`: pop an event, or return without one. -/
def popEvent (target : EventQLTarget) : EventQLTarget :=
  match target.queue with
  | [] => { target with uploadThread := .test }
  | event :: queue =>
      { target with queue := queue, uploadThread := .popped event }

/-- The next step of the upload thread, if it is not blocked. -/
def uploadStep (target : EventQLTarget) : Option EventQLTarget :=
  match target.uploadThread with
  | .absent => none
  | .test =>
      some { target with
        uploadThread := if target.threadShutdown then .exited else .await }
  | .await =>
      some (if target.queue.isEmpty then
        { target with uploadThread := .waiting }
      else target.popEvent)
  | .waiting => none
  | .woken => some target.popEvent
  | .popped event =>
      some { target with
        uploadThread := .uploading event
        uploaded := target.uploaded ++ [event] }
  | .uploading _ => some { target with uploadThread := .test }
  | .exited => none

/-- Whether the next step of the upload thread notifies the others. -/
def uploadNotifies (target : EventQLTarget) : Bool :=
  match target.uploadThread with
  | .await => !target.queue.isEmpty
  | .woken => !target.queue.isEmpty
  | _ => false

/-- The wait of the upload thread returns without a notification. -/
def wakeUpload (target : EventQLTarget) : Option EventQLTarget :=
  match target.uploadThread with
  | .waiting => some { target with uploadThread := .woken }
  | _ => none

/-- The critical section of `startUploadThread`. -/
def launchThread (target : EventQLTarget) : EventQLTarget :=
  { target with
    threadRunning := true
    threadShutdown := false
    uploadThread := .test }

/-- `thread_shutdown_ = true` in `stopUploadThread`. -/
def storeShutdown (target : EventQLTarget) : EventQLTarget :=
  { target with threadShutdown := true }

/-- `thread_.join()`, which blocks until the upload thread has returned. -/
def joinThread (target : EventQLTarget) : Option EventQLTarget :=
  match target.uploadThread with
  | .exited => some { target with uploadThread := .absent }
  | _ => none

/-- `thread_running_ = false` in `stopUploadThread`. -/
def clearRunning (target : EventQLTarget) : EventQLTarget :=
  { target with threadRunning := false }

end EventQLTarget

end EventQL
end EvCollect
