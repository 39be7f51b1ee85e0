import EvCollect.EventQL.Target
import EvCollect.Transition.Basic

/-!
# The threads of an EventQL target

Any number of threads that call `emitEvent`, the upload thread, and the thread
that calls `startUploadThread` and `stopUploadThread`, as one transition system.
A step of a thread is one critical section, one access outside of a critical
section, or a step that touches nothing shared.
-/

namespace EvCollect
namespace EventQL

open Transition

/-- Where a thread stands that calls `emitEvent`. -/
inductive Emitter
  /-- Outside of `emitEvent`, with the result of its last call. -/
  | idle (last : Option ReturnCode)
  /-- In the loop over the routes, with the routes that are left. -/
  | routing (eventName eventData : Bytes) (routes : List EventRouting)
  /-- Before a critical section of `enqueueEvent`. -/
  | enqueue
      (event : EnqueuedEvent)
      (eventName eventData : Bytes)
      (routes : List EventRouting)
  /-- In `cv_.wait` inside of `enqueueEvent`. -/
  | waiting
      (event : EnqueuedEvent)
      (eventName eventData : Bytes)
      (routes : List EventRouting)

/-- A thread that waits in `enqueueEvent` takes the mutex again. -/
def Emitter.wake : Emitter → Emitter
  | .waiting event eventName eventData routes =>
      .enqueue event eventName eventData routes
  | emitter => emitter

/-- Whether a thread takes no step unless it is called or woken up. -/
def Emitter.AtRest : Emitter → Prop
  | .idle _ => True
  | .routing _ _ _ => False
  | .enqueue _ _ _ _ => False
  | .waiting _ _ _ _ => True

/-- Where the thread stands that starts and stops the upload thread. -/
inductive Control
  /-- Outside of both functions, with the result of its last call. -/
  | idle (last : Option ReturnCode)
  /-- `startUploadThread` is about to test `thread_running_`. -/
  | startTest
  /-- Before the critical section of `startUploadThread`. -/
  | launch
  /-- `stopUploadThread` is about to test `thread_running_`. -/
  | stopTest
  /-- Before the store to `thread_shutdown_`. -/
  | store
  /-- Before `cv_.notify_all()` in `stopUploadThread`. -/
  | notify
  /-- In `thread_.join()`. -/
  | join
  /-- Before the store to `thread_running_`. -/
  | clear
  deriving DecidableEq

/-- The state of all threads. -/
structure System where
  target : EventQLTarget
  emitters : Nat → Emitter := fun _ => .idle none
  control : Control := .idle none

inductive Action
  /-- A thread calls `emitEvent`. -/
  | call (thread : Nat) (eventName eventData : Bytes)
  /-- A thread in `emitEvent` takes its next step. -/
  | emit (thread : Nat)
  /-- The wait of a thread in `emitEvent` returns without a notification. -/
  | wakeEmitter (thread : Nat)
  | upload
  /-- The wait of the upload thread returns without a notification. -/
  | wakeUpload
  /-- `startUploadThread` is called. -/
  | start
  /-- `stopUploadThread` is called. -/
  | stop
  /-- The thread in one of these two functions takes its next step. -/
  | control
  deriving DecidableEq, Repr

namespace System

def setEmitter
    (thread : Nat)
    (emitter : Emitter)
    (system : System) : System :=
  { system with emitters := Function.update system.emitters thread emitter }

/-- `cv_.notify_all()` as far as the emitting threads wait. -/
def notifyEmitters (system : System) : System :=
  { system with emitters := fun thread => (system.emitters thread).wake }

/-- The next step of a thread in `emitEvent`. -/
def emitStep (thread : Nat) (system : System) : Option System :=
  match system.emitters thread with
  | .idle _ => none
  | .routing _ _ [] =>
      some (system.setEmitter thread (.idle (some ReturnCode.success)))
  | .routing eventName eventData (route :: routes) =>
      match routeEvent eventName eventData route with
      | .skipped =>
          some (system.setEmitter thread (.routing eventName eventData routes))
      | .failed error =>
          some (system.setEmitter thread (.idle (some (.error error))))
      | .matched event =>
          some (system.setEmitter thread
            (.enqueue event eventName eventData routes))
  | .enqueue event eventName eventData routes =>
      match system.target.enqueueEvent event with
      | none =>
          some (system.setEmitter thread
            (.waiting event eventName eventData routes))
      | some target =>
          some ({ system with target := target }.notifyEmitters.setEmitter
            thread (.routing eventName eventData routes))
  | .waiting _ _ _ _ => none

/-- The next step of the upload thread. -/
def uploadStep (system : System) : Option System :=
  match system.target.uploadStep with
  | none => none
  | some target =>
      if system.target.uploadNotifies then
        some { system with target := target }.notifyEmitters
      else some { system with target := target }

/-- The next step in `startUploadThread` or `stopUploadThread`. -/
def controlStep (system : System) : Option System :=
  match system.control with
  | .idle _ => none
  | .startTest =>
      if system.target.threadRunning then
        some { system with
          control := .idle (some (ReturnCode.makeErrorf "RTERROR"
            (bytes "upload thread is already running"))) }
      else some { system with control := .launch }
  | .launch =>
      some { system with
        target := system.target.launchThread
        control := .idle (some ReturnCode.success) }
  | .stopTest =>
      if system.target.threadRunning then
        some { system with control := .store }
      else some { system with control := .idle none }
  | .store =>
      some { system with
        target := system.target.storeShutdown
        control := .notify }
  | .notify =>
      some { system with
        target := system.target.notifyUpload
        control := .join }.notifyEmitters
  | .join =>
      match system.target.joinThread with
      | none => none
      | some target =>
          some { system with target := target, control := .clear }
  | .clear =>
      some { system with
        target := system.target.clearRunning
        control := .idle none }

/-- One step of the system. -/
def step (system : System) : Action → Option System
  | .call thread eventName eventData =>
      match system.emitters thread with
      | .idle _ =>
          some (system.setEmitter thread
            (.routing eventName eventData system.target.routes))
      | _ => none
  | .emit thread => system.emitStep thread
  | .wakeEmitter thread =>
      match system.emitters thread with
      | .waiting event eventName eventData routes =>
          some (system.setEmitter thread
            (.enqueue event eventName eventData routes))
      | _ => none
  | .upload => system.uploadStep
  | .wakeUpload =>
      match system.target.wakeUpload with
      | none => none
      | some target => some { system with target := target }
  | .start =>
      match system.control with
      | .idle _ => some { system with control := .startTest }
      | _ => none
  | .stop =>
      match system.control with
      | .idle _ => some { system with control := .stopTest }
      | _ => none
  | .control => system.controlStep

/-- A target that has just been built, with no thread running in it. -/
def initial
    (routes : List EventRouting)
    (queueMaxLength : Nat) : System :=
  { target := { routes := routes, queueMaxLength := queueMaxLength } }

end System

/-! ## What a step can do -/

/-- What an action can do to the target and to the thread that starts and stops
the upload thread. -/
inductive Move :
    Action → Control → EventQLTarget → Control → EventQLTarget → Prop
  | internal {action : Action} {control : Control} {target : EventQLTarget} :
      Move action control target control target
  | enqueue {thread : Nat} {event : EnqueuedEvent}
      {control : Control} {target target' : EventQLTarget}
      (pushed : target.enqueueEvent event = some target') :
      Move (.emit thread) control target control target'
  | upload {control : Control} {target target' : EventQLTarget}
      (taken : target.uploadStep = some target') :
      Move .upload control target control target'
  | wakeUpload {control : Control} {target target' : EventQLTarget}
      (woken : target.wakeUpload = some target') :
      Move .wakeUpload control target control target'
  | start {last : Option ReturnCode} {target : EventQLTarget} :
      Move .start (.idle last) target .startTest target
  | startFails {target : EventQLTarget} {rc : ReturnCode} :
      Move .control .startTest target (.idle (some rc)) target
  | startTest {target : EventQLTarget}
      (stopped : target.threadRunning = false) :
      Move .control .startTest target .launch target
  | launch {target : EventQLTarget} {rc : ReturnCode} :
      Move .control .launch target (.idle (some rc)) target.launchThread
  | stop {last : Option ReturnCode} {target : EventQLTarget} :
      Move .stop (.idle last) target .stopTest target
  | stopReturns {target : EventQLTarget} :
      Move .control .stopTest target (.idle none) target
  | stopTest {target : EventQLTarget} :
      Move .control .stopTest target .store target
  | store {target : EventQLTarget} :
      Move .control .store target .notify target.storeShutdown
  | notify {target : EventQLTarget} :
      Move .control .notify target .join target.notifyUpload
  | join {target target' : EventQLTarget}
      (joined : target.joinThread = some target') :
      Move .control .join target .clear target'
  | clear {target : EventQLTarget} :
      Move .control .clear target (.idle none) target.clearRunning

namespace System

theorem emitStep_move
    {thread : Nat}
    {system system' : System}
    (taken : system.emitStep thread = some system') :
    Move (.emit thread) system.control system.target system'.control
      system'.target := by
  unfold emitStep at taken
  split at taken
  · cases taken
  · cases taken
    exact .internal
  · split at taken <;> cases taken <;> exact .internal
  · split at taken
    · cases taken
      exact .internal
    next pushed =>
      cases taken
      exact .enqueue pushed
  · cases taken

theorem uploadStep_move
    {system system' : System}
    (taken : system.uploadStep = some system') :
    Move .upload system.control system.target system'.control
      system'.target := by
  unfold uploadStep at taken
  split at taken
  · cases taken
  next stepped =>
    split at taken <;> cases taken <;> exact .upload stepped

theorem controlStep_move
    {system system' : System}
    (taken : system.controlStep = some system') :
    Move .control system.control system.target system'.control
      system'.target := by
  unfold controlStep at taken
  split at taken
  next => cases taken
  next atStartTest =>
    rw [atStartTest]
    split at taken
    · cases taken
      exact .startFails
    next stopped =>
      cases taken
      exact .startTest (Bool.not_eq_true _ ▸ stopped)
  next atLaunch =>
    rw [atLaunch]
    cases taken
    exact .launch
  next atStopTest =>
    rw [atStopTest]
    split at taken
    · cases taken
      exact .stopTest
    · cases taken
      exact .stopReturns
  next atStore =>
    rw [atStore]
    cases taken
    exact .store
  next atNotify =>
    rw [atNotify]
    cases taken
    exact .notify
  next atJoin =>
    rw [atJoin]
    split at taken
    · cases taken
    next joined =>
      cases taken
      exact .join joined
  next atClear =>
    rw [atClear]
    cases taken
    exact .clear

/-- Every step is one of these moves. -/
theorem step_move
    {action : Action}
    {system system' : System}
    (taken : system.step action = some system') :
    Move action system.control system.target system'.control
      system'.target := by
  cases action with
  | call thread eventName eventData =>
      simp only [step] at taken
      split at taken
      · cases taken
        exact .internal
      · cases taken
  | emit thread => exact emitStep_move taken
  | wakeEmitter thread =>
      simp only [step] at taken
      split at taken
      · cases taken
        exact .internal
      · cases taken
  | upload => exact uploadStep_move taken
  | wakeUpload =>
      simp only [step] at taken
      split at taken
      · cases taken
      next woken =>
        cases taken
        exact .wakeUpload woken
  | start =>
      simp only [step] at taken
      split at taken
      next isIdle =>
        cases taken
        rw [isIdle]
        exact .start
      next => cases taken
  | stop =>
      simp only [step] at taken
      split at taken
      next isIdle =>
        cases taken
        rw [isIdle]
        exact .stop
      next => cases taken
  | control => exact controlStep_move taken

end System

end EventQL
end EvCollect
