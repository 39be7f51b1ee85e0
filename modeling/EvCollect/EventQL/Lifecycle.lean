import EvCollect.EventQL.Discard

/-!
# From attach to detach

What the service thread can rely on while it uses a target: an event that has
been emitted has been accepted, if the first route of its name is well formed,
and when `stopUploadThread` returns, all accepted events have been uploaded but
those that were to be discarded when it set `thread_shutdown_`.
-/

namespace EvCollect
namespace EventQL

open Process Service EventQLTarget

/-- The first route of an event name has a database and a table. -/
def Accepts (name : Bytes) : List EventRouting → Prop
  | [] => False
  | route :: routes =>
      (route.eventNameMatch = name ∧ ∃ database table,
        StringUtil.split route.target (bytes "/") = some [database, table]) ∨
      route.eventNameMatch ≠ name ∧ Accepts name routes

/-- A target in use, with routes, and with some data that it has accepted. -/
structure Working
    (routes : List EventRouting)
    (running : Bool)
    (given : List Bytes)
    (target : EventQLTarget) : Prop where
  orderly : target.Orderly
  routes_eq : target.routes = routes
  running_eq : target.threadRunning = running
  given : given.Sublist (target.accepted.map EnqueuedEvent.data)

/-- A target that is being stopped, and what it was when it was told so. -/
structure Stopped
    (stored : EventQLTarget)
    (routes : List EventRouting)
    (given : List Bytes)
    (target : EventQLTarget) : Prop where
  orderly : target.Orderly
  told : target.threadShutdown = true
  discarded_eq : target.discarded = stored.discarded
  routes_eq : target.routes = routes
  given : given.Sublist (target.accepted.map EnqueuedEvent.data)

/-- A target whose upload thread has been joined. -/
structure Joined
    (stored : EventQLTarget)
    (routes : List EventRouting)
    (given : List Bytes)
    (target : EventQLTarget) : Prop where
  absent : target.uploadThread = .absent
  accepted_eq : target.accepted = target.uploaded ++ stored.discarded
  routes_eq : target.routes = routes
  given : given.Sublist (target.accepted.map EnqueuedEvent.data)

/-- A world whose target has been stopped. -/
def Detached
    (routes : List EventRouting)
    (given : List Bytes)
    (world : EventQLWorld) : Prop :=
  world.target.threadRunning = false ∧ ∃ stored, world.stored = some stored ∧
    Joined stored routes given world.target

variable {routes : List EventRouting}
variable {running : Bool}
variable {given : List Bytes}
variable {target stored : EventQLTarget}
variable {world : EventQLWorld}

/-! ## Actions of other threads -/

theorem Working.act
    (working : Working routes running given target)
    (peer : Peer) :
    Working routes running given (target.act peer) := by
  have same := sameBooks_act peer target
  refine ⟨working.orderly.act peer, ?_, ?_, ?_⟩
  · rw [same.routes, working.routes_eq]
  · rw [same.threadRunning, working.running_eq]
  · rw [same.accepted]
    exact working.given

theorem Stopped.act
    (stopped : Stopped stored routes given target)
    (peer : Peer) :
    Stopped stored routes given (target.act peer) := by
  have same := sameBooks_act peer target
  refine ⟨stopped.orderly.act peer, ?_, ?_, ?_, ?_⟩
  · rw [same.threadShutdown, stopped.told]
  · rw [discarded_act stopped.orderly stopped.told, stopped.discarded_eq]
  · rw [same.routes, stopped.routes_eq]
  · rw [same.accepted]
    exact stopped.given

theorem Working.react
    (working : Working routes running given world.target)
    (entry : Entry) :
    Working routes running given (World.react entry world).target :=
  reactAll_stable (fun peer _ kept => kept.act peer) entry.peers working

theorem Stopped.react
    (stopped : Stopped stored routes given world.target)
    (entry : Entry) :
    Stopped stored routes given (World.react entry world).target :=
  reactAll_stable (fun peer _ kept => kept.act peer) entry.peers stopped

/-- Without an upload thread nothing happens. -/
theorem react_absent
    (absent : world.target.uploadThread = .absent)
    (entry : Entry) :
    World.react entry world = world := by
  change { world with target := reactAll act entry.peers world.target } = world
  rw [reactAll_fixed (act_absent absent)]

theorem Stopped.notifyUpload
    (stopped : Stopped stored routes given target) :
    Stopped stored routes given target.notifyUpload := by
  have same := sameBooks_notifyUpload target
  refine ⟨stopped.orderly.notifyUpload, ?_, ?_, ?_, ?_⟩
  · rw [same.threadShutdown, stopped.told]
  · rw [discarded_notifyUpload stopped.orderly, stopped.discarded_eq]
  · rw [same.routes, stopped.routes_eq]
  · rw [same.accepted]
    exact stopped.given

/-! ## Attaching -/

/-- A target that has been attached works. -/
theorem pluginAttach_spec
    (config : PropertyList) :
    wp (fun _ _ => True) (pluginAttach config)
      (fun result after => match result with
        | .error _ => after = world
        | .ok _ => ∃ routes, Working routes true [] after.target) world := by
  unfold pluginAttach
  split
  · exact wp_pure rfl
  next target built =>
    obtain ⟨routes, queueMaxLength, rfl⟩ : ∃ routes queueMaxLength, target =
        { routes := routes, queueMaxLength := queueMaxLength } :=
      ⟨_, _, eq_of_buildTarget built⟩
    refine wp_bind (wp_modify (wp_bind (wp_bind (wp_get (wp_bind
      (wp_call trivial fun entry => wp_pure (wp_pure ⟨routes, ?_⟩)))))))
    rw [react_absent rfl]
    exact ⟨⟨⟨rfl, Nat.zero_le _⟩, fun waiting => by cases waiting⟩, rfl, rfl,
      List.nil_sublist _⟩

/-! ## Emitting -/

/-- `enqueueEvent` waits until it can push its event. -/
theorem enqueueEvent_spec
    (event : EnqueuedEvent)
    (working : Working routes running given world.target) :
    wp (fun _ _ => True) (enqueueEvent event)
      (fun _ after => Working routes running (given ++ [event.data])
        after.target) world := by
  apply wp_iterate (fun _ world => Working routes running given world.target)
    working (fun _ _ _ => trivial)
  intro _ world entry kept
  refine wp_bind (wp_get ?_)
  split
  · exact wp_pure (kept.react entry)
  next pushed =>
    refine wp_bind (wp_modify (wp_pure ?_))
    have before := kept.react entry
    have orderly := before.orderly.enqueueEvent pushed
    unfold EventQLTarget.enqueueEvent at pushed
    split at pushed
    · cases pushed
    · cases pushed
      have same := sameBooks_notifyUpload
        { (World.react entry world).target with
          queue := (World.react entry world).target.queue ++ [event]
          accepted := (World.react entry world).target.accepted ++ [event] }
      refine ⟨orderly, ?_, ?_, ?_⟩
      · exact same.routes.trans before.routes_eq
      · exact same.threadRunning.trans before.running_eq
      · change (given ++ [event.data]).Sublist
          ((EventQLTarget.notifyUpload _).accepted.map _)
        rw [same.accepted, List.map_append]
        exact before.given.append (List.Sublist.refl _)

/-- What has been accepted stays so. -/
theorem Working.fewer
    {more : List Bytes}
    (working : Working routes running more target)
    (fewer : given.Sublist more) :
    Working routes running given target :=
  ⟨working.orderly, working.routes_eq, working.running_eq,
    fewer.trans working.given⟩

/-- What `emitEvent` does with a route. -/
theorem routeEvent_cases
    (eventName eventData : Bytes)
    (route : EventRouting) :
    (route.eventNameMatch ≠ eventName ∧
        routeEvent eventName eventData route = .skipped) ∨
      (∃ event, routeEvent eventName eventData route = .matched event ∧
        event.data = eventData) ∨
      (∃ error, routeEvent eventName eventData route = .failed error) ∧
        route.eventNameMatch = eventName ∧ ∀ database table,
          StringUtil.split route.target (bytes "/") ≠
            some [database, table] := by
  unfold routeEvent
  by_cases named : route.eventNameMatch = eventName
  · right
    rw [if_neg (not_not.mpr named)]
    split
    next database table _ => exact Or.inl ⟨_, rfl, rfl⟩
    next noTable =>
      refine Or.inr ⟨⟨_, rfl⟩, named, fun database table split => ?_⟩
      exact noTable database table (by rw [split]; rfl)
  · exact Or.inl ⟨named, if_pos named⟩

/-- The loop of `emitEvent` enqueues the event at least once, if the first of
its routes is well formed. -/
theorem emitRoutes_spec
    (eventName eventData : Bytes)
    (rest : List EventRouting)
    (working : Working routes running given world.target) :
    wp (fun _ _ => True) (emitRoutes eventName eventData rest)
      (fun _ after => Working routes running given after.target ∧
        (Accepts eventName rest →
          Working routes running (given ++ [eventData]) after.target))
      world := by
  induction rest generalizing given world with
  | nil => exact wp_pure ⟨working, False.elim⟩
  | cons route rest inductionHypothesis =>
      unfold emitRoutes
      rcases routeEvent_cases eventName eventData route with
        ⟨other, skipped⟩ | ⟨event, matched, sameData⟩ |
          ⟨⟨error, failed⟩, named, noTable⟩
      · rw [skipped]
        apply wp_mono (inductionHypothesis working) (fun _ _ _ => trivial)
        rintro _ last ⟨held, accepted⟩
        refine ⟨held, fun accepts => accepted ?_⟩
        rcases accepts with ⟨same, _⟩ | ⟨_, later⟩
        · exact absurd same other
        · exact later
      · rw [matched]
        refine wp_seq (enqueueEvent_spec event working) fun _ after kept => ?_
        rw [sameData] at kept
        apply wp_mono (inductionHypothesis kept) (fun _ _ _ => trivial)
        rintro _ last ⟨held, _⟩
        exact ⟨held.fewer (List.sublist_append_left _ _), fun _ => held⟩
      · rw [failed]
        refine wp_pure ⟨working, fun accepts => ?_⟩
        rcases accepts with ⟨_, database, table, split⟩ | ⟨other, _⟩
        · exact absurd split (noTable database table)
        · exact absurd named other

theorem pluginEmitEvent_spec
    (event : EventData)
    (working : Working routes running given world.target) :
    wp (fun _ _ => True) (pluginEmitEvent event)
      (fun _ after => Working routes running given after.target ∧
        (Accepts event.eventName routes →
          Working routes running (given ++ [event.eventData]) after.target))
      world := by
  refine wp_seq (wp_bind (wp_get (emitRoutes_spec event.eventName
    event.eventData world.target.routes working))) fun result after kept => ?_
  rw [working.routes_eq] at kept
  cases result <;> exact wp_pure kept

/-! ## Detaching -/

/-- Joining the upload thread: all accepted events have been uploaded, but those
that were to be discarded. -/
theorem Stopped.joinThread
    (stopped : Stopped stored routes given target)
    {target' : EventQLTarget}
    (joined : target.joinThread = some target') :
    Joined stored routes given target' := by
  have order := stopped.orderly.fifo.order
  have discards := stopped.discarded_eq
  unfold EventQLTarget.joinThread at joined
  split at joined
  next exited =>
    cases joined
    rw [exited] at order
    have queue : target.discarded = target.queue := by
      simp [discarded, exited]
    refine ⟨rfl, ?_, stopped.routes_eq, stopped.given⟩
    rw [← order, ← discards, queue]
    simp [UploadThread.inFlight]
  next => cases joined

/-- Waiting until the upload thread has returned. -/
theorem join_spec
    (isStored : world.stored = some stored)
    (stopped : Stopped stored routes given world.target) :
    wp (fun _ _ => True) (Proc.iterate .join World.react (fun _ => joinPass) ())
      (fun _ after => after.stored = some stored ∧
        Joined stored routes given after.target) world := by
  apply wp_iterate (fun _ world => world.stored = some stored ∧
      Stopped stored routes given world.target) ⟨isStored, stopped⟩
    (fun _ _ _ => trivial)
  rintro _ world entry ⟨same, kept⟩
  have before := kept.react entry
  refine wp_bind (wp_get ?_)
  split
  · exact wp_pure ⟨same, before⟩
  next joined => exact wp_bind (wp_modify (wp_pure ⟨same, before.joinThread joined⟩))

/-- `stopUploadThread` discards what was to be discarded when it set
`thread_shutdown_`. -/
theorem stopUploadThread_spec
    (working : Working routes true given world.target) :
    wp (fun _ _ => True) stopUploadThread
      (fun _ after => Detached routes given after) world := by
  refine wp_bind (wp_get ?_)
  rw [working.running_eq]
  refine wp_bind (wp_call trivial fun entry => ?_)
  have before := working.react entry
  generalize World.react entry world = found at before ⊢
  have told : Stopped found.target routes given
      (EventQLWorld.storeShutdown found).target :=
    { orderly := ⟨⟨before.orderly.fifo.order, before.orderly.fifo.bounded⟩,
        before.orderly.asleep⟩
      told := rfl
      discarded_eq := rfl
      routes_eq := before.routes_eq
      given := before.given }
  refine wp_bind (wp_call trivial fun entry => ?_)
  apply wp_seq (join_spec rfl (told.react entry).notifyUpload)
  rintro _ after ⟨isStored, joined⟩
  refine wp_call trivial fun entry => ?_
  rw [react_absent joined.absent]
  exact ⟨rfl, found.target, isStored,
    ⟨joined.absent, joined.accepted_eq, joined.routes_eq, joined.given⟩⟩

/-- A target is stopped once. -/
theorem stopUploadThread_detached
    (detached : Detached routes given world) :
    wp (fun _ _ => True) stopUploadThread
      (fun _ after => Detached routes given after) world := by
  refine wp_bind (wp_get ?_)
  rw [detached.1]
  exact wp_pure detached

end EventQL
end EvCollect
