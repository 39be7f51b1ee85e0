import EvCollect.EventQL.Discard
import EvCollect.Util.Splitting

/-!
# Routing an event

What `emitEvent` appends to the queue while the upload thread takes entries from
it, and when a failure leaves the queue without any entry of the event: the loop
checks the target of a route only when the routes before it have been enqueued.
-/

namespace EvCollect
namespace EventQL

open Process Service

/-- A target with exactly one slash. -/
def OneSlash (route : EventRouting) : Prop :=
  route.target.count 0x2f = 1

instance (route : EventRouting) : Decidable (OneSlash route) :=
  inferInstanceAs (Decidable (_ = _))

/-- The routes of an event, in the order of the table. -/
def matching (eventName : Bytes) (routes : List EventRouting) :
    List EventRouting :=
  routes.filter fun route => route.eventNameMatch = eventName

/-- The entry for an event on a route. -/
def EntryFor
    (eventData : Bytes)
    (route : EventRouting)
    (entry : EnqueuedEvent) : Prop :=
  entry.database ++ bytes "/" ++ entry.table = route.target ∧
    entry.data = eventData

/-- That these entries are appended to the queue, and nothing else. Entries at its
front can have been taken. -/
def EventQLTarget.Appends
    (before after : EventQLTarget)
    (entries : List EnqueuedEvent) : Prop :=
  after.accepted = before.accepted ++ entries ∧
    ∃ taken, before.queue ++ entries = taken ++ after.queue

/-- That an event is routed all or nothing, whatever the target does meanwhile:
`emitEvent` returns if there is room for an entry on each of its routes, it
succeeds if and only if all of them are well formed, and then it appends an entry
for each of them, else none. -/
structure AllOrNothing
    (routes : List EventRouting)
    (eventName eventData : Bytes) : Prop where
  returns : ∀ script (world : EventQLWorld), world.target.routes = routes →
    world.target.queue.length + (matching eventName routes).length ≤
      world.target.queueMaxLength →
    (matching eventName routes).length ≤ script.length →
      ∃ rc rest after,
        emitEvent eventName eventData script world = .done rc rest after
  succeeds : ∀ script world rc rest after, world.target.routes = routes →
    emitEvent eventName eventData script world = .done rc rest after →
      (rc = ReturnCode.success ↔ ∀ route ∈ matching eventName routes,
        OneSlash route)
  enqueues : ∀ script world rest after, world.target.routes = routes →
    emitEvent eventName eventData script world =
      .done ReturnCode.success rest after →
        ∃ entries,
          List.Forall₂ (EntryFor eventData) (matching eventName routes) entries ∧
            world.target.Appends after.target entries
  leaves : ∀ script world error rest after, world.target.routes = routes →
    emitEvent eventName eventData script world = .done (.error error) rest after →
      world.target.Appends after.target []

/-! ## What a route makes of an event -/

variable {eventName eventData : Bytes}
variable {route : EventRouting}
variable {routes : List EventRouting}

theorem routeEvent_skipped
    (other : route.eventNameMatch ≠ eventName) :
    routeEvent eventName eventData route = .skipped :=
  if_pos other

theorem routeEvent_matched
    (named : route.eventNameMatch = eventName)
    (oneSlash : OneSlash route) :
    ∃ event, routeEvent eventName eventData route = .matched event ∧
      EntryFor eventData route event := by
  have slash : bytes "/" = [0x2f] := rfl
  have length := StringUtil.length_splitOn route.target 0x2f
  have joined : [0x2f].intercalate (route.target.splitOn 0x2f) = route.target :=
    List.intercalate_splitOn 0x2f
  rw [routeEvent, if_neg (not_not.mpr named), slash, StringUtil.split_singleton,
    Option.getD_some]
  rw [oneSlash] at length
  obtain ⟨database, table, parts⟩ := List.length_eq_two.mp length
  rw [parts] at joined ⊢
  refine ⟨_, rfl, ?_, rfl⟩
  rw [← joined, slash]
  simp

theorem routeEvent_failed
    (named : route.eventNameMatch = eventName)
    (malformed : ¬ OneSlash route) :
    ∃ error, routeEvent eventName eventData route = .failed error := by
  have slash : bytes "/" = [0x2f] := rfl
  have length := StringUtil.length_splitOn route.target 0x2f
  rw [routeEvent, if_neg (not_not.mpr named), slash, StringUtil.split_singleton,
    Option.getD_some]
  split
  next database table parts =>
    rw [parts] at length
    exact absurd (Nat.succ.inj length).symm malformed
  next => exact ⟨_, rfl⟩

theorem matching_named
    (named : route.eventNameMatch = eventName) :
    matching eventName (route :: routes) = route :: matching eventName routes :=
  List.filter_cons_of_pos (decide_eq_true named)

theorem matching_other
    (other : route.eventNameMatch ≠ eventName) :
    matching eventName (route :: routes) = matching eventName routes :=
  List.filter_cons_of_neg (by simpa using other)

/-- What the loop of `emitEvent` returns, and what it enqueues. -/
def emitted (eventName eventData : Bytes) :
    List EventRouting → ReturnCode × List EnqueuedEvent
  | [] => (ReturnCode.success, [])
  | route :: routes =>
      match routeEvent eventName eventData route with
      | .skipped => emitted eventName eventData routes
      | .failed error => (.error error, [])
      | .matched event =>
          ((emitted eventName eventData routes).1,
            event :: (emitted eventName eventData routes).2)

/-- The first route is not one of the event, or its target decides. -/
theorem emitted_cons
    (eventName eventData : Bytes)
    (route : EventRouting)
    (routes : List EventRouting) :
    matching eventName (route :: routes) = matching eventName routes ∧
        emitted eventName eventData (route :: routes) =
          emitted eventName eventData routes ∨
      matching eventName (route :: routes) = route :: matching eventName routes ∧
        ((OneSlash route ∧ ∃ event, EntryFor eventData route event ∧
            emitted eventName eventData (route :: routes) =
              ((emitted eventName eventData routes).1,
                event :: (emitted eventName eventData routes).2)) ∨
          ¬ OneSlash route ∧ ∃ error,
            emitted eventName eventData (route :: routes) = (.error error, [])) := by
  by_cases named : route.eventNameMatch = eventName
  · right
    refine ⟨matching_named named, ?_⟩
    by_cases valid : OneSlash route
    · obtain ⟨event, matched, isEntry⟩ := @routeEvent_matched _ eventData _ named valid
      exact .inl ⟨valid, event, isEntry, by rw [emitted, matched]⟩
    · obtain ⟨error, failed⟩ := @routeEvent_failed _ eventData _ named valid
      exact .inr ⟨valid, error, by rw [emitted, failed]⟩
  · left
    exact ⟨matching_other named, by rw [emitted, routeEvent_skipped named]⟩

theorem emitted_success_iff :
    (emitted eventName eventData routes).1 = ReturnCode.success ↔
      ∀ route ∈ matching eventName routes, OneSlash route := by
  induction routes with
  | nil => exact iff_of_true rfl nofun
  | cons route routes inductionHypothesis =>
      rcases emitted_cons eventName eventData route routes with
        ⟨same, emits⟩ | ⟨same, ⟨valid, event, -, emits⟩ | ⟨malformed, error, emits⟩⟩
      · rw [same, emits, inductionHypothesis]
      · rw [same, emits, inductionHypothesis, List.forall_mem_cons,
          and_iff_right valid]
      · rw [same, emits, List.forall_mem_cons]
        exact iff_of_false nofun fun all => malformed all.1

theorem emitted_entries
    (valid : ∀ route ∈ matching eventName routes, OneSlash route) :
    List.Forall₂ (EntryFor eventData) (matching eventName routes)
      (emitted eventName eventData routes).2 := by
  induction routes with
  | nil => exact .nil
  | cons route routes inductionHypothesis =>
      rcases emitted_cons eventName eventData route routes with
        ⟨same, emits⟩ | ⟨same, ⟨-, event, isEntry, emits⟩ | ⟨malformed, -⟩⟩
      · rw [same] at valid ⊢
        rw [emits]
        exact inductionHypothesis valid
      · rw [same, List.forall_mem_cons] at valid
        rw [same, emits]
        exact .cons isEntry (inductionHypothesis valid.2)
      · rw [same, List.forall_mem_cons] at valid
        exact absurd valid.1 malformed

/-- Nothing is enqueued if the first route of the event is malformed, and
something is if it is well formed. -/
theorem emitted_eq_nil_iff
    (first : (matching eventName routes).head? = some route) :
    (emitted eventName eventData routes).2 = [] ↔ ¬ OneSlash route := by
  induction routes with
  | nil => cases first
  | cons other routes inductionHypothesis =>
      rcases emitted_cons eventName eventData other routes with
        ⟨same, emits⟩ | ⟨same, ⟨valid, event, -, emits⟩ | ⟨malformed, error, emits⟩⟩
      · rw [same] at first
        rw [emits]
        exact inductionHypothesis first
      · rw [same] at first
        cases first
        rw [emits]
        exact iff_of_false (List.cons_ne_nil _ _) (not_not.mpr valid)
      · rw [same] at first
        cases first
        rw [emits]
        exact iff_of_true rfl malformed

/-! ## What is appended meanwhile -/

namespace EventQLTarget

variable {before after : EventQLTarget}
variable {entries : List EnqueuedEvent}

theorem Appends.refl (target : EventQLTarget) : target.Appends target [] :=
  ⟨(List.append_nil _).symm, [], List.append_nil _⟩

/-- Entries can be taken from the front of the queue. -/
def Takes (before after : EventQLTarget) : Prop :=
  after.queueMaxLength = before.queueMaxLength ∧
    ∃ taken, before.queue = taken ++ after.queue

theorem takes_popEvent (target : EventQLTarget) :
    target.Takes target.popEvent := by
  unfold popEvent
  split
  next => exact ⟨rfl, [], rfl⟩
  next event queue isQueue => exact ⟨rfl, [event], isQueue⟩

theorem takes_uploadStep (taken : before.uploadStep = some after) :
    before.Takes after := by
  unfold uploadStep at taken
  split at taken <;> cases taken
  · exact ⟨rfl, [], rfl⟩
  · split
    · exact ⟨rfl, [], rfl⟩
    · exact takes_popEvent before
  · exact takes_popEvent before
  · exact ⟨rfl, [], rfl⟩
  · exact ⟨rfl, [], rfl⟩

/-- Other threads do nothing else to the queue. -/
theorem takes_act (peer : Peer) (target : EventQLTarget) :
    target.Takes (target.act peer) := by
  cases peer with
  | upload =>
      change target.Takes (target.uploadStep.getD target)
      cases taken : target.uploadStep with
      | none => exact ⟨rfl, [], rfl⟩
      | some after => exact takes_uploadStep taken
  | spuriousUpload =>
      change target.Takes (target.wakeUpload.getD target)
      unfold wakeUpload
      split <;> exact ⟨rfl, [], rfl⟩
  | spuriousService => exact ⟨rfl, [], rfl⟩

theorem Appends.act
    (appends : before.Appends after entries)
    (peer : Peer) :
    before.Appends (after.act peer) entries := by
  obtain ⟨accepted, taken, queue⟩ := appends
  obtain ⟨-, more, queueAfter⟩ := takes_act peer after
  refine ⟨(sameBooks_act peer after).accepted.trans accepted, taken ++ more, ?_⟩
  rw [queue, queueAfter, List.append_assoc]

theorem Appends.enqueueEvent
    (appends : before.Appends after entries)
    {event : EnqueuedEvent}
    {pushed : EventQLTarget}
    (enqueued : after.enqueueEvent event = some pushed) :
    before.Appends pushed (entries ++ [event]) := by
  obtain ⟨accepted, taken, queue⟩ := appends
  unfold EventQLTarget.enqueueEvent at enqueued
  split at enqueued
  · cases enqueued
  · cases enqueued
    refine ⟨?_, taken, ?_⟩
    · rw [(sameBooks_notifyUpload _).accepted, accepted, List.append_assoc]
    · rw [queue_notifyUpload, ← List.append_assoc, queue, List.append_assoc]

end EventQLTarget

/-! ## Runs of `emitEvent` -/

open EventQLTarget EventQLWorld

variable {before : EventQLTarget}
variable {world : EventQLWorld}
variable {entries : List EnqueuedEvent}

theorem Appends.react
    (appends : before.Appends world.target entries)
    (entry : Entry) :
    before.Appends (World.react entry world).target entries :=
  @reactAll_stable _ _ EventQLTarget.act
    (fun target => before.Appends target entries)
    (fun peer _ kept => kept.act peer) entry.peers _ appends

/-- Meanwhile the queue does not get longer. -/
theorem length_queue_react_le (entry : Entry) (world : EventQLWorld) :
    (World.react entry world).target.queueMaxLength =
        world.target.queueMaxLength ∧
      (World.react entry world).target.queue.length ≤
        world.target.queue.length := by
  refine @reactAll_stable _ _ EventQLTarget.act
    (fun target => target.queueMaxLength = world.target.queueMaxLength ∧
      target.queue.length ≤ world.target.queue.length) ?_ entry.peers _
    ⟨rfl, Nat.le_refl _⟩
  rintro peer target ⟨sameBound, shorter⟩
  obtain ⟨bound, taken, queue⟩ := takes_act peer target
  have lengths := congrArg List.length queue
  rw [List.length_append] at lengths
  exact ⟨bound.trans sameBound, by omega⟩

theorem enqueueEvent_appends
    (event : EnqueuedEvent)
    (appends : before.Appends world.target entries) :
    wp (fun _ _ => True) (enqueueEvent event)
      (fun _ after => before.Appends after.target (entries ++ [event])) world := by
  apply wp_iterate (fun _ world => before.Appends world.target entries) appends
    (fun _ _ _ => trivial)
  intro _ world entry kept
  have reacted := Appends.react kept entry
  refine wp_bind (wp_get ?_)
  split
  · exact wp_pure reacted
  next pushed =>
    exact wp_bind (wp_modify (wp_pure (reacted.enqueueEvent pushed)))

/-- What the loop of `emitEvent` returns and appends. -/
theorem emitRoutes_appends
    (appends : before.Appends world.target entries) :
    wp (fun _ _ => True) (emitRoutes eventName eventData routes)
      (fun rc after => rc = (emitted eventName eventData routes).1 ∧
        before.Appends after.target
          (entries ++ (emitted eventName eventData routes).2)) world := by
  induction routes generalizing entries world with
  | nil => exact wp_pure ⟨rfl, by rw [emitted, List.append_nil]; exact appends⟩
  | cons route routes inductionHypothesis =>
      unfold emitRoutes emitted
      cases routeEvent eventName eventData route with
      | skipped => exact inductionHypothesis appends
      | failed error =>
          exact wp_pure ⟨rfl, by rw [List.append_nil]; exact appends⟩
      | matched event =>
          refine wp_seq (enqueueEvent_appends event appends) fun _ _ appends => ?_
          have emits := inductionHypothesis appends
          rwa [List.append_assoc] at emits

theorem emitEvent_appends :
    wp (fun _ _ => True) (emitEvent eventName eventData)
      (fun rc after => rc = (emitted eventName eventData world.target.routes).1 ∧
        world.target.Appends after.target
          (emitted eventName eventData world.target.routes).2) world :=
  wp_bind (wp_get (emitRoutes_appends (Appends.refl world.target)))

/-- The entry is enqueued at once if there is room. -/
theorem enqueueEvent_returns
    (event : EnqueuedEvent)
    (entry : Entry)
    (script : List Entry)
    (room : world.target.queue.length < world.target.queueMaxLength) :
    ∃ after, enqueueEvent event (entry :: script) world =
        .done ReturnCode.success script after ∧
      after.target.queueMaxLength = world.target.queueMaxLength ∧
      after.target.queue.length ≤ world.target.queue.length + 1 := by
  obtain ⟨sameBound, shorter⟩ := length_queue_react_le entry world
  obtain ⟨pushed, enqueued, bound, length⟩ : ∃ pushed,
      (World.react entry world).target.enqueueEvent event = some pushed ∧
        pushed.queueMaxLength = world.target.queueMaxLength ∧
        pushed.queue.length ≤ world.target.queue.length + 1 := by
    rw [EventQLTarget.enqueueEvent, if_neg (by omega)]
    refine ⟨_, rfl, ?_, ?_⟩
    · unfold notifyUpload
      split <;> exact sameBound
    · rw [queue_notifyUpload, List.length_append, List.length_singleton]
      omega
  have pass : enqueuePass event script (World.react entry world) =
      .done (.inr ReturnCode.success) script
        (onTarget (fun _ => pushed) (World.react entry world)) := by
    rw [enqueuePass, Proc.get_bind, enqueued]
    rfl
  refine ⟨onTarget (fun _ => pushed) (World.react entry world), ?_, bound, length⟩
  have called : (Proc.call .enqueue fun entry world => ((), World.react entry world) :
      EventQLProc Unit) (entry :: script) world =
        .done () script (World.react entry world) := rfl
  rw [enqueueEvent, Proc.iterate, Proc.iterateUpTo, bind_of_done called,
    bind_of_done pass]
  rfl

theorem emitRoutes_returns
    (script : List Entry)
    (room : world.target.queue.length + (matching eventName routes).length ≤
      world.target.queueMaxLength)
    (enough : (matching eventName routes).length ≤ script.length) :
    ∃ rc rest after, emitRoutes eventName eventData routes script world =
      .done rc rest after := by
  induction routes generalizing script world with
  | nil => exact ⟨_, _, _, rfl⟩
  | cons route routes inductionHypothesis =>
      unfold emitRoutes
      by_cases named : route.eventNameMatch = eventName
      · rw [matching_named named, List.length_cons] at room enough
        cases routed : routeEvent eventName eventData route with
        | skipped => exact inductionHypothesis script (by omega) (by omega)
        | failed error => exact ⟨_, _, _, rfl⟩
        | matched event =>
            match script, enough with
            | entry :: script, enough =>
              obtain ⟨after, enqueued, bound, length⟩ :=
                @enqueueEvent_returns world event entry script (by omega)
              dsimp only
              rw [bind_of_done enqueued]
              exact inductionHypothesis script (by omega) (Nat.le_of_succ_le_succ enough)
      · rw [routeEvent_skipped named]
        rw [matching_other named] at room enough
        exact inductionHypothesis script room enough

/-- An event is routed all or nothing if and only if the targets of all its routes
are well formed, or that of the first one is not. -/
theorem allOrNothing_iff
    (routes : List EventRouting)
    (eventName eventData : Bytes) :
    AllOrNothing routes eventName eventData ↔
      (∀ route ∈ matching eventName routes, OneSlash route) ∨
        ∃ route, (matching eventName routes).head? = some route ∧
          ¬ OneSlash route := by
  have ended {script world rc rest after}
      (table : world.target.routes = routes)
      (done : emitEvent eventName eventData script world = .done rc rest after) :
      rc = (emitted eventName eventData routes).1 ∧
        world.target.Appends after.target (emitted eventName eventData routes).2 := by
    have sat := @emitEvent_appends eventName eventData world script
    rwa [done, table] at sat
  constructor
  · intro routed
    by_contra mixed
    obtain ⟨someMalformed, firstValid⟩ := not_or.mp mixed
    have nonempty : matching eventName routes ≠ [] := by
      intro noRoutes
      rw [noRoutes] at someMalformed
      exact someMalformed nofun
    obtain ⟨first, rest, isFirst⟩ := List.exists_cons_of_ne_nil nonempty
    have atHead : (matching eventName routes).head? = some first := by
      rw [isFirst, List.head?_cons]
    have valid : OneSlash first := by
      by_contra malformed
      exact firstValid ⟨first, atHead, malformed⟩
    -- With room for all, the call returns the error of a later route.
    obtain ⟨rc, rest, after, done⟩ := routed.returns
      (List.replicate (matching eventName routes).length {})
      { target := {
          routes := routes
          queueMaxLength := (matching eventName routes).length } }
      rfl (by simp) (by simp)
    obtain ⟨result, appends⟩ := ended rfl done
    cases rc with
    | ok _ => exact someMalformed (emitted_success_iff.mp result.symm)
    | error error =>
        have left := routed.leaves _ _ _ _ _ rfl done
        have none := List.append_cancel_left (appends.1.symm.trans left.1)
        exact (emitted_eq_nil_iff atHead).mp none valid
  · intro condition
    refine ⟨?_, ?_, ?_, ?_⟩
    · rintro script world rfl room enough
      exact emitRoutes_returns script room enough
    · intro script world rc rest after table done
      rw [(ended table done).1, emitted_success_iff]
    · intro script world rest after table done
      obtain ⟨success, appends⟩ := ended table done
      exact ⟨_, emitted_entries (emitted_success_iff.mp success.symm), appends⟩
    · intro script world error rest after table done
      obtain ⟨failure, appends⟩ := ended table done
      rcases condition with valid | ⟨route, first, malformed⟩
      · rw [emitted_success_iff.mpr valid] at failure
        cases failure
      · rwa [(emitted_eq_nil_iff first).mpr malformed] at appends

/-- Routes of an event to two targets, of which the second has no table. -/
def mixedRoutes : List EventRouting :=
  [{ eventNameMatch := bytes "sys.alive", target := bytes "monitor/alive" },
    { eventNameMatch := bytes "sys.alive", target := bytes "monitor" }]

/-- The call fails, and the event is in the queue. -/
theorem not_allOrNothing_mixed :
    (∃ error rest after,
      emitEvent (bytes "sys.alive") (bytes "{}") [{}]
        { target := { routes := mixedRoutes } } = .done (.error error) rest after ∧
      after.target.queue = [{
        database := bytes "monitor"
        table := bytes "alive"
        data := bytes "{}" }]) ∧
      ¬ AllOrNothing mixedRoutes (bytes "sys.alive") (bytes "{}") := by
  have run : emitEvent (bytes "sys.alive") (bytes "{}") [{}]
      { target := { routes := mixedRoutes } } =
        .done
          (.error {
            code := bytes "EINVAL"
            message := bytes
              ("invalid target specification. " ++
                "format is: database/table") }) []
          { target := {
              routes := mixedRoutes
              queue := [{
                database := bytes "monitor"
                table := bytes "alive"
                data := bytes "{}" }]
              accepted := [{
                database := bytes "monitor"
                table := bytes "alive"
                data := bytes "{}" }] } } := rfl
  refine ⟨⟨_, _, _, run, rfl⟩, fun routed => ?_⟩
  have left := routed.leaves _ _ _ _ _ rfl run
  exact absurd left.1 (by decide)

end EventQL
end EvCollect
