import EvCollect.Service.Foreign
import EvCollect.Service.Observe

/-!
# Targets do not disturb each other

Every event that the source of a binding returns is offered to all targets
before the source is asked for the next one. A target that fails ends the round
of its binding, but only after all targets have been offered the event, and a
source that fails has not returned one.
-/

namespace EvCollect
namespace Service

open Process ServiceImpl Schedule

/-- The events that the target at a position has been offered, in order. -/
def offersTo (target : Nat) (offered : List (Nat × EventData)) : List EventData :=
  (offered.filter fun offer => offer.1 == target).map Prod.snd

/-- An event is offered to a number of targets from a position on. -/
def offersFrom
    (position count : Nat)
    (event : EventData) : List (Nat × EventData) :=
  (List.range' position count).map fun target => (target, event)

@[simp] theorem offersTo_append
    (target : Nat)
    (first second : List (Nat × EventData)) :
    offersTo target (first ++ second) =
      offersTo target first ++ offersTo target second := by
  simp [offersTo]

theorem offersFrom_succ (position count : Nat) (event : EventData) :
    offersFrom position (count + 1) event =
      (position, event) :: offersFrom (position + 1) count event := by
  simp [offersFrom, List.range'_succ]

theorem offersTo_offersFrom
    (target position count : Nat)
    (event : EventData) :
    offersTo target (offersFrom position count event) =
      if position ≤ target ∧ target < position + count then [event] else [] := by
  induction count generalizing position with
  | zero =>
      rw [if_neg (by omega)]
      rfl
  | succ count inductionHypothesis =>
      rw [offersFrom_succ, ← List.singleton_append, offersTo_append,
        inductionHypothesis]
      by_cases first : position = target
      · rw [if_neg (by omega), if_pos (by omega)]
        simp [offersTo, first]
      · rw [show offersTo target [(position, event)] = [] by
          simp [offersTo, first], List.nil_append]
        exact if_congr (by omega) rfl rfl

/-- The calls of targets that some offers stand for. -/
def callsFor
    (targets : List TargetBinding)
    (offered : List (Nat × EventData)) : List (TargetBinding × EventData) :=
  offered.filterMap fun offer =>
    targets[offer.1]?.map fun target => (target, offer.2)

@[simp] theorem callsFor_append
    (targets : List TargetBinding)
    (first second : List (Nat × EventData)) :
    callsFor targets (first ++ second) =
      callsFor targets first ++ callsFor targets second := by
  simp [callsFor]

theorem callsFor_offersFrom
    (before targets : List TargetBinding)
    (event : EventData) :
    callsFor (before ++ targets)
        (offersFrom before.length targets.length event) =
      targets.map fun target => (target, event) := by
  induction targets generalizing before with
  | nil => rfl
  | cons target targets inductionHypothesis =>
      have rest := inductionHypothesis (before ++ [target])
      rw [List.append_assoc, List.length_append] at rest
      have first : (before ++ target :: targets)[before.length]? =
          some target := by
        simp
      rw [List.length_cons, offersFrom_succ, callsFor,
        List.filterMap_cons_some (by rw [first]; rfl)]
      exact congrArg ((target, event) :: ·) rest

/-- The calls of all targets with the events of the deliveries, in order. -/
def callsOf
    (targets : List TargetBinding)
    (deliveries : List (Nat × EventData)) : List (TargetBinding × EventData) :=
  deliveries.flatMap fun delivery =>
    targets.map fun target => (target, delivery.2)

theorem callsOf_concat
    (targets : List TargetBinding)
    (deliveries : List (Nat × EventData))
    (last : Nat × EventData) :
    callsOf targets (deliveries ++ [last]) =
      callsOf targets deliveries ++
        targets.map fun target => (target, last.2) := by
  simp [callsOf]

/-- A delivery of a binding passes on what the source of the binding has
returned, under the binding's name. -/
def PassesOn
    (schedule : Schedule)
    (returned : EventSourceBinding × Bytes)
    (delivery : Nat × EventData) : Prop :=
  schedule.static[delivery.1]? =
      some (delivery.2.eventName, [returned.1]) ∧
    delivery.2.eventData = returned.2

variable {L τ : Type}

/-- Every target has been called with the events of the deliveries, and these
pass on what the sources have returned, one by one. -/
structure Delivered
    (deliveries : List (Nat × EventData))
    (service : ServiceImpl (Observed τ)) : Prop where
  offered : ∀ target < service.targets.length,
    offersTo target service.offered = deliveries.map Prod.snd
  called : emissions service.world.observations =
    callsOf service.targets deliveries
  returned : List.Forall₂ (PassesOn service.toSchedule)
    (returns service.world.observations) deliveries

/-- The same while a delivery is made: some targets can lack the last event. -/
structure Delivering
    (deliveries : List (Nat × EventData))
    (service : ServiceImpl (Observed τ)) : Prop where
  offered : ∀ target < service.targets.length,
    ∃ missing, missing.length ≤ 1 ∧
      offersTo target service.offered ++ missing = deliveries.map Prod.snd
  called : ∃ missing, missing.length ≤ service.targets.length ∧
    emissions service.world.observations ++ missing =
      callsOf service.targets deliveries
  returned : List.Forall₂ (PassesOn service.toSchedule)
    (returns service.world.observations) deliveries

/-- More has been delivered, for one binding only. -/
def DeliveredMore
    (job : Nat)
    (deliveries : List (Nat × EventData))
    (service : ServiceImpl (Observed τ)) : Prop :=
  ∃ more, (∀ delivery ∈ more, delivery.1 = job) ∧
    Delivered (deliveries ++ more) service

/-- All bindings have one source. -/
def SingleSources (schedule : Schedule) : Prop :=
  ∀ binding ∈ schedule.static, ∃ source, binding.2 = [source]

/-- What is known of the deliveries at the program points. -/
def Isolating : Point L → ServiceImpl (Observed τ) → Prop
  | .plugin _, service => ∃ deliveries, Delivering deliveries service
  | _, service => ∃ deliveries, Delivered deliveries service

theorem Delivered.delivering
    {deliveries : List (Nat × EventData)}
    {service : ServiceImpl (Observed τ)}
    (delivered : Delivered deliveries service) :
    Delivering deliveries service :=
  ⟨fun target inside => ⟨[], Nat.zero_le _, by
    rw [List.append_nil, delivered.offered target inside]⟩,
    ⟨[], Nat.zero_le _, by rw [List.append_nil, delivered.called]⟩,
    delivered.returned⟩

theorem Isolating.of_delivered
    {deliveries : List (Nat × EventData)}
    {service : ServiceImpl (Observed τ)}
    (point : Point L)
    (delivered : Delivered deliveries service) :
    Isolating point service := by
  cases point with
  | plugin inner => exact ⟨deliveries, delivered.delivering⟩
  | _ => exact ⟨deliveries, delivered⟩

theorem Delivered.more
    {deliveries : List (Nat × EventData)}
    {service : ServiceImpl (Observed τ)}
    (job : Nat)
    (delivered : Delivered deliveries service) :
    DeliveredMore job deliveries service :=
  ⟨[], by simp, by rwa [List.append_nil]⟩

/-- The deliveries do not depend on the rest of the service. -/
theorem Delivered.congr
    {deliveries : List (Nat × EventData)}
    {service service' : ServiceImpl (Observed τ)}
    (delivered : Delivered deliveries service)
    (targets : service'.targets = service.targets)
    (offered : service'.offered = service.offered)
    (observed : returns service'.world.observations =
      returns service.world.observations)
    (called : emissions service'.world.observations =
      emissions service.world.observations)
    (static : service'.static = service.static) :
    Delivered deliveries service' := by
  refine ⟨?_, ?_, ?_⟩
  · rw [targets, offered]
    exact delivered.offered
  · rw [targets, called]
    exact delivered.called
  · unfold PassesOn
    rw [observed, static]
    exact delivered.returned

/-! ## Delivering an event -/

/-- Delivering an event calls the targets one after the other, whatever they
return. -/
theorem deliverFrom_observed
    {plugins : Plugins L τ}
    {inv : Point L → ServiceImpl (Observed τ) → Prop}
    (event : EventData)
    (targets : List TargetBinding)
    (position : Nat)
    (aggregate : ReturnCode)
    {service : ServiceImpl (Observed τ)}
    (atPoint : ∀ point done world, done <+: targets → inv (.plugin point)
      { service with
        offered := service.offered ++ offersFrom position done.length event
        world :=
          { world := world
            observations := service.world.observations ++
              emittedTo done event } }) :
    wp inv (deliverFrom (observe plugins) event position targets aggregate)
      (fun _ after => ∃ world, after =
        { service with
          offered := service.offered ++
            offersFrom position targets.length event
          world :=
            { world := world
              observations := service.world.observations ++
                emittedTo targets event } }) service := by
  induction targets generalizing position aggregate service with
  | nil =>
      refine wp_pure ⟨service.world.world, ?_⟩
      simp [offersFrom, emittedTo]
  | cons target rest inductionHypothesis =>
      refine wp_bind (wp_zoom (wp_observeEmit ?_ ?_))
      · intro point world
        simpa [offersFrom, emittedTo] using
          atPoint point [] world List.nil_prefix
      · intro rc world
        refine wp_bind (wp_modify (wp_mono (inductionHypothesis _ _ ?_)
          (fun _ _ known => known) ?_))
        · intro point done later isPrefix
          have known := atPoint point (target :: done) later
            ((List.prefix_cons_inj target).mpr isPrefix)
          rw [List.length_cons, offersFrom_succ] at known
          simpa [logOffer, Observed.note, emittedTo] using known
        · rintro _ _ ⟨later, rfl⟩
          refine ⟨later, ?_⟩
          simp [logOffer, offersFrom_succ, Observed.note, emittedTo]

theorem binding_of_static
    {schedule : Schedule}
    {job : Nat}
    {eventName : Bytes}
    {sources : List EventSourceBinding}
    (found : schedule.static[job]? = some (eventName, sources)) :
    (schedule.binding job).eventName = eventName ∧
      (schedule.binding job).sources = sources := by
  unfold static at found
  rw [List.getElem?_map] at found
  obtain ⟨binding, present, same⟩ := Option.map_eq_some_iff.mp found
  rw [Schedule.binding, List.getD_eq_getElem?_getD, present]
  exact Prod.mk.injEq .. ▸ same

theorem sources_of_no_static
    {schedule : Schedule}
    {job : Nat}
    (absent : schedule.static[job]? = none) :
    (schedule.binding job).sources = [] := by
  unfold static at absent
  rw [List.getElem?_map, Option.map_eq_none_iff] at absent
  rw [Schedule.binding, List.getD_eq_getElem?_getD, absent]
  rfl

/-- An event that is returned is no call of a target. -/
theorem emissions_returned
    (observations : List Observation)
    (source : EventSourceBinding)
    (event : Bytes) :
    emissions (observations ++ [.returned source event]) =
      emissions observations := by
  rw [emissions_append]
  exact List.append_nil _

section Returned

variable {deliveries : List (Nat × EventData)}
variable {job : Nat}
variable {source : EventSourceBinding}
variable {eventName event : Bytes}
variable {service : ServiceImpl (Observed τ)}

/-- An event that has been returned is the next one to be delivered. -/
theorem Delivered.next
    (delivered : Delivered deliveries service)
    (binding : service.static[job]? = some (eventName, [source]))
    (nonempty : ¬event.isEmpty)
    (time : UInt64) :
    List.Forall₂ (PassesOn service.toSchedule)
      (returns (service.world.observations ++ [.returned source event]))
      (deliveries ++ [(job, ⟨time, eventName, event⟩)]) := by
  rw [returns_append, returns_singleton, if_neg nonempty]
  exact List.rel_append delivered.returned (.cons ⟨binding, rfl⟩ .nil)

/-- An empty event is not delivered. -/
theorem Delivered.nothing
    (delivered : Delivered deliveries service)
    (isEmpty : event.isEmpty)
    (world : τ) :
    Delivered deliveries
      { service with
        world := Observed.note (.returned source event)
          { service.world with world := world } } := by
  refine delivered.congr rfl rfl ?_ (emissions_returned _ _ _) rfl
  rw [Observed.note, returns_append, returns_singleton, if_pos isEmpty,
    List.append_nil]

/-- The targets have not been offered yet what has just been returned. -/
theorem Delivered.pending
    (delivered : Delivered deliveries service)
    (binding : service.static[job]? = some (eventName, [source]))
    (event : Bytes)
    (world : τ) :
    ∃ deliveries, Delivering deliveries
      { service with
        world := Observed.note (.returned source event)
          { service.world with world := world } } := by
  by_cases isEmpty : event.isEmpty
  · exact ⟨deliveries, (delivered.nothing isEmpty world).delivering⟩
  · refine ⟨_, fun target inside => ?_, ?_, delivered.next binding isEmpty 0⟩
    · refine ⟨[⟨0, eventName, event⟩], Nat.le_refl _, ?_⟩
      rw [delivered.offered target inside, List.map_append]
      rfl
    · refine ⟨service.targets.map fun target => (target, ⟨0, eventName, event⟩),
        (List.length_map _).le, ?_⟩
      rw [callsOf_concat, ← delivered.called]
      exact congrArg (· ++ _) (emissions_returned _ _ _)

/-- An event that has been returned is delivered, if it is not empty. -/
theorem emitMerged_delivers
    {plugins : Plugins L τ}
    (now : UInt64)
    (delivered : Delivered deliveries service)
    (binding : service.static[job]? = some (eventName, [source]))
    (event : Bytes)
    (world : τ) :
    wp Isolating (emitMerged (observe plugins) job now event)
      (fun _ after => after.static = service.static ∧
        DeliveredMore job deliveries after)
      { service with
        world := Observed.note (.returned source event)
          { service.world with world := world } } := by
  unfold emitMerged
  split
  next isEmpty =>
    exact wp_pure ⟨rfl, (delivered.nothing isEmpty world).more job⟩
  next nonempty =>
    have returned := delivered.next binding nonempty now
    have noneReturned (targets : List TargetBinding) :
        returns (service.world.observations ++ [.returned source event]) =
          returns (service.world.observations ++ [.returned source event] ++
            emittedTo targets ⟨now, eventName, event⟩) := by
      rw [returns_append _ (emittedTo _ _), returns_emittedTo, List.append_nil]
    have called (targets : List TargetBinding) :
        emissions (service.world.observations ++ [.returned source event] ++
            emittedTo targets ⟨now, eventName, event⟩) =
          callsOf service.targets deliveries ++
            targets.map fun target => (target, ⟨now, eventName, event⟩) := by
      rw [emissions_append, emissions_emittedTo, emissions_returned,
        delivered.called]
    refine wp_bind (wp_get (wp_bind (wp_get ?_)))
    have named : (service.binding job).eventName = eventName :=
      (binding_of_static binding).1
    rw [named]
    refine wp_mono (deliverFrom_observed _ service.targets 0 _ ?_)
      (fun _ _ known => known) ?_
    · rintro point done later ⟨left, all⟩
      refine ⟨_, fun target inside => ?_, ?_, noneReturned done ▸ returned⟩
      · simp only [offersTo_append, offersTo_offersFrom,
          delivered.offered target inside, List.map_append, List.append_assoc]
        split
        · exact ⟨[], Nat.zero_le _, rfl⟩
        · exact ⟨[_], Nat.le_refl _, rfl⟩
      · refine ⟨left.map fun target => (target, ⟨now, eventName, event⟩), ?_, ?_⟩
        · change _ ≤ service.targets.length
          rw [List.length_map, ← all, List.length_append]
          exact Nat.le_add_left _ _
        · refine (congrArg (· ++ _) (called done)).trans ?_
          change _ = callsOf service.targets _
          rw [callsOf_concat, List.append_assoc, ← List.map_append, all]
    · rintro _ _ ⟨later, rfl⟩
      refine ⟨rfl, [_], by simp, fun target inside => ?_, ?_,
        noneReturned service.targets ▸ returned⟩
      · change target < service.targets.length at inside
        simp only [offersTo_append, offersTo_offersFrom,
          delivered.offered target inside, List.map_append]
        rw [if_pos (by omega)]
        rfl
      · refine (called service.targets).trans ?_
        exact (callsOf_concat service.targets deliveries
          (job, ⟨now, eventName, event⟩)).symm

end Returned

/-! ## Processing -/

/-- Polling the source of a binding notes the event that it returns. -/
theorem pollSources_observed
    {plugins : Plugins L τ}
    {inv : Point L → ServiceImpl (Observed τ) → Prop}
    {post : Except Error (Bytes × Bool) → ServiceImpl (Observed τ) → Prop}
    (source : EventSourceBinding)
    {service : ServiceImpl (Observed τ)}
    (atPoint : ∀ point world, inv (.plugin point)
      { service with world := { service.world with world := world } })
    (failed : ∀ error world, post (.error error)
      { service with world := { service.world with world := world } })
    (atPending : ∀ event point world, inv (.plugin point)
      { service with
        world := Observed.note (.returned source event)
          { service.world with world := world } })
    (polled : ∀ event cont world, post (.ok (event, cont))
      { service with
        world := Observed.note (.returned source event)
          { service.world with world := world } }) :
    wp inv (pollSources (observe plugins) [source] [] false) post service := by
  refine wp_bind (wp_zoom (wp_observeNextEvent (fun point => atPoint _) ?_ ?_))
  · intro error world
    exact wp_pure (failed error world)
  · intro event world
    refine wp_bind (wp_zoom (wp_observing (fun point => atPending event point) ?_))
    intro pending later
    exact wp_pure (polled event _ later)

section Processing

variable {plugins : Plugins L τ}
variable {deliveries : List (Nat × EventData)}
variable {service : ServiceImpl (Observed τ)}

/-- A round of `processEvent` delivers what its source returns. -/
theorem processRound_delivers
    (job : Nat)
    (now : UInt64)
    (single : SingleSources service.toSchedule)
    (delivered : Delivered deliveries service) :
    wp Isolating (processRound (observe plugins) job now)
      (fun _ after => after.static = service.static ∧
        DeliveredMore job deliveries after) service := by
  have same (world : τ) : Delivered deliveries
      { service with world := { service.world with world := world } } :=
    delivered.congr rfl rfl rfl rfl rfl
  refine wp_bind (wp_get ?_)
  cases found : service.static[job]? with
  | none =>
      rw [sources_of_no_static found]
      exact wp_bind (wp_pure (wp_bind (wp_pure
        (wp_pure ⟨rfl, delivered.more job⟩))))
  | some binding =>
      obtain ⟨source, one⟩ := single _ (List.mem_of_getElem? found)
      obtain ⟨eventName, sources⟩ := binding
      cases one
      rw [(binding_of_static found).2]
      refine wp_bind (pollSources_observed source ?_ ?_ ?_ ?_)
      · exact fun point world => ⟨deliveries, (same world).delivering⟩
      · exact fun error world => wp_pure ⟨rfl, (same world).more job⟩
      · exact fun event point world => delivered.pending found event world
      · intro event cont world
        apply wp_seq (emitMerged_delivers now delivered found event world)
        intro rc after known
        cases rc with
        | error failure => exact wp_pure known
        | ok _ =>
            dsimp only
            split <;> exact wp_pure known

end Processing

variable [World τ]

/-- What the main loop carries. -/
def Isolated (service : ServiceImpl (Observed τ)) : Prop :=
  SingleSources service.toSchedule ∧ ∃ deliveries, Delivered deliveries service

/-- `processEvent` delivers for its own binding. -/
theorem processEvent_delivers
    {plugins : Plugins L τ}
    {deliveries : List (Nat × EventData)}
    (job : Nat)
    {service : ServiceImpl (Observed τ)}
    (single : SingleSources service.toSchedule)
    (delivered : Delivered deliveries service) :
    wp Isolating (processEvent (observe plugins) job)
      (fun _ after => SingleSources after.toSchedule ∧
        DeliveredMore job deliveries after) service := by
  refine wp_bind (wp_get ?_)
  split
  · exact wp_pure ⟨single, delivered.more job⟩
  refine wp_bind (wp_call ⟨deliveries, delivered⟩ fun entry => ?_)
  have reacted : Delivered deliveries (react entry service) :=
    delivered.congr rfl rfl rfl rfl rfl
  apply wp_iterate (fun _ state => SingleSources state.toSchedule ∧
    DeliveredMore job deliveries state) ⟨single, reacted.more job⟩
    (fun _ _ ⟨_, more, _, kept⟩ => ⟨deliveries ++ more, kept⟩)
  rintro _ state entry ⟨single, more, ofJob, delivered⟩
  have reacted : Delivered (deliveries ++ more) (react entry state) :=
    delivered.congr rfl rfl rfl rfl rfl
  refine wp_mono (processRound_delivers job _ single reacted)
    (fun _ _ known => known) ?_
  rintro result after ⟨same, later, ofJob', known⟩
  have single : SingleSources after.toSchedule := by
    unfold SingleSources
    rw [same]
    exact single
  have both : DeliveredMore job deliveries after := by
    refine ⟨more ++ later, fun delivery present => ?_, ?_⟩
    · rcases List.mem_append.mp present with early | late
      · exact ofJob delivery early
      · exact ofJob' delivery late
    · rwa [← List.append_assoc]
  cases result with
  | inl _ => exact ⟨single, both⟩
  | inr _ => exact ⟨single, both⟩

/-- The main loop keeps all targets at the same point of the same sequence. -/
theorem carriesIsolated (plugins : Plugins L τ) :
    Carried (observe plugins) Isolating Isolated where
  atPoint := fun point service own isolated => by
    obtain ⟨_, deliveries, delivered⟩ := isolated
    exact Isolating.of_delivered point delivered
  react := fun entry service ⟨single, deliveries, delivered⟩ =>
    ⟨single, deliveries, delivered.congr rfl rfl rfl rfl rfl⟩
  clock := fun now service ⟨single, deliveries, delivered⟩ =>
    ⟨single, deliveries, delivered.congr rfl rfl rfl rfl rfl⟩
  schedule := fun schedule service same ⟨single, deliveries, delivered⟩ => by
    refine ⟨?_, deliveries, delivered.congr rfl rfl rfl rfl same⟩
    unfold SingleSources
    rw [same]
    exact single
  processEvent := fun job service ⟨single, deliveries, delivered⟩ =>
    wp_mono (processEvent_delivers job single delivered) (fun _ _ known => known)
      fun _ _ ⟨still, more, _, kept⟩ => ⟨still, deliveries ++ more, kept⟩

/-! ## Life of a service -/

/-- A service before its main loop, all of whose bindings have one source. -/
structure Unused (service : ServiceImpl (Observed τ)) : Prop where
  single : SingleSources service.toSchedule
  offered : service.offered = []
  called : emissions service.world.observations = []
  returned : returns service.world.observations = []

omit [World τ] in
theorem Unused.delivered
    {service : ServiceImpl (Observed τ)}
    (unused : Unused service) :
    Delivered [] service := by
  refine ⟨fun target _ => ?_, ?_, ?_⟩
  · rw [unused.offered]
    rfl
  · rw [unused.called]
    rfl
  · rw [unused.returned]
    exact .nil

omit [World τ] in
/-- A call into a plugin that returns no event, and is given none, keeps the
service unused. -/
theorem Unused.observe
    {service : ServiceImpl (Observed τ)}
    {observed : Observed τ}
    (unused : Unused service)
    (called : emissions observed.observations = [])
    (same : returns observed.observations = []) :
    Unused { service with world := observed } :=
  ⟨unused.single, unused.offered, called, same⟩

theorem addEvent_unused
    {plugins : Plugins L τ}
    (config : EventConfig)
    {service : ServiceImpl (Observed τ)}
    (one : config.sources.length = 1)
    (unused : Unused service) :
    wp Isolating (addEvent (observe plugins) config)
      (fun _ after => Unused after) service := by
  have gains (gained : List EventSourceBinding) (world : τ) :
      Unused { service with world := service.world.gain gained world } :=
    unused.observe (by rw [Observed.emissions_gain, unused.called])
      (by rw [Observed.returns_gain, unused.returned])
  refine wp_seq (attachSources_observed config.sources [] ?_) ?_
  · exact fun point gained world =>
      Isolating.of_delivered _ (gains gained world).delivered
  · rintro result _ ⟨gained, world, rfl, attached⟩
    cases result with
    | error failure => exact wp_pure (gains gained world)
    | ok sources =>
        obtain ⟨rfl, length⟩ := attached
        obtain ⟨source, rfl⟩ := List.length_eq_one_iff.mp (length.trans one)
        refine wp_bind (wp_call ⟨[], (gains _ world).delivered⟩ fun entry => ?_)
        refine wp_bind (wp_modify (wp_pure ⟨?_, unused.offered,
          (gains _ world).called, (gains _ world).returned⟩))
        intro binding present
        change binding ∈ (adopt config _ _ service.toSchedule).static at present
        rw [static_adopt] at present
        rcases List.mem_append.mp present with earlier | last
        · exact unused.single binding earlier
        · rw [List.mem_singleton.mp last]
          exact ⟨source, rfl⟩

omit [World τ] in
theorem addTarget_unused
    {plugins : Plugins L τ}
    (config : TargetConfig)
    {service : ServiceImpl (Observed τ)}
    (unused : Unused service) :
    wp Isolating (addTarget (observe plugins) config)
      (fun _ after => Unused after) service := by
  have same (world : τ) : Unused
      { service with world := { service.world with world := world } } :=
    unused.observe unused.called unused.returned
  apply wp_mono (addTarget_observed config fun point world =>
    Isolating.of_delivered _ (same world).delivered) (fun _ _ known => known)
  intro rc after known
  cases rc with
  | error failure =>
      obtain ⟨world, rfl⟩ := known
      exact same world
  | ok _ =>
      obtain ⟨target, world, rfl⟩ := known
      refine ⟨unused.single, unused.offered, ?_, ?_⟩
      · rw [Observed.note, emissions_append, unused.called]
        rfl
      · rw [Observed.note, returns_append, unused.returned]
        rfl

theorem setUp_unused
    {plugins : Plugins L τ}
    (calls : List Setup)
    {service : ServiceImpl (Observed τ)}
    (single : ∀ config, .addEvent config ∈ calls → config.sources.length = 1)
    (unused : Unused service) :
    wp Isolating (setUp (observe plugins) calls)
      (fun _ after => Unused after) service := by
  refine wp_forM (fun call present state kept => ?_) unused
  cases call with
  | addEvent config =>
      exact wp_seq (addEvent_unused config (single config present) kept)
        fun _ _ held => wp_pure held
  | addTarget config =>
      exact wp_seq (addTarget_unused config kept) fun _ _ held => wp_pure held

omit [World τ] in
theorem detach_isolated
    (attachment : Attachment)
    (process : Proc Entry L τ Unit)
    (service : ServiceImpl (Observed τ))
    (isolated : Isolated service) :
    wp Isolating (onWorld (observeDetach attachment process))
      (fun _ after => Isolated after) service := by
  obtain ⟨single, deliveries, delivered⟩ := isolated
  have detached (world : τ) : Delivered deliveries
      { service with
        world := Observed.note (.detached attachment)
          { service.world with world := world } } :=
    delivered.congr rfl rfl (by simp [Observed.note, returns])
      (by simp [Observed.note, emissions]) rfl
  exact wp_zoom (wp_observeDetach
    (fun point world => ⟨deliveries, (detached world).delivering⟩)
    fun world => ⟨single, deliveries, detached world⟩)

/-- The events that are delivered for a binding. -/
def deliveriesOf (job : Nat) (deliveries : List (Nat × EventData)) : List Bytes :=
  (deliveries.filter fun delivery => delivery.1 == job).map
    fun delivery => delivery.2.eventData

/-- The events that a source has returned. -/
def returnsOf
    (source : EventSourceBinding)
    (returned : List (EventSourceBinding × Bytes)) : List Bytes :=
  (returned.filter fun item => item.1 == source).map Prod.snd

/-- The source belongs to this binding alone. -/
def OwnSource
    (schedule : Schedule)
    (job : Nat)
    (source : EventSourceBinding) : Prop :=
  (schedule.binding job).sources = [source] ∧
    ∀ other, (schedule.binding other).sources = [source] → other = job

/-- For a binding with a source of its own exactly those events are delivered
that its source has returned, in order. -/
theorem deliveriesOf_eq
    {schedule : Schedule}
    {job : Nat}
    {source : EventSourceBinding}
    {returned : List (EventSourceBinding × Bytes)}
    {deliveries : List (Nat × EventData)}
    (own : OwnSource schedule job source)
    (passed : List.Forall₂ (PassesOn schedule) returned deliveries) :
    deliveriesOf job deliveries = returnsOf source returned := by
  induction passed with
  | nil => rfl
  | @cons item delivery _ _ passesOn _ inductionHypothesis =>
      have ofBinding := (binding_of_static passesOn.1).2
      have same : (delivery.1 == job) = (item.1 == source) := by
        rw [Bool.eq_iff_iff, beq_iff_eq, beq_iff_eq]
        constructor
        · rintro rfl
          rw [own.1] at ofBinding
          exact (List.cons.inj ofBinding).1.symm
        · rintro rfl
          exact own.2 _ ofBinding
      simp only [deliveriesOf, returnsOf, List.filter_cons, same] at *
      split
      · rw [List.map_cons, List.map_cons, passesOn.2, inductionHypothesis]
      · exact inductionHypothesis

/-- In a service whose events have one source each, all targets are called with
the same events, whatever sources and targets return. These are the events that the
sources have returned and that are not empty, each under the name of its
binding, in order. Only inside of a plugin can a target lack the last one, and a
call of `processEvent` delivers for its own binding only. -/
theorem serve_isolates
    (plugins : Plugins L τ)
    (calls : List Setup)
    (world : τ)
    (single : ∀ config, .addEvent config ∈ calls → config.sources.length = 1) :
    (∀ point service,
      Reaches (serve (observe plugins) calls)
        { world := { world := world } } point service →
      ∃ deliveries, Delivering deliveries service ∧
        ((∀ inner, point ≠ .plugin inner) → Delivered deliveries service) ∧
        ∀ job source, OwnSource service.toSchedule job source →
          deliveriesOf job deliveries =
            returnsOf source (returns service.world.observations)) ∧
    (∀ rc service,
      Ends (serve (observe plugins) calls)
        { world := { world := world } } rc service →
      ∃ deliveries, Delivered deliveries service ∧
        ∀ job source, OwnSource service.toSchedule job source →
          deliveriesOf job deliveries =
            returnsOf source (returns service.world.observations)) ∧
    ∀ job deliveries (service after : ServiceImpl (Observed τ)) rc,
      SingleSources service.toSchedule → Delivered deliveries service →
      Ends (processEvent (observe plugins) job) service rc after →
      DeliveredMore job deliveries after := by
  have valid : wp Isolating (serve (observe plugins) calls)
      (fun _ after => Isolated after)
      ({ world := { world := world } } : ServiceImpl (Observed τ)) := by
    refine wp_seq (setUp_unused calls single ⟨by simp [SingleSources, static],
      rfl, rfl, rfl⟩) fun _ ready unused => ?_
    have isolated : Isolated ready := ⟨unused.single, [], unused.delivered⟩
    refine wp_seq ((carriesIsolated plugins).run isolated) fun rc stopped kept => ?_
    refine wp_seq (destroy_carries ?_ ?_ kept) fun _ _ held => wp_pure held
    · exact fun source => detach_isolated _ _
    · exact fun target => detach_isolated _ _
  refine ⟨fun point service reached => ?_, fun rc service ended => ?_, ?_⟩
  · have isolating := valid.reaches reached
    cases point with
    | plugin inner =>
        obtain ⟨deliveries, delivering⟩ := isolating
        exact ⟨deliveries, delivering, fun own => absurd rfl (own inner),
          fun job source own => deliveriesOf_eq own delivering.returned⟩
    | _ =>
        obtain ⟨deliveries, delivered⟩ := isolating
        exact ⟨deliveries, delivered.delivering, fun _ => delivered,
          fun job source own => deliveriesOf_eq own delivered.returned⟩
  · obtain ⟨-, deliveries, delivered⟩ := valid.ends ended
    exact ⟨deliveries, delivered,
      fun job source own => deliveriesOf_eq own delivered.returned⟩
  · intro job deliveries service after rc single delivered ended
    exact ((processEvent_delivers job single delivered).ends ended).2

/-- An event with one source, and two targets. -/
def twoTargets : List Setup :=
  [.addTarget ⟨[], [], ⟨[]⟩⟩, .addTarget ⟨[], [], ⟨[]⟩⟩,
    .addEvent ⟨bytes "load", 0, [⟨[], [], ⟨[]⟩⟩]⟩]

/-- The source returns an event, and the first target fails. -/
def firstTargetFails : List Entry :=
  [{}, {}, {}, {}, {}, {}, {}, {}, {}, {}, {}, {}, {}, {},
    { reply := bytes "1" }, {}, { result := -1 }, {}, {}]

/-- The service in the state where that script ends. -/
def afterFirstTarget : ServiceImpl (Observed Unit) :=
  (serve (observe (foreignPlugins id)) twoTargets firstTargetFails
    { world := { world := () } }).state

/-- Both targets have been offered the event. -/
theorem serve_isolates_firstTargetFails :
    ∃ deliveries, Delivered deliveries afterFirstTarget ∧
      (offersTo 1 afterFirstTarget.offered).length = 1 := by
  have reached : Reaches (serve (observe (foreignPlugins id)) twoTargets)
      { world := { world := () } } .head afterFirstTarget :=
    reaches_of_point _ _ firstTargetFails (by decide +kernel)
  have single (config : EventConfig) (present : .addEvent config ∈ twoTargets) :
      config.sources.length = 1 := by
    simp only [twoTargets, List.mem_cons, reduceCtorEq, Setup.addEvent.injEq,
      List.not_mem_nil, or_false, false_or] at present
    rw [present]
    rfl
  obtain ⟨deliveries, -, delivered, -⟩ :=
    (serve_isolates (foreignPlugins id) twoTargets () single).1 _ _ reached
  exact ⟨deliveries, delivered (by simp), by decide +kernel⟩

end Service
end EvCollect
