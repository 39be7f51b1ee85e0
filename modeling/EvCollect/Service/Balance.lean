import EvCollect.Service.Foreign
import EvCollect.Service.Observe

/-!
# What is attached is detached

The destructor of the service detaches everything that the service holds. All
that has been attached is held, except for the sources of an event that
`addEvent` has attached before it comes to one that it cannot attach: it returns
the error and forgets them.
-/

namespace EvCollect
namespace Service

open Process ServiceImpl Schedule

variable {L τ : Type}

/-- `addEvent` comes to a source that cannot be found or attached after it has
attached some sources of the same event. -/
def FailsLate
    (plugins : Plugins L τ)
    (config : EventConfig)
    (script : List Entry)
    (service : ServiceImpl τ) : Prop :=
  ∃ before source after, config.sources = before ++ source :: after ∧
    before ≠ [] ∧
    (∃ attached, (attachSources plugins before [] script service).value =
      some (.ok attached)) ∧
    ∃ error, (attachSources plugins (before ++ [source]) [] script
      service).value = some (.error error)

/-- No call of `addEvent` fails in this way. -/
def NeverFailsLate
    [World τ]
    (plugins : Plugins L τ) :
    List Setup → List Entry → ServiceImpl τ → Prop
  | [], _, _ => True
  | call :: calls, script, service =>
      (∀ config, call = .addEvent config →
        ¬FailsLate plugins config script service) ∧
      ∀ rest after, setUp plugins [call] script service = .done () rest after →
        NeverFailsLate plugins calls rest after

/-- At no point has anything been detached that had not been attached before,
as often as it had been. -/
def NoStrayDetach (observations : List Observation) : Prop :=
  ∀ before, before <+: observations →
    (detachments before).Subperm (attachments before)

/-- What the service will detach. -/
def held (service : ServiceImpl τ) : List Attachment :=
  (service.eventBindings.flatMap fun binding =>
    binding.sources.map Attachment.source) ++
    service.targets.map Attachment.output

/-- What has been attached is held or forgotten, and nothing is detached. -/
structure Books
    (forgotten : List Attachment)
    (service : ServiceImpl (Observed τ)) : Prop where
  attached : (attachments service.world.observations).Perm
    (held service ++ forgotten)
  detached : detachments service.world.observations = []

/-! ## Attaching the sources of an event -/

section Sources

variable {plugins : Plugins L τ}
variable {script rest : List Entry}
variable {service after : ServiceImpl (Observed τ)}

/-- What stands behind a source that cannot be attached is not looked at. -/
theorem attachSources_append_error
    {before : List EventSourceConfig}
    (sources : List EventSourceConfig)
    {attached : List EventSourceBinding}
    {error : Error}
    (done : attachSources (observe plugins) before attached script service =
      .done (.error error) rest after) :
    attachSources (observe plugins) (before ++ sources) attached script service =
      .done (.error error) rest after := by
  induction before generalizing attached script service with
  | nil => cases done
  | cons source before inductionHypothesis =>
      rw [attachSources_cons] at done
      obtain ⟨result, script', between, first, others⟩ := done_of_bind done
      rw [List.cons_append, attachSources_cons, bind_of_done first]
      cases result with
      | error failure => exact others
      | ok binding => exact inductionHypothesis others

/-- Where `addEvent` comes to a source that it cannot attach, the sources before
it have been attached. -/
theorem exists_of_attachSources_error
    {sources : List EventSourceConfig}
    {attached : List EventSourceBinding}
    {error : Error}
    (done : attachSources (observe plugins) sources attached script service =
      .done (.error error) rest after) :
    ∃ before source others gained world,
      sources = before ++ source :: others ∧
      gained.length = before.length ∧
      after = { service with world := service.world.gain gained world } ∧
      (attachSources (observe plugins) before attached script service).value =
        some (.ok (attached ++ gained)) ∧
      (attachSources (observe plugins) (before ++ [source]) attached script
        service).value = some (.error error) := by
  induction sources generalizing attached script service with
  | nil => cases done
  | cons source sources inductionHypothesis =>
      rw [attachSources_cons] at done
      obtain ⟨result, script', between, first, others⟩ := done_of_bind done
      have valid : wp (fun _ _ => True) (attachSource (observe plugins) source)
          _ service := attachSource_observed source fun _ _ => trivial
      have known := valid script
      rw [first] at known
      cases result with
      | error failure =>
          obtain ⟨world, rfl⟩ := known
          cases others
          refine ⟨[], source, sources, [], world, rfl, rfl, rfl, ?_, ?_⟩
          · rw [List.append_nil]
            rfl
          · rw [List.nil_append, attachSources_cons, bind_of_done first]
            rfl
      | ok binding =>
          obtain ⟨world, rfl⟩ := known
          obtain ⟨before, last, behind, gained, later, rfl, length, rfl, was,
            failed⟩ := inductionHypothesis others
          refine ⟨source :: before, last, behind, binding :: gained, later, rfl,
            congrArg (· + 1) length, ?_, ?_, ?_⟩
          · rw [Observed.gain_gain]
            rfl
          · rw [attachSources_cons, bind_of_done first]
            simpa using was
          · rw [List.cons_append, attachSources_cons, bind_of_done first]
            exact failed

/-- If `addEvent` can attach all sources, it does not fail late. -/
theorem not_failsLate_of_ok
    {config : EventConfig}
    {bindings : List EventSourceBinding}
    (done : attachSources (observe plugins) config.sources [] script service =
      .done (.ok bindings) rest after) :
    ¬FailsLate (observe plugins) config script service := by
  rintro ⟨before, source, others, split, -, -, error, failed⟩
  obtain ⟨rest', after', failed⟩ := Outcome.eq_done_of_value failed
  have same : config.sources = (before ++ [source]) ++ others := by
    simpa using split
  rw [same, attachSources_append_error others failed] at done
  cases done

/-- If `addEvent` fails, it fails late if it has attached something. -/
theorem exists_gained_of_error
    {config : EventConfig}
    {error : Error}
    (done : attachSources (observe plugins) config.sources [] script service =
      .done (.error error) rest after) :
    ∃ gained world,
      after = { service with world := service.world.gain gained world } ∧
        (gained = [] ↔ ¬FailsLate (observe plugins) config script service) := by
  obtain ⟨before, source, others, gained, world, split, length, same, was,
    failed⟩ := exists_of_attachSources_error done
  refine ⟨gained, world, same, ?_, ?_⟩
  · rintro rfl ⟨before', source', others', split', nonempty, ⟨attached, was'⟩, -⟩
    obtain rfl : before = [] := List.length_eq_zero_iff.mp length.symm
    obtain ⟨first, more, rfl⟩ := List.exists_cons_of_ne_nil nonempty
    -- The source that fails is the first one of both.
    obtain rfl : source = first := by
      rw [split] at split'
      exact (List.cons.inj split').1
    obtain ⟨rest', after', failed⟩ := Outcome.eq_done_of_value failed
    obtain ⟨rest'', after'', was'⟩ := Outcome.eq_done_of_value was'
    rw [List.nil_append] at failed
    rw [← List.singleton_append, attachSources_append_error more failed] at was'
    cases was'
  · intro early
    by_contra some
    refine early ⟨before, source, others, split, ?_, ⟨_, was⟩, _, failed⟩
    rintro rfl
    exact some (List.length_eq_zero_iff.mp length)

end Sources

/-! ## Setup -/

section Calls

variable [World τ]
variable {plugins : Plugins L τ}
variable {script rest : List Entry}
variable {service after : ServiceImpl (Observed τ)}
variable {forgotten : List Attachment}

omit [World τ] in
theorem held_eq (service : ServiceImpl τ) :
    held service =
      (service.static.flatMap fun binding =>
        binding.2.map Attachment.source) ++
        service.targets.map Attachment.output := by
  simp [held, static, List.flatMap_map]

/-- What a call of `addEvent` leaves behind. -/
theorem addEvent_books
    {config : EventConfig}
    {rc : ReturnCode}
    (books : Books forgotten service)
    (done : addEvent (observe plugins) config script service =
      .done rc rest after) :
    ∃ more, Books (forgotten ++ more) after ∧
      (more = [] ↔ ¬FailsLate (observe plugins) config script service) := by
  obtain ⟨result, script', between, attached, tail⟩ := done_of_bind done
  cases result with
  | error failure =>
      cases tail
      obtain ⟨gained, world, rfl, late⟩ := exists_gained_of_error attached
      refine ⟨gained.map Attachment.source, ⟨?_, ?_⟩, ?_⟩
      · rw [Observed.attachments_gain, ← List.append_assoc]
        exact books.attached.append_right _
      · rw [Observed.detachments_gain, books.detached]
      · rw [List.map_eq_nil_iff]
        exact late
  | ok sources =>
      have valid : wp (fun _ _ => True)
          (attachSources (observe plugins) config.sources []) _ service :=
        attachSources_observed config.sources [] fun _ _ _ => trivial
      have known := valid script
      rw [attached] at known
      obtain ⟨gained, world, rfl, same, -⟩ := known
      obtain rfl : sources = gained := same
      let keep : ServiceProc L (Observed τ) ReturnCode := do
        let now ← monotonicNow .addClock
        Proc.modify (onSchedule (adopt config sources now))
        return ReturnCode.success
      change keep script' _ = _ at tail
      have adopted : wp (fun _ _ => True) keep
          (fun rc after => rc = ReturnCode.success ∧
            after.static = service.static ++ [(config.eventName, sources)] ∧
            after.targets = service.targets ∧
            after.world.observations =
              (service.world.gain sources world).observations)
          { service with world := service.world.gain sources world } :=
        wp_bind (wp_call trivial fun entry => wp_bind (wp_modify (wp_pure
          ⟨rfl, static_adopt _ _ _ _, rfl, rfl⟩)))
      have final := adopted script'
      rw [tail] at final
      obtain ⟨rfl, bindings, targets, observations⟩ := final
      refine ⟨[], ⟨?_, ?_⟩, iff_of_true rfl (not_failsLate_of_ok attached)⟩
      · rw [observations, Observed.attachments_gain, held_eq, bindings, targets,
          List.append_nil]
        have before := books.attached
        rw [held_eq] at before
        refine (before.append_right _).trans ?_
        simp only [List.flatMap_append, List.flatMap_singleton, List.append_assoc]
        apply List.Perm.append_left _
        rw [← List.append_assoc]
        exact List.perm_append_comm
      · rw [observations, Observed.detachments_gain, books.detached]

omit [World τ] in
theorem Books.congr
    {service' : ServiceImpl (Observed τ)}
    (books : Books forgotten service)
    (attached : attachments service'.world.observations =
      attachments service.world.observations)
    (detached : detachments service'.world.observations =
      detachments service.world.observations)
    (bindings : service'.static = service.static)
    (targets : service'.targets = service.targets) :
    Books forgotten service' := by
  refine ⟨?_, detached.trans books.detached⟩
  rw [attached, held_eq, bindings, targets, ← held_eq]
  exact books.attached

omit [World τ] in
/-- `addTarget` forgets nothing. -/
theorem addTarget_books
    (config : TargetConfig)
    (books : Books forgotten service) :
    wp (fun _ state => detachments state.world.observations = [])
      (addTarget (observe plugins) config)
      (fun _ after => Books forgotten after) service := by
  apply wp_mono (addTarget_observed config fun _ _ => books.detached)
    (fun _ _ known => known)
  intro rc after known
  cases rc with
  | error failure =>
      obtain ⟨world, rfl⟩ := known
      exact books.congr rfl rfl rfl rfl
  | ok _ =>
      obtain ⟨target, world, rfl⟩ := known
      refine ⟨?_, ?_⟩
      · rw [Observed.note, attachments_append, held, List.map_append,
          ← List.append_assoc]
        refine (books.attached.append_right _).trans ?_
        simp only [held, List.append_assoc]
        exact ((List.perm_append_comm).append_left _).append_left _
      · rw [Observed.note, detachments_append, books.detached]
        rfl

omit [World τ] in
theorem attachSources_undetached
    (sources : List EventSourceConfig)
    (undetached : detachments service.world.observations = []) :
    wp (fun _ state => detachments state.world.observations = [])
      (attachSources (observe plugins) sources [])
      (fun _ after => detachments after.world.observations = []) service := by
  refine wp_mono (attachSources_observed sources [] ?_) (fun _ _ known => known) ?_
  · intro point gained world
    rw [Observed.detachments_gain, undetached]
  · rintro result _ ⟨gained, world, rfl, -⟩
    rw [Observed.detachments_gain, undetached]

/-- Nothing is detached while the service is set up. -/
theorem setUp_undetached
    (calls : List Setup)
    (undetached : detachments service.world.observations = []) :
    wp (fun _ state => detachments state.world.observations = [])
      (setUp (observe plugins) calls)
      (fun _ after => detachments after.world.observations = []) service := by
  refine wp_forM (fun call _ state kept => ?_) undetached
  cases call with
  | addEvent config =>
      refine wp_bind (wp_seq (attachSources_undetached config.sources kept) ?_)
      intro result after held
      cases result with
      | error failure => exact wp_pure (wp_pure held)
      | ok sources =>
          exact wp_bind (wp_call held fun entry =>
            wp_bind (wp_modify (wp_pure (wp_pure held))))
  | addTarget config =>
      apply wp_seq (addTarget_observed config fun _ _ => kept)
      intro rc after known
      cases rc with
      | error failure =>
          obtain ⟨world, rfl⟩ := known
          exact wp_pure kept
      | ok _ =>
          obtain ⟨target, world, rfl⟩ := known
          apply wp_pure
          rw [Observed.note, detachments_append, kept]
          rfl

theorem setUp_cons
    {call : Setup}
    {calls : List Setup}
    (done : setUp (observe plugins) (call :: calls) script service =
      .done () rest after) :
    ∃ rest' between,
      setUp (observe plugins) [call] script service = .done () rest' between ∧
        setUp (observe plugins) calls rest' between = .done () rest after := by
  obtain ⟨_, rest', between, first, others⟩ := done_of_bind done
  exact ⟨rest', between, bind_of_done first _, others⟩

/-- What one call leaves behind. -/
theorem call_books
    {call : Setup}
    (books : Books forgotten service)
    (done : setUp (observe plugins) [call] script service = .done () rest after) :
    ∃ more, Books (forgotten ++ more) after ∧
      (more = [] ↔ ∀ config, call = .addEvent config →
        ¬FailsLate (observe plugins) config script service) := by
  obtain ⟨_, rest', between, first, last⟩ := done_of_bind done
  cases last
  cases call with
  | addEvent config =>
      obtain ⟨rc, rest'', between', added, last⟩ := done_of_bind first
      cases last
      obtain ⟨more, kept, late⟩ := addEvent_books books added
      refine ⟨more, kept, late.trans ?_⟩
      simp
  | addTarget config =>
      obtain ⟨rc, rest'', between', added, last⟩ := done_of_bind first
      cases last
      have kept := (addTarget_books config books).ends ⟨script, rest, added⟩
      exact ⟨[], by simpa using kept, by simp⟩

/-- What all calls leave behind. -/
theorem setUp_books
    (calls : List Setup)
    (books : Books forgotten service)
    (done : setUp (observe plugins) calls script service = .done () rest after) :
    ∃ more, Books (forgotten ++ more) after ∧
      (more = [] ↔ NeverFailsLate (observe plugins) calls script service) := by
  induction calls generalizing script service forgotten with
  | nil =>
      cases done
      exact ⟨[], by simpa using books, by simp [NeverFailsLate]⟩
  | cons call calls inductionHypothesis =>
      obtain ⟨rest', between, first, others⟩ := setUp_cons done
      obtain ⟨more, kept, late⟩ := call_books books first
      obtain ⟨later, still, never⟩ := inductionHypothesis kept others
      refine ⟨more ++ later, by rwa [← List.append_assoc], ?_⟩
      rw [List.append_eq_nil_iff, late, never, NeverFailsLate]
      refine and_congr_right fun _ => ⟨fun never rest'' after'' again => ?_,
        fun never => never rest' between first⟩
      rw [first] at again
      cases again
      exact never

/-- Nothing is detached while the service is set up, and the books are kept. -/
theorem setUp_valid
    (calls : List Setup)
    (books : Books forgotten service) :
    wp (fun _ state => detachments state.world.observations = [])
      (setUp (observe plugins) calls)
      (fun _ after => ∃ forgotten, Books forgotten after) service := by
  intro script
  have valid : wp (fun _ state => detachments state.world.observations = [])
      (setUp (observe plugins) calls) _ service :=
    setUp_undetached calls books.detached
  have undetached := valid script
  cases outcome : setUp (observe plugins) calls script service with
  | done _ rest after =>
      obtain ⟨more, kept, -⟩ := setUp_books calls books outcome
      exact ⟨_, kept⟩
  | cut point state =>
      rw [outcome] at undetached
      exact undetached

/-! ## The main loop -/

section Loop

variable (plugins)

omit [World τ] in
theorem observing_preserves_books (process : Proc Entry L τ α) :
    Preserves (fun _ => True) (Books forgotten) (onWorld (observing process)) :=
  fun _ books => wp_zoom (wp_observing
    (fun _ _ => ⟨trivial, books.congr rfl rfl rfl rfl⟩)
    fun _ _ => books.congr rfl rfl rfl rfl)

omit [World τ] in
/-- An observation of a call that neither attaches nor detaches. -/
theorem Books.note
    {observation : Observation}
    (books : Books forgotten service)
    (notAttached : attachments [observation] = [])
    (notDetached : detachments [observation] = [])
    (world : τ) :
    Books forgotten
      { service with
        world := Observed.note observation
          { service.world with world := world } } := by
  refine books.congr ?_ ?_ rfl rfl
  · rw [Observed.note, attachments_append, notAttached]
    exact List.append_nil _
  · rw [Observed.note, detachments_append, notDetached]
    exact List.append_nil _

omit [World τ] in
theorem observeNextEvent_preserves_books
    (source : EventSourceBinding)
    (process : Proc Entry L τ (Except Error Bytes)) :
    Preserves (fun _ => True) (Books forgotten)
      (onWorld (observeNextEvent source process)) :=
  fun _ books => wp_zoom (wp_observeNextEvent
    (fun _ _ => ⟨trivial, books.congr rfl rfl rfl rfl⟩)
    (fun _ _ => books.congr rfl rfl rfl rfl)
    fun _ world => books.note rfl rfl world)

omit [World τ] in
theorem observeEmit_preserves_books
    (target : TargetBinding)
    (event : EventData)
    (process : Proc Entry L τ ReturnCode) :
    Preserves (fun _ => True) (Books forgotten)
      (onWorld (observeEmit target event process)) :=
  fun _ books => wp_zoom (wp_observeEmit
    (fun _ _ => ⟨trivial, books.congr rfl rfl rfl rfl⟩)
    fun _ world => books.note rfl rfl world)

theorem processCalls_preserves_books :
    ProcessCalls (observe plugins)
      (Preserves (fun _ => True) (Books forgotten)) where
  toComposes := Preserves.composes
  wallClock := Preserves.call trivial
    fun _ _ books => books.congr rfl rfl rfl rfl
  getNextEvent := fun _ _ => observeNextEvent_preserves_books _ _
  hasPendingEvent := fun _ _ => observing_preserves_books _
  emitEvent := fun _ _ _ => Preserves.bind
    (observeEmit_preserves_books _ _ _) fun _ => Preserves.bind
      (Preserves.modify fun _ books => books.congr rfl rfl rfl rfl)
      fun _ => Preserves.pure _
  round := Preserves.iterate trivial
    fun _ _ books => books.congr rfl rfl rfl rfl

/-- The main loop leaves alone what is attached. -/
theorem carriesBooks :
    Carried (observe plugins)
      (fun _ state => detachments state.world.observations = [])
      (Books forgotten) where
  atPoint := fun _ _ _ books => books.detached
  react := fun _ _ books => books.congr rfl rfl rfl rfl
  clock := fun _ _ books => books.congr rfl rfl rfl rfl
  schedule := fun _ _ same books => books.congr rfl rfl same rfl
  processEvent := fun job service books =>
    wp_mono ((processCalls_preserves_books plugins).processEvent job service
      books)
      (fun _ _ kept => kept.2.detached) fun _ _ kept => kept

end Loop

/-! ## Teardown -/

/-- The service has detached a part of what it held. -/
structure Dismantling
    (forgotten left : List Attachment)
    (service : ServiceImpl (Observed τ)) : Prop where
  attached : (attachments service.world.observations).Perm
    (detachments service.world.observations ++ left ++ forgotten)
  ordered : NoStrayDetach service.world.observations

omit [World τ] in
theorem noStrayDetach_of_undetached
    {observations : List Observation}
    (undetached : detachments observations = []) :
    NoStrayDetach observations := by
  rintro before ⟨after, rfl⟩
  rw [detachments_append, List.append_eq_nil_iff] at undetached
  rw [undetached.1]
  exact List.nil_subperm

omit [World τ] in
/-- A note that is in order keeps the list in order. -/
theorem NoStrayDetach.note
    {observations : List Observation}
    {observation : Observation}
    (ordered : NoStrayDetach observations)
    (last : (detachments (observations ++ [observation])).Subperm
      (attachments (observations ++ [observation]))) :
    NoStrayDetach (observations ++ [observation]) := by
  intro before isPrefix
  rcases List.prefix_concat_iff.mp isPrefix with rfl | early
  · exact last
  · exact ordered before early

omit [World τ] in
/-- Detaching the next one of what is left. -/
theorem Dismantling.detach
    {attachment : Attachment}
    {left : List Attachment}
    (dismantling : Dismantling forgotten (attachment :: left) service)
    (process : Proc Entry L τ Unit) :
    wp (fun _ state => NoStrayDetach state.world.observations)
      (onWorld (observeDetach attachment process))
      (fun _ after => Dismantling forgotten left after) service := by
  have noted : attachments (service.world.observations ++
      [.detached attachment]) = attachments service.world.observations := by
    rw [attachments_append]
    exact List.append_nil _
  have gone : detachments (service.world.observations ++
      [.detached attachment]) =
      detachments service.world.observations ++ [attachment] := by
    rw [detachments_append]
    rfl
  have attached : (attachments (service.world.observations ++
      [.detached attachment])).Perm
      (detachments (service.world.observations ++ [.detached attachment]) ++
        left ++ forgotten) := by
    rw [noted, gone]
    simpa using dismantling.attached
  have ordered : NoStrayDetach (service.world.observations ++
      [.detached attachment]) := by
    refine dismantling.ordered.note (List.Subperm.trans ?_ attached.symm.subperm)
    rw [List.append_assoc]
    exact (List.sublist_append_left _ _).subperm
  exact wp_zoom (wp_observeDetach (fun _ _ => ordered)
    fun _ => ⟨attached, ordered⟩)

omit [World τ] in
/-- The destructor detaches everything that the service holds. -/
theorem destroy_dismantles
    (books : Books forgotten service) :
    wp (fun _ state => NoStrayDetach state.world.observations)
      (destroy (observe plugins))
      (fun _ after => Dismantling forgotten [] after) service := by
  let ofBindings (bindings : List EventBinding) : List Attachment :=
    bindings.flatMap fun binding => binding.sources.map Attachment.source
  let ofTargets : List Attachment := service.targets.map Attachment.output
  refine wp_bind (wp_get ?_)
  have before : Dismantling forgotten
      (ofBindings service.eventBindings ++ ofTargets) service := by
    refine ⟨?_, noStrayDetach_of_undetached books.detached⟩
    rw [books.detached]
    exact books.attached
  refine wp_seq (wp_forM_left (fun left state =>
    Dismantling forgotten (ofBindings left ++ ofTargets) state) ?_ before) ?_
  · intro binding left state kept
    apply wp_forM_left (fun sources state => Dismantling forgotten
      (sources.map Attachment.source ++ (ofBindings left ++ ofTargets)) state)
      (fun source _ _ held => held.detach _)
    rw [← List.append_assoc]
    exact kept
  · intro _ after kept
    refine wp_mono (wp_forM_left (fun targets state => Dismantling forgotten
      (targets.map Attachment.output) state) (fun target _ _ held =>
        held.detach _) kept) (fun _ _ known => known) fun _ _ held => held

/-! ## Life of a service -/

omit [World τ] in
/-- Everything that has been attached has been detached, unless something has
been forgotten. -/
theorem Dismantling.balanced_iff
    (dismantling : Dismantling forgotten [] service) :
    (attachments service.world.observations).Perm
      (detachments service.world.observations) ↔ forgotten = [] := by
  have attached := dismantling.attached
  rw [List.append_nil] at attached
  constructor
  · intro balanced
    have equal := (attached.symm.trans balanced).length_eq
    rw [List.length_append] at equal
    exact List.length_eq_zero_iff.mp (by omega)
  · rintro rfl
    simpa using attached

/-- Nothing is detached that has not been attached, and when a service has been
set up, run and destroyed everything that has been attached has been detached,
for exactly those runs in which no call of `addEvent` fails behind a source that
it has attached. A call that fails leaves the service as it was, and leaves
nothing attached unless it fails in this way. -/
theorem serve_balanced
    (plugins : Plugins L τ)
    (calls : List Setup)
    (world : τ) :
    (∀ point service,
      Reaches (serve (observe plugins) calls)
        { world := { world := world } } point service →
      NoStrayDetach service.world.observations) ∧
    (∀ script rc rest service,
      serve (observe plugins) calls script { world := { world := world } } =
        .done rc rest service →
      NoStrayDetach service.world.observations ∧
        ((attachments service.world.observations).Perm
            (detachments service.world.observations) ↔
          NeverFailsLate (observe plugins) calls script
            { world := { world := world } })) ∧
    (∀ config script error rest (service after : ServiceImpl (Observed τ)),
      addEvent (observe plugins) config script service =
        .done (.error error) rest after →
      after.toSchedule = service.toSchedule ∧ after.targets = service.targets ∧
        (after.world.observations = service.world.observations ↔
          ¬FailsLate (observe plugins) config script service)) ∧
    ∀ config error (service after : ServiceImpl (Observed τ)),
      Ends (addTarget (observe plugins) config) service (.error error) after →
      after.toSchedule = service.toSchedule ∧ after.targets = service.targets ∧
        after.world.observations = service.world.observations := by
  have books : Books [] ({ world := { world := world } } :
      ServiceImpl (Observed τ)) := ⟨List.Perm.refl _, rfl⟩
  refine ⟨?_, ?_, ?_, ?_⟩
  · intro point service reached
    have valid : wp (fun _ state => NoStrayDetach state.world.observations)
        (serve (observe plugins) calls) (fun _ _ => True)
        ({ world := { world := world } } : ServiceImpl (Observed τ)) := by
      apply wp_seq (wp_mono (setUp_valid calls books)
        (fun _ _ => noStrayDetach_of_undetached) fun _ _ known => known)
      rintro _ ready ⟨forgotten, kept⟩
      apply wp_seq (wp_mono ((carriesBooks plugins).run kept)
        (fun _ _ => noStrayDetach_of_undetached) fun _ _ known => known)
      intro rc stopped held
      exact wp_seq (destroy_dismantles held) fun _ _ _ => wp_pure trivial
    exact valid.reaches reached
  · intro script rc rest service served
    obtain ⟨_, script', ready, prepared, served⟩ := done_of_bind served
    obtain ⟨_, script'', stopped, ran, served⟩ := done_of_bind served
    obtain ⟨_, rest', after, destroyed, last⟩ := done_of_bind served
    cases last
    obtain ⟨forgotten, kept, never⟩ := setUp_books calls books prepared
    have held := ((carriesBooks plugins).run kept).ends ⟨_, _, ran⟩
    have dismantling := (destroy_dismantles held).ends ⟨_, _, destroyed⟩
    exact ⟨dismantling.ordered, dismantling.balanced_iff.trans never⟩
  · intro config script error rest service after failed
    obtain ⟨result, script', between, attached, last⟩ := done_of_bind failed
    cases result with
    | ok sources => cases script' <;> cases last
    | error failure =>
        cases last
        obtain ⟨gained, world, rfl, late⟩ := exists_gained_of_error attached
        refine ⟨rfl, rfl, ?_⟩
        rw [← late]
        simp [Observed.gain]
  · intro config error service after ended
    have valid : wp (fun _ _ => True) (addTarget (observe plugins) config) _
        service := addTarget_observed config fun _ _ => trivial
    obtain ⟨later, rfl⟩ := valid.ends ended
    exact ⟨rfl, rfl, rfl⟩

end Calls

/-- An event with two sources. -/
def twoSources : List Setup :=
  [.addEvent ⟨bytes "load", 1000000, [⟨[], [], ⟨[]⟩⟩, ⟨[], [], ⟨[]⟩⟩]⟩]

/-- The first source is attached, and the second one cannot be. -/
def secondSourceFails : List Entry :=
  [{}, { result := 5 }, {}, { result := -1 }]

/-- The first source stays attached for ever. -/
theorem serve_not_balanced :
    ∃ service, Ends (serve (observe (foreignPlugins id)) twoSources)
        { world := { world := () } } ReturnCode.success service ∧
      attachments service.world.observations = [.source ⟨8192, 5⟩] ∧
      detachments service.world.observations = [] :=
  ⟨_, ends_of_value _ _ secondSourceFails (by decide), by decide, by decide⟩

end Service
end EvCollect
