import EvCollect.Daemon.Ledger
import EvCollect.Logfile.Plugin
import EvCollect.Service.Carry

/-!
# The service keeps the books balanced

A service whose plugin map has the logfile plugin beside any other plugins, with
one logfile source that is the last source of its binding. Whatever the targets
and the other sources do, the event of a line is owed only inside of the call of
`processEvent` that has taken the line.
-/

namespace EvCollect
namespace Daemon

open Process Service Logfile

variable {L ρ : Type} [World ρ]

/-- The ledger of a service. -/
def ledgerOf (service : ServiceImpl (Reader × ρ)) : Ledger :=
  { targets := service.targets.length
    offered := service.offered
    reader := service.world.1 }

/-- The logfile source can only be the last one of a binding, and the events of
that binding have a given name. -/
def FitsLogfile
    (name : Bytes)
    (binding : Bytes × List EventSourceBinding) : Prop :=
  (∀ source ∈ binding.2.dropLast, source.plugin ≠ 0) ∧
    ((∃ source ∈ binding.2, source.plugin = 0) → binding.1 = name)

/-- No event is owed. -/
structure Standing
    (name : Bytes)
    (handled : Lines)
    (service : ServiceImpl (Reader × ρ)) : Prop where
  bindings : ∀ binding ∈ service.static, FitsLogfile name binding
  balanced : (ledgerOf service).Balanced name handled

/-- What holds at the program points: inside of plugins an event may be owed. -/
def BooksAt
    (L : Type)
    (name : Bytes)
    (handled : Lines) :
    Point (LogPoint ⊕ L) → ServiceImpl (Reader × ρ) → Prop
  | .plugin _, service => (ledgerOf service).Pending name handled
  | _, service => (ledgerOf service).Balanced name handled

variable {name : Bytes}
variable {handled : Lines}
variable {setup : PluginSetup}
variable {others : Plugins L ρ}
variable {service : ServiceImpl (Reader × ρ)}

/-! ## Calls of plugins -/

omit [World ρ] in
/-- A function of another plugin is run: what is stable of the reader holds. -/
theorem wp_elsewhere
    {inv : Point (LogPoint ⊕ L) → ServiceImpl (Reader × ρ) → Prop}
    {post : α → ServiceImpl (Reader × ρ) → Prop}
    (holds : Reader → Prop)
    (process : Proc Entry L ρ α)
    (stable : ∀ entry reader, holds reader → holds (World.react entry reader))
    (before : holds service.world.1)
    (atPoint : ∀ point reader other, holds reader →
      inv (.plugin point) { service with world := (reader, other) })
    (atEnd : ∀ value reader other, holds reader →
      post value { service with world := (reader, other) }) :
    wp inv (onWorld (elsewhere process)) post service :=
  wp_zoom (wp_onSecond holds (wp_trivial process service.world.2) stable before
    (fun point part other _ kept => atPoint (.inr point) other part kept)
    fun value part other _ kept => atEnd value other part kept)

/-- A function of the reader is run. -/
theorem wp_onReader
    {inv : Point (LogPoint ⊕ L) → ServiceImpl (Reader × ρ) → Prop}
    {post : α → ServiceImpl (Reader × ρ) → Prop}
    {readerInv : LogPoint → Reader → Prop}
    {readerPost : α → Reader → Prop}
    {process : ReaderProc α}
    (valid : wp readerInv process readerPost service.world.1)
    (atPoint : ∀ point reader other, readerInv point reader →
      inv (.plugin (.inl point)) { service with world := (reader, other) })
    (atEnd : ∀ value reader other, readerPost value reader →
      post value { service with world := (reader, other) }) :
    wp inv (onWorld (onReader process)) post service :=
  wp_zoom (wp_onFirst (fun _ => True) valid (fun _ _ _ => trivial) trivial
    (fun point part other kept _ => atPoint point part other kept)
    fun value part other kept _ => atEnd value part other kept)

omit [World ρ] in
/-- Other plugins leave the books as they are. -/
theorem elsewhere_balanced
    (process : Proc Entry L ρ α)
    (balanced : (ledgerOf service).Balanced name handled) :
    wp (BooksAt L name handled) (onWorld (elsewhere process))
      (fun _ after => ∃ world, after = { service with world := world } ∧
        (ledgerOf after).Balanced name handled) service :=
  wp_elsewhere
    (fun reader => ({ ledgerOf service with reader := reader } :
      Ledger).Balanced name handled) process
    (fun entry _ kept => kept.react entry) balanced
    (fun _ _ _ kept => kept.pending) fun _ _ _ kept => ⟨_, rfl, kept⟩

/-- A poll of the reader: the event that it returns is owed then. -/
theorem getNextEvent_owes
    (balanced : (ledgerOf service).Balanced name handled) :
    wp (BooksAt L name handled) (onWorld (onReader (getNextEvent [])))
      (fun result after => ∃ world, after = { service with world := world } ∧
        match result with
        | .error _ => (ledgerOf after).Balanced name handled
        | .ok event => (ledgerOf after).Owes name handled event) service := by
  obtain ⟨start, position, tracked⟩ := balanced.started
  refine wp_onReader (wp_and (getNextEvent_tracked tracked [])
    (getNextEvent_polls balanced.settled)) ?_ ?_
  · rintro point reader other ⟨held, polling⟩
    exact balanced.polling polling ⟨start, position, held⟩
  · rintro result reader other ⟨held, polling, settled, value⟩
    refine ⟨_, rfl, ?_⟩
    cases result with
    | error failure =>
        have emitted := balanced.emitted.polling polling
        refine ⟨⟨start, position, held⟩, settled, ?_⟩
        change reader.history.taken = (ledgerOf service).reader.history.taken
          at value
        change Ledger.Emitted _ name reader.history.taken.length
        rw [value]
        exact emitted
    | ok event =>
        exact balanced.polled polling ⟨start, position, held⟩ settled value

/-- Asking the reader whether it has more changes nothing that matters. -/
theorem hasNextLine_owes
    {event : Bytes}
    (owes : (ledgerOf service).Owes name handled event) :
    wp (BooksAt L name handled) (onWorld (onReader hasNextLine))
      (fun _ after => ∃ world, after = { service with world := world } ∧
        (ledgerOf after).Owes name handled event) service := by
  obtain ⟨start, position, tracked⟩ := owes.started
  exact wp_onReader (wp_and (hasNextLine_tracked tracked)
    (hasNextLine_readsOnly (fun aside => aside = service.world.1.aside)
      service.world.1 rfl))
    (fun _ _ _ ⟨held, _, same⟩ =>
      (owes.setReader same ⟨start, position, held⟩).pending)
    fun _ _ _ ⟨held, same⟩ =>
      ⟨_, rfl, owes.setReader same ⟨start, position, held⟩⟩

/-! ## One round of `processEvent` -/

/-- Behind the poll of all sources the merged event is owed, if one of them is
the log reader. -/
theorem pollSources_owes
    (sources : List EventSourceBinding)
    (merged : Bytes)
    (cont : Bool)
    (last : ∀ source ∈ sources.dropLast, source.plugin ≠ 0)
    (balanced : (ledgerOf service).Balanced name handled) :
    wp (BooksAt L name handled)
      (pollSources (withLogfile setup others) sources merged cont)
      (fun result after => ∃ world, after = { service with world := world } ∧
        match result with
        | .error _ => (ledgerOf after).Balanced name handled
        | .ok (merged, _) =>
            (ledgerOf after).Balanced name handled ∨
              (∃ source ∈ sources, source.plugin = 0) ∧
                (ledgerOf after).Owes name handled merged) service := by
  induction sources generalizing merged cont service with
  | nil => exact wp_pure ⟨_, rfl, Or.inl balanced⟩
  | cons source rest inductionHypothesis =>
      obtain ⟨plugin, userdata⟩ := source
      cases plugin with
      | zero =>
          have isLast : rest = [] := by
            by_contra more
            refine last ⟨0, userdata⟩ ?_ rfl
            rw [List.dropLast_cons_of_ne_nil more]
            exact List.mem_cons_self
          subst isLast
          apply wp_seq (getNextEvent_owes balanced)
          rintro result _ ⟨world, rfl, value⟩
          cases result with
          | error failure => exact wp_pure ⟨_, rfl, value⟩
          | ok event =>
              apply wp_seq (hasNextLine_owes value)
              rintro pending _ ⟨later, rfl, owes⟩
              refine wp_pure ⟨later, rfl, Or.inr
                ⟨⟨_, List.mem_singleton_self _, rfl⟩, ?_⟩⟩
              unfold mergeEvents
              rw [ite_self]
              exact owes
      | succ ref =>
          have lastRest : ∀ source ∈ rest.dropLast, source.plugin ≠ 0 := by
            intro source present
            apply last source
            cases rest with
            | nil => cases present
            | cons next rest => exact List.mem_cons_of_mem _ present
          apply wp_seq (elsewhere_balanced _ balanced)
          rintro result _ ⟨world, rfl, kept⟩
          cases result with
          | error failure => exact wp_pure ⟨_, rfl, kept⟩
          | ok event =>
              apply wp_seq (elsewhere_balanced _ kept)
              rintro pending _ ⟨later, rfl, held⟩
              apply wp_mono (inductionHypothesis _ _ lastRest held)
                (fun _ _ known => known)
              rintro polled _ ⟨last, rfl, value⟩
              refine ⟨last, rfl, ?_⟩
              cases polled with
              | error failure => exact value
              | ok outcome =>
                  refine value.imp_right fun owes => ⟨?_, owes.2⟩
                  obtain ⟨source, present, isReader⟩ := owes.1
                  exact ⟨source, List.mem_cons_of_mem _ present, isReader⟩

omit [World ρ] in
/-- Delivering an event gives it to the targets one after the other. -/
theorem deliverFrom_offers
    {inv : Point (LogPoint ⊕ L) → ServiceImpl (Reader × ρ) → Prop}
    {plugins : Plugins (LogPoint ⊕ L) (Reader × ρ)}
    (holds : Reader → Prop)
    (event : EventData)
    (targets : List TargetBinding)
    (position : Nat)
    (aggregate : ReturnCode)
    (outputs : ∀ ref, ∃ plugin : OutputPlugin L ρ,
      plugins.output ref = besideOutput plugin)
    (stable : ∀ entry reader, holds reader → holds (World.react entry reader))
    (before : holds service.world.1)
    (atPoint : ∀ point more reader other, holds reader →
      inv (.plugin point) { service with
        offered := service.offered ++ more, world := (reader, other) }) :
    wp inv (deliverFrom plugins event position targets aggregate)
      (fun _ after => ∃ world, after = { service with
          offered := service.offered ++
            (List.range' position targets.length).map fun target =>
              (target, event)
          world := world } ∧ holds world.1) service := by
  induction targets generalizing position aggregate service with
  | nil =>
      refine wp_pure ⟨service.world, ?_, before⟩
      simp
  | cons target rest inductionHypothesis =>
      obtain ⟨plugin, isBeside⟩ := outputs target.plugin
      unfold deliverFrom
      rw [isBeside]
      refine wp_bind (wp_elsewhere holds _ stable before ?_ ?_)
      · intro point reader other kept
        have known := atPoint point [] reader other kept
        rwa [List.append_nil] at known
      · intro rc reader other kept
        refine wp_bind (wp_modify (wp_mono (inductionHypothesis _ _ kept ?_)
          (fun _ _ known => known) ?_))
        · intro point more reader' other' held
          have known := atPoint point ((position, event) :: more) reader'
            other' held
          change inv _ { service with
            offered := service.offered ++ [(position, event)] ++ more
            world := (reader', other') }
          rwa [List.append_assoc]
        · rintro _ _ ⟨world, rfl, held⟩
          refine ⟨world, ?_, held⟩
          simp [ServiceImpl.logOffer, List.range'_succ]

/-- Emitting what was merged: it is given to all targets, if it is not empty. -/
theorem emitMerged_offers
    {inv : Point (LogPoint ⊕ L) → ServiceImpl (Reader × ρ) → Prop}
    (holds : Reader → Prop)
    (job : Nat)
    (now : UInt64)
    (merged : Bytes)
    (stable : ∀ entry reader, holds reader → holds (World.react entry reader))
    (before : holds service.world.1)
    (atPoint : ∀ point more reader other, holds reader →
      inv (.plugin point) { service with
        offered := service.offered ++ more, world := (reader, other) }) :
    wp inv (emitMerged (withLogfile setup others) job now merged)
      (fun _ after => ∃ more world, after = { service with
          offered := service.offered ++ more, world := world } ∧
        holds world.1 ∧
        (merged ≠ [] → ∀ target < service.targets.length, ∃ event,
          (target, event) ∈ more ∧
            event.eventName = (service.binding job).eventName ∧
            event.eventData = merged)) service := by
  unfold emitMerged
  split
  next isEmpty =>
    refine wp_pure ⟨[], service.world, ?_, before, fun nonempty => ?_⟩
    · simp
    · exact absurd (List.isEmpty_iff.mp isEmpty) nonempty
  next =>
    refine wp_bind (wp_get (wp_bind (wp_get ?_)))
    apply wp_mono (deliverFrom_offers holds _ service.targets 0 _
      (fun ref => ⟨_, rfl⟩) stable before atPoint) (fun _ _ known => known)
    rintro rc _ ⟨world, rfl, held⟩
    refine ⟨_, world, rfl, held, fun _ target inside => ?_⟩
    refine ⟨_, List.mem_map_of_mem ?_, rfl, rfl⟩
    simpa [List.mem_range'_1] using inside

/-- A round of `processEvent` leaves the books balanced. -/
theorem processRound_balanced
    (job : Nat)
    (now : UInt64)
    (fits : FitsLogfile name
      ((service.binding job).eventName, (service.binding job).sources))
    (balanced : (ledgerOf service).Balanced name handled) :
    wp (BooksAt L name handled)
      (processRound (withLogfile setup others) job now)
      (fun _ after => after.toSchedule = service.toSchedule ∧
        (ledgerOf after).Balanced name handled) service := by
  refine wp_bind (wp_get ?_)
  refine wp_seq (pollSources_owes _ _ _ fits.1 balanced) ?_
  rintro polled _ ⟨world, rfl, value⟩
  cases polled with
  | error failure => exact wp_pure ⟨rfl, value⟩
  | ok outcome =>
      obtain ⟨merged, cont⟩ := outcome
      -- What comes behind the emission does not depend on what was owed.
      suffices emitted : wp (BooksAt L name handled)
          (emitMerged (withLogfile setup others) job now merged)
          (fun _ after => after.toSchedule = service.toSchedule ∧
            (ledgerOf after).Balanced name handled)
          { service with world := world } by
        refine wp_seq emitted fun rc after kept => ?_
        cases rc with
        | error failure => exact wp_pure kept
        | ok _ =>
            dsimp only
            split <;> exact wp_pure kept
      rcases value with kept | ⟨isReader, owes⟩
      · apply wp_mono (emitMerged_offers (fun reader =>
          ({ ledgerOf { service with world := world } with
            reader := reader } : Ledger).Balanced name handled) job now merged
          (fun entry _ held => held.react entry) kept
          (fun _ more _ _ held => (held.offer more).pending))
          (fun _ _ known => known)
        rintro rc _ ⟨more, later, rfl, held, _⟩
        exact ⟨rfl, held.offer more⟩
      · apply wp_mono (emitMerged_offers (fun reader =>
          ({ ledgerOf { service with world := world } with
            reader := reader } : Ledger).Owes name handled merged) job now
          merged (fun entry _ held => held.react entry) owes
          (fun _ more _ _ held => (held.offer more).pending))
          (fun _ _ known => known)
        rintro rc _ ⟨more, later, rfl, held, given⟩
        refine ⟨rfl, held.pay fun nonempty target inside => ?_⟩
        obtain ⟨event, present, sameName, sameData⟩ := given nonempty target inside
        rw [← sameData]
        apply List.mem_map_of_mem (List.mem_filter.mpr ⟨present, ?_⟩)
        have named : event.eventName = name := sameName.trans (fits.2 isReader)
        simp [named]

omit [World ρ] in
/-- A binding that is processed fits the logfile source. -/
theorem Standing.fits
    (standing : Standing name handled service)
    (job : Nat) :
    FitsLogfile name
      ((service.binding job).eventName, (service.binding job).sources) := by
  rcases service.toSchedule.binding_static job with present | none
  · exact standing.bindings _ present
  · rw [none]
    exact ⟨by simp, by simp⟩

/-- `processEvent` leaves the books balanced, whether it fails or not. -/
theorem processEvent_standing
    (job : Nat)
    (standing : Standing name handled service) :
    wp (BooksAt L name handled) (processEvent (withLogfile setup others) job)
      (fun _ after => Standing name handled after) service := by
  refine wp_bind (wp_get ?_)
  split
  · exact wp_pure standing
  refine wp_bind (wp_call standing.balanced fun entry => ?_)
  refine wp_iterate (fun _ state => Standing name handled state)
    ⟨standing.bindings, standing.balanced.react entry⟩
    (fun _ _ kept => kept.balanced) ?_
  intro _ state entry kept
  have reacted : Standing name handled (react entry state) :=
    ⟨kept.bindings, kept.balanced.react entry⟩
  apply wp_mono (processRound_balanced job _ (reacted.fits job)
    reacted.balanced) (fun _ _ known => known)
  rintro result after ⟨same, balanced⟩
  have standingAfter : Standing name handled after := by
    refine ⟨?_, balanced⟩
    rw [same]
    exact reacted.bindings
  cases result with
  | inl _ => exact standingAfter
  | inr _ => exact standingAfter

/-- The main loop leaves the books balanced. -/
theorem standing_carried :
    Carried (withLogfile setup others) (BooksAt L name handled)
      (Standing name handled) where
  atPoint := by
    intro point service own standing
    cases point <;> first
      | exact standing.balanced
      | exact absurd rfl (own _)
  react := fun entry _ standing =>
    ⟨standing.bindings, standing.balanced.react entry⟩
  clock := fun _ _ standing => ⟨standing.bindings, standing.balanced⟩
  schedule := by
    intro schedule service same standing
    refine ⟨?_, standing.balanced⟩
    change ∀ binding ∈ schedule.static, FitsLogfile name binding
    rw [same]
    exact standing.bindings
  processEvent := fun job _ standing => processEvent_standing job standing

end Daemon
end EvCollect
