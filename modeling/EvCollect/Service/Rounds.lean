import EvCollect.Service.Isolation

/-!
# Rounds over several sources

A call of `processEvent` goes through the sources of a binding round by round.
The replies of a round are merged into one event, but what has been merged is
given up when a source fails, and when a source behind it has nothing to report.
-/

namespace EvCollect
namespace Service

open Process ServiceImpl Schedule

/-! ## Replies -/

/-- What sources have returned successfully, whether there is data in it or
not. -/
def replied (observations : List Observation) : List Bytes :=
  observations.filterMap fun
    | .returned _ event => some event
    | _ => none

/-- Cut replies into rounds of a number of sources, given the replies that the
round under way has already. -/
def roundsFrom (count : Nat) : List Bytes → List Bytes → List (List Bytes)
  | [], round => if round = [] then [] else [round]
  | reply :: replies, round =>
      if (round ++ [reply]).length = count then
        (round ++ [reply]) :: roundsFrom count replies []
      else roundsFrom count replies (round ++ [reply])

/-- The rounds of a call of `processEvent`. The last one has fewer replies if a
source has failed in it. -/
def roundsOf (count : Nat) (replies : List Bytes) : List (List Bytes) :=
  roundsFrom count replies []

/-- The replies that hold data. -/
def dataOf (round : List Bytes) : List Bytes :=
  round.filter fun reply => !reply.isEmpty

/-- What `processEvent` does with a reply. -/
def mergeReply (merged buffer : Bytes) : Bytes :=
  if merged.isEmpty then buffer else mergeEvents merged buffer

def mergeReplies (round : List Bytes) : Bytes :=
  round.foldl mergeReply []

@[simp] theorem replied_append (first second : List Observation) :
    replied (first ++ second) = replied first ++ replied second := by
  simp [replied]

@[simp] theorem replied_emittedTo
    (targets : List TargetBinding)
    (event : EventData) : replied (emittedTo targets event) = [] := by
  simp [replied, emittedTo]

theorem replied_zipWith
    (sources : List EventSourceBinding)
    (replies : List Bytes)
    (fits : replies.length ≤ sources.length) :
    replied (List.zipWith Observation.returned sources replies) = replies := by
  induction replies generalizing sources with
  | nil => rw [List.zipWith_nil_right]; rfl
  | cons reply replies inductionHypothesis =>
      cases sources with
      | nil => cases fits
      | cons source sources =>
          rw [List.length_cons, List.length_cons, Nat.succ_le_succ_iff] at fits
          exact congrArg (reply :: ·) (inductionHypothesis sources fits)

theorem emissions_zipWith
    (sources : List EventSourceBinding)
    (replies : List Bytes) :
    emissions (List.zipWith Observation.returned sources replies) = [] := by
  induction sources generalizing replies with
  | nil => rfl
  | cons source sources inductionHypothesis =>
      cases replies with
      | nil => rfl
      | cons reply replies => exact inductionHypothesis replies

section Cutting

variable {count : Nat}

/-- A round that is not complete is the last one. -/
theorem roundsFrom_last
    (replies round : List Bytes)
    (short : round.length + replies.length < count) :
    roundsFrom count replies round =
      if round ++ replies = [] then [] else [round ++ replies] := by
  induction replies generalizing round with
  | nil => rw [List.append_nil]; rfl
  | cons reply replies inductionHypothesis =>
      rw [List.length_cons] at short
      have longer : (round ++ [reply]).length = round.length + 1 := by simp
      rw [roundsFrom, if_neg (by omega), inductionHypothesis _ (by omega),
        List.append_assoc]
      rfl

theorem roundsFrom_complete
    (replies round rest : List Bytes)
    (nonempty : replies ≠ [])
    (complete : round.length + replies.length = count) :
    roundsFrom count (replies ++ rest) round =
      (round ++ replies) :: roundsOf count rest := by
  induction replies generalizing round with
  | nil => exact absurd rfl nonempty
  | cons reply replies inductionHypothesis =>
      rw [List.length_cons] at complete
      have longer : (round ++ [reply]).length = round.length + 1 := by simp
      rw [List.cons_append, roundsFrom]
      cases replies with
      | nil =>
          rw [List.length_nil] at complete
          rw [if_pos (by omega)]
          rfl
      | cons next replies =>
          rw [List.length_cons] at complete
          rw [if_neg (by omega), inductionHypothesis _ (List.cons_ne_nil _ _)
            (by rw [List.length_cons]; omega), List.append_assoc]
          rfl

/-- Complete rounds and the beginning of another one are cut where they meet. -/
theorem roundsOf_flatten
    (rounds : List (List Bytes))
    (last : List Bytes)
    (complete : ∀ round ∈ rounds, round ≠ [] ∧ round.length = count)
    (short : last = [] ∨ last.length < count) :
    roundsOf count (rounds.flatten ++ last) =
      rounds ++ if last = [] then [] else [last] := by
  induction rounds with
  | nil =>
      rcases short with rfl | short
      · rfl
      · exact roundsFrom_last last [] (by rwa [List.length_nil, Nat.zero_add])
  | cons round rounds inductionHypothesis =>
      obtain ⟨nonempty, length⟩ := complete round List.mem_cons_self
      have rest := inductionHypothesis fun other member =>
        complete other (List.mem_cons_of_mem _ member)
      rw [List.flatten_cons, List.append_assoc, roundsOf,
        roundsFrom_complete round [] _ nonempty (by simpa using length), rest]
      rfl

end Cutting

/-! ## Merging -/

/-- Merging keeps the last reply only. -/
theorem mergeReplies_concat (round : List Bytes) (reply : Bytes) :
    mergeReplies (round ++ [reply]) = reply := by
  rw [mergeReplies, List.foldl_append, List.foldl_cons, List.foldl_nil,
    mergeReply]
  split <;> rfl

theorem dataOf_concat (round : List Bytes) {reply : Bytes} (data : reply ≠ []) :
    dataOf (round ++ [reply]) = dataOf round ++ [reply] := by
  rw [dataOf, List.filter_append, List.filter_cons_of_pos (by simpa using data)]
  rfl

theorem mergeReplies_dataOf_ne_nil
    {round : List Bytes}
    (data : dataOf round ≠ []) :
    mergeReplies (dataOf round) ≠ [] := by
  rcases List.eq_nil_or_concat (dataOf round) with empty | ⟨init, reply, split⟩
  · exact absurd empty data
  · have member : reply ∈ dataOf round := by simp [split]
    rw [split, List.concat_eq_append, mergeReplies_concat]
    simpa using (List.mem_filter.mp member).2

/-- The replies of a round without data merge to nothing. -/
theorem mergeReplies_of_noData
    {round : List Bytes}
    (noData : dataOf round = []) :
    mergeReplies round = [] := by
  rcases List.eq_nil_or_concat round with rfl | ⟨init, reply, rfl⟩
  · rfl
  · rw [List.concat_eq_append] at noData ⊢
    rw [mergeReplies_concat]
    by_contra data
    rw [dataOf_concat init data] at noData
    cases List.append_eq_nil_iff.mp noData |>.2

/-- The rule for sources whose last one has returned data. -/
theorem mergeReplies_of_data
    {round : List Bytes}
    (data : mergeReplies round ≠ []) :
    mergeReplies (dataOf round) = mergeReplies round := by
  rcases List.eq_nil_or_concat round with rfl | ⟨init, reply, rfl⟩
  · rfl
  · rw [List.concat_eq_append] at data ⊢
    rw [mergeReplies_concat] at data ⊢
    rw [dataOf_concat init data, mergeReplies_concat]

theorem mergeReplies_ne_nil
    {round : List Bytes}
    (data : dataOf round ≠ []) :
    mergeReplies round ≠ [] ↔ round.getLast? ≠ some [] := by
  rcases List.eq_nil_or_concat round with rfl | ⟨init, reply, rfl⟩
  · exact absurd rfl data
  · rw [List.concat_eq_append, mergeReplies_concat, List.getLast?_concat]
    simp

/-- No source has returned data in a round, or none has failed and the last one
has returned data. -/
def Kept (count : Nat) (round : List Bytes) : Prop :=
  dataOf round = [] ∨ count ≤ round.length ∧ round.getLast? ≠ some []

/-! ## Offers -/

section Offers

variable (targets : Nat) (event : Bytes → EventData)

/-- What a number of targets is offered of the data of a round. -/
def offersOf (merged : Bytes) : List (Nat × EventData) :=
  if merged.isEmpty then [] else offersFrom 0 targets (event merged)

/-- What the targets are offered of a round by `processEvent`. -/
def offersOfRound (count : Nat) (round : List Bytes) : List (Nat × EventData) :=
  if round.length < count then [] else offersOf targets event (mergeReplies round)

variable {targets} {event} {other : Bytes → EventData}

theorem length_offersOf (merged : Bytes) :
    (offersOf targets event merged).length =
      if merged = [] then 0 else targets := by
  cases merged with
  | nil => rfl
  | cons byte rest =>
      rw [if_neg (List.cons_ne_nil _ _)]
      simp [offersOf, offersFrom]

theorem offersOf_of_noTargets (merged : Bytes) :
    offersOf 0 event merged = [] := by
  rw [offersOf]
  split <;> rfl

theorem offersOfRound_of_noTargets (count : Nat) (round : List Bytes) :
    offersOfRound 0 event count round = [] := by
  rw [offersOfRound, offersOf_of_noTargets]
  split <;> rfl

/-- A round that is kept is offered with all its data. -/
theorem offersOfRound_of_kept
    {count : Nat}
    {round : List Bytes}
    (kept : Kept count round) :
    offersOfRound targets event count round =
      offersOf targets event (mergeReplies (dataOf round)) := by
  by_cases data : dataOf round = []
  · rw [offersOfRound, mergeReplies_of_noData data, data]
    split <;> rfl
  · obtain ⟨complete, last⟩ := kept.resolve_left data
    rw [offersOfRound, if_neg (Nat.not_lt.mpr complete),
      mergeReplies_of_data ((mergeReplies_ne_nil data).mpr last)]

/-- Any other round is not offered at all. -/
theorem offersOfRound_of_not_kept
    {count : Nat}
    {round : List Bytes}
    (notKept : ¬ Kept count round) :
    offersOfRound targets event count round = [] ∧
      (offersOf targets event (mergeReplies (dataOf round))).length =
        targets := by
  rw [Kept, not_or, not_and] at notKept
  obtain ⟨data, lost⟩ := notKept
  constructor
  · rw [offersOfRound]
    split
    · rfl
    next complete =>
      have last := lost (Nat.not_lt.mp complete)
      rw [← mergeReplies_ne_nil data, not_not] at last
      rw [last]
      rfl
  · rw [length_offersOf, if_neg (mergeReplies_dataOf_ne_nil data)]

theorem length_offersOfRound_le (count : Nat) (round : List Bytes) :
    (offersOfRound targets event count round).length ≤
      (offersOf targets other (mergeReplies (dataOf round))).length := by
  by_cases kept : Kept count round
  · rw [offersOfRound_of_kept kept, length_offersOf, length_offersOf]
  · rw [(offersOfRound_of_not_kept kept).1]
    exact Nat.zero_le _

theorem length_rounds_le (count : Nat) (rounds : List (List Bytes)) :
    (rounds.flatMap (offersOfRound targets event count)).length ≤
      (rounds.flatMap fun round =>
        offersOf targets other (mergeReplies (dataOf round))).length := by
  induction rounds with
  | nil => exact Nat.le_refl _
  | cons round rounds inductionHypothesis =>
      rw [List.flatMap_cons, List.flatMap_cons, List.length_append,
        List.length_append]
      exact Nat.add_le_add (length_offersOfRound_le count round)
        inductionHypothesis

/-- Nothing is missing in number if and only if all rounds are kept. -/
theorem length_rounds_eq_iff (count : Nat) (rounds : List (List Bytes)) :
    (rounds.flatMap (offersOfRound targets event count)).length =
        (rounds.flatMap fun round =>
          offersOf targets other (mergeReplies (dataOf round))).length ↔
      targets = 0 ∨ ∀ round ∈ rounds, Kept count round := by
  induction rounds with
  | nil => simp
  | cons round rounds inductionHypothesis =>
      have here := @length_offersOfRound_le targets event other count round
      have others := @length_rounds_le targets event other count rounds
      rw [List.flatMap_cons, List.flatMap_cons, List.length_append,
        List.length_append, List.forall_mem_cons]
      constructor
      · intro equal
        rcases inductionHypothesis.mp (by omega) with none | kept
        · exact .inl none
        · by_cases keptHere : Kept count round
          · exact .inr ⟨keptHere, kept⟩
          · have nothing := (@offersOfRound_of_not_kept targets event count
              round keptHere).1
            have all := (@offersOfRound_of_not_kept targets other count
              round keptHere).2
            rw [nothing, List.length_nil] at equal here
            exact .inl (by omega)
      · intro condition
        have rest := inductionHypothesis.mpr (condition.imp_right And.right)
        rcases condition with rfl | ⟨kept, -⟩
        · rw [offersOfRound_of_noTargets, offersOf_of_noTargets, rest]
        · rw [offersOfRound_of_kept kept, length_offersOf, length_offersOf, rest]

end Offers

/-! ## Calls of `processEvent` -/

variable {L τ : Type}

/-- What polling the sources returns, given their replies. -/
def Polled
    (sources : List EventSourceBinding)
    (merged : Bytes)
    (replies : List Bytes) : Except Error (Bytes × Bool) → Prop
  | .error _ => replies.length < sources.length
  | .ok result =>
      replies.length = sources.length ∧ result.1 = replies.foldl mergeReply merged

/-- The sources are asked one after the other until one fails. -/
theorem pollSources_replies
    {plugins : Plugins L τ}
    {inv : Point L → ServiceImpl (Observed τ) → Prop}
    (inside : ∀ point state, inv (.plugin point) state)
    (sources : List EventSourceBinding)
    (merged : Bytes)
    (cont : Bool)
    (service : ServiceImpl (Observed τ)) :
    wp inv (pollSources (observe plugins) sources merged cont)
      (fun result after => ∃ replies world,
        Polled sources merged replies result ∧
          after = { service with
            world :=
              { world := world
                observations := service.world.observations ++
                  List.zipWith Observation.returned sources replies } })
      service := by
  induction sources generalizing merged cont service with
  | nil => exact wp_pure ⟨[], service.world.world, ⟨rfl, rfl⟩, by simp⟩
  | cons source sources inductionHypothesis =>
      refine wp_bind (wp_zoom (wp_observeNextEvent (fun _ _ => inside _ _)
        ?_ ?_))
      · intro error world
        exact wp_pure ⟨[], world, Nat.succ_pos _, by simp⟩
      · intro event world
        refine wp_bind (wp_zoom (wp_observing (fun _ _ => inside _ _) ?_))
        intro pending later
        refine wp_mono (inductionHypothesis _ _ _) (fun _ _ held => held) ?_
        rintro result _ ⟨replies, last, polled, rfl⟩
        refine ⟨event :: replies, last, ?_, by simp [Observed.note]⟩
        cases result with
        | error failure => exact Nat.succ_lt_succ polled
        | ok result => exact ⟨congrArg Nat.succ polled.1, polled.2⟩

/-- All targets are called with what was merged, if there is anything. -/
theorem emitMerged_offers
    {plugins : Plugins L τ}
    {inv : Point L → ServiceImpl (Observed τ) → Prop}
    (inside : ∀ point state, inv (.plugin point) state)
    (job : Nat)
    (now : UInt64)
    (merged : Bytes)
    (service : ServiceImpl (Observed τ)) :
    wp inv (emitMerged (observe plugins) job now merged)
      (fun _ after => ∃ world noted,
        replied noted = [] ∧
        emissions noted = callsFor service.targets
          (offersOf service.targets.length
            (fun data => ⟨now, (service.binding job).eventName, data⟩) merged) ∧
        after =
          { service with
            offered := service.offered ++ offersOf service.targets.length
              (fun data => ⟨now, (service.binding job).eventName, data⟩) merged
            world :=
              { world := world
                observations := service.world.observations ++ noted } })
      service := by
  unfold emitMerged offersOf
  split
  · exact wp_pure ⟨service.world.world, [], rfl, rfl, by
      rw [List.append_nil, List.append_nil]⟩
  · refine wp_bind (wp_get (wp_bind (wp_get ?_)))
    refine wp_mono (deliverFrom_observed _ service.targets 0 _
      fun _ _ _ _ => inside _ _) (fun _ _ held => held) ?_
    rintro _ _ ⟨world, rfl⟩
    refine ⟨world, _, replied_emittedTo _ _, ?_, rfl⟩
    rw [emissions_emittedTo]
    exact (callsFor_offersFrom [] service.targets _).symm

/-- What is known of a call of `processEvent` when it has been through these
rounds, and has the last replies of a round that was given up. -/
structure Rounded
    (job : Nat)
    (time : UInt64)
    (start : ServiceImpl (Observed τ))
    (rounds : List (List Bytes))
    (last : List Bytes)
    (service : ServiceImpl (Observed τ)) : Prop where
  targets : service.targets = start.targets
  schedule : service.toSchedule = start.toSchedule
  complete : ∀ round ∈ rounds,
    round ≠ [] ∧ round.length = (start.binding job).sources.length
  short : last = [] ∨ last.length < (start.binding job).sources.length
  observed : ∃ noted,
    service.world.observations = start.world.observations ++ noted ∧
      replied noted = rounds.flatten ++ last
  offered : service.offered = start.offered ++ rounds.flatMap fun round =>
    offersOf start.targets.length
      (fun data => ⟨time, (start.binding job).eventName, data⟩)
      (mergeReplies round)
  called : emissions service.world.observations =
    emissions start.world.observations ++
      callsFor start.targets (rounds.flatMap fun round =>
        offersOf start.targets.length
          (fun data => ⟨time, (start.binding job).eventName, data⟩)
          (mergeReplies round))

section Calls

variable {plugins : Plugins L τ}
variable {inv : Point L → ServiceImpl (Observed τ) → Prop}
variable {job : Nat}
variable {time : UInt64}
variable {start service : ServiceImpl (Observed τ)}
variable {rounds : List (List Bytes)}

theorem Rounded.binding
    {last : List Bytes}
    (rounded : Rounded job time start rounds last service) :
    service.binding job = start.binding job := by
  rw [rounded.schedule]

/-- A round in which a source has failed. -/
theorem Rounded.failed
    (rounded : Rounded job time start rounds [] service)
    {replies : List Bytes}
    (short : replies.length < (start.binding job).sources.length)
    (world : τ) :
    Rounded job time start rounds replies
      { service with
        world :=
          { world := world
            observations := service.world.observations ++
              List.zipWith Observation.returned (start.binding job).sources
                replies } } where
  targets := rounded.targets
  schedule := rounded.schedule
  complete := rounded.complete
  short := .inr short
  observed := by
    obtain ⟨noted, observations, replied⟩ := rounded.observed
    refine ⟨noted ++ List.zipWith Observation.returned
      (start.binding job).sources replies, ?_, ?_⟩
    · rw [observations, List.append_assoc]
    · rw [replied_append, replied, List.append_nil,
        replied_zipWith _ _ (Nat.le_of_lt short)]
  offered := rounded.offered
  called := by
    rw [emissions_append, emissions_zipWith, List.append_nil, rounded.called]

/-- A round in which all sources have replied, and the targets have been offered
what was merged. -/
theorem Rounded.completed
    (rounded : Rounded job time start rounds [] service)
    (busy : (start.binding job).sources ≠ [])
    {replies : List Bytes}
    (complete : replies.length = (start.binding job).sources.length)
    {noted : List Observation}
    (silent : replied noted = [])
    (calls : emissions noted = callsFor service.targets
      (offersOf service.targets.length
        (fun data => ⟨time, (service.binding job).eventName, data⟩)
        (mergeReplies replies)))
    (world : τ) :
    Rounded job time start (rounds ++ [replies]) []
      { service with
        offered := service.offered ++ offersOf service.targets.length
          (fun data => ⟨time, (service.binding job).eventName, data⟩)
          (mergeReplies replies)
        world :=
          { world := world
            observations := service.world.observations ++
              List.zipWith Observation.returned (start.binding job).sources
                replies ++ noted } } where
  targets := rounded.targets
  schedule := rounded.schedule
  complete := by
    intro round member
    rcases List.mem_append.mp member with member | member
    · exact rounded.complete round member
    · rw [List.mem_singleton.mp member]
      refine ⟨fun empty => busy ?_, complete⟩
      rw [← List.length_eq_zero_iff, ← complete, empty, List.length_nil]
  short := .inl rfl
  observed := by
    obtain ⟨before, observations, replied⟩ := rounded.observed
    refine ⟨before ++ List.zipWith Observation.returned
      (start.binding job).sources replies ++ noted, ?_, ?_⟩
    · rw [observations]
      simp only [List.append_assoc]
    · rw [replied_append, replied_append, replied, silent, List.append_nil,
        List.append_nil, replied_zipWith _ _ complete.le]
      simp
  offered := by
    rw [rounded.offered, rounded.targets, rounded.binding]
    simp
  called := by
    rw [emissions_append, emissions_append, emissions_zipWith, rounded.called,
      calls, rounded.targets, rounded.binding, List.flatMap_append,
      callsFor_append, List.append_nil, List.append_assoc,
      List.flatMap_singleton]

/-- A round of `processEvent`. -/
theorem processRound_rounded
    (inside : ∀ point state, inv (.plugin point) state)
    (busy : (start.binding job).sources ≠ [])
    (rounded : Rounded job time start rounds [] service) :
    wp inv (processRound (observe plugins) job time)
      (AfterPass
        (fun _ after => ∃ rounds, Rounded job time start rounds [] after)
        (fun _ after => ∃ rounds last,
          Rounded job time start rounds last after)) service := by
  refine wp_bind (wp_get ?_)
  rw [rounded.binding]
  apply wp_seq (pollSources_replies inside _ [] false service)
  rintro result _ ⟨replies, world, polled, rfl⟩
  cases result with
  | error failure => exact wp_pure ⟨rounds, replies, rounded.failed polled world⟩
  | ok result =>
      obtain ⟨merged, cont⟩ := result
      obtain ⟨complete, same⟩ := polled
      change merged = mergeReplies replies at same
      subst same
      refine wp_seq (emitMerged_offers inside job time _ _) ?_
      rintro rc _ ⟨later, noted, silent, calls, rfl⟩
      have after := rounded.completed busy complete silent calls later
      cases rc with
      | error failure => exact wp_pure ⟨_, [], after⟩
      | ok _ =>
          change wp _ (if cont then _ else _) _ _
          split
          · exact wp_pure ⟨_, after⟩
          · exact wp_pure ⟨_, [], after⟩

end Calls

variable [World τ]

/-- What is known at the head of each round. -/
def AtRound
    (job : Nat)
    (start : ServiceImpl (Observed τ)) :
    Point L → ServiceImpl (Observed τ) → Prop
  | .round, service => ∃ time rounds, Rounded job time start rounds [] service
  | _, _ => True

omit [World τ] in
theorem Rounded.start
    (job : Nat)
    (time : UInt64)
    (start : ServiceImpl (Observed τ)) :
    Rounded job time start [] [] start where
  targets := rfl
  schedule := rfl
  complete := List.forall_mem_nil _
  short := .inl rfl
  observed := ⟨[], (List.append_nil _).symm, rfl⟩
  offered := (List.append_nil _).symm
  called := (List.append_nil _).symm

theorem Rounded.react
    {job : Nat}
    {time : UInt64}
    {start service : ServiceImpl (Observed τ)}
    {rounds : List (List Bytes)}
    (rounded : Rounded job time start rounds [] service)
    (entry : Entry) :
    Rounded job time start rounds [] (react entry service) :=
  ⟨rounded.targets, rounded.schedule, rounded.complete, rounded.short,
    rounded.observed, rounded.offered, rounded.called⟩

/-- A call of `processEvent` goes through rounds, and offers what each round has
merged. -/
theorem processEvent_rounded
    (plugins : Plugins L τ)
    (job : Nat)
    (service : ServiceImpl (Observed τ)) :
    wp (AtRound job service) (processEvent (observe plugins) job)
      (fun _ after => ∃ time rounds last,
        Rounded job time service rounds last after) service := by
  refine wp_bind (wp_get ?_)
  split
  · exact wp_pure ⟨0, [], [], Rounded.start job 0 service⟩
  next busy =>
    rw [List.isEmpty_iff] at busy
    refine wp_bind (wp_call trivial fun entry => ?_)
    have started := (Rounded.start job entry.wall service).react entry
    apply wp_iterate (fun _ state => ∃ rounds,
      Rounded job entry.wall service rounds [] state) ⟨[], started⟩
    · rintro _ state ⟨rounds, rounded⟩
      exact ⟨entry.wall, rounds, rounded⟩
    · rintro _ state next ⟨rounds, rounded⟩
      have inside (point : L) (state : ServiceImpl (Observed τ)) :
          AtRound job service (.plugin point) state := trivial
      apply wp_mono (processRound_rounded inside busy (rounded.react next))
        (fun _ _ held => held)
      intro result after held
      cases result with
      | inl _ => exact held
      | inr _ => exact ⟨entry.wall, held⟩

/-! ## Data that is kept -/

/-- The rounds that a call of `processEvent` has been through. -/
def roundsSince
    (job : Nat)
    (service after : ServiceImpl (Observed τ)) : List (List Bytes) :=
  roundsOf (service.binding job).sources.length
    (replied (after.world.observations.drop
      service.world.observations.length))

/-- Of every round in which a source has returned data, the targets have been
called with that data, merged as if the sources without data were not there. -/
def KeepsData
    (job : Nat)
    (service after : ServiceImpl (Observed τ)) : Prop :=
  ∃ time offers,
    offers = ((roundsSince job service after).flatMap fun round =>
      offersOf service.targets.length
        (fun data => ⟨time, (service.binding job).eventName, data⟩)
        (mergeReplies (dataOf round))) ∧
    after.offered = service.offered ++ offers ∧
    emissions after.world.observations =
      emissions service.world.observations ++ callsFor service.targets offers

section Kept

variable {job : Nat}
variable {time : UInt64}
variable {service after : ServiceImpl (Observed τ)}
variable {rounds : List (List Bytes)}
variable {last : List Bytes}

omit [World τ] in
theorem Rounded.roundsSince_eq
    (rounded : Rounded job time service rounds last after) :
    roundsSince job service after =
      rounds ++ if last = [] then [] else [last] := by
  obtain ⟨noted, observations, replied⟩ := rounded.observed
  rw [roundsSince, observations, List.drop_left, replied]
  exact roundsOf_flatten rounds last rounded.complete rounded.short

omit [World τ] in
/-- What has been offered, by the rounds that can be observed. -/
theorem Rounded.offered_eq
    (rounded : Rounded job time service rounds last after) :
    after.offered = service.offered ++
      (roundsSince job service after).flatMap
        (offersOfRound service.targets.length
          (fun data => ⟨time, (service.binding job).eventName, data⟩)
          (service.binding job).sources.length) := by
  rw [rounded.offered, rounded.roundsSince_eq, List.flatMap_append]
  congr 1
  have complete : (rounds.flatMap fun round =>
      offersOf service.targets.length
        (fun data => ⟨time, (service.binding job).eventName, data⟩)
        (mergeReplies round)) = rounds.flatMap
      (offersOfRound service.targets.length
        (fun data => ⟨time, (service.binding job).eventName, data⟩)
        (service.binding job).sources.length) := by
    apply List.flatMap_congr
    intro round member
    have length := (rounded.complete round member).2
    rw [offersOfRound, if_neg (by omega)]
  rw [complete]
  by_cases noLast : last = []
  · simp [noLast]
  · have short := rounded.short.resolve_left noLast
    rw [if_neg noLast, List.flatMap_singleton, offersOfRound, if_pos short,
      List.append_nil]

omit [World τ] in
theorem Rounded.keepsData_iff
    (rounded : Rounded job time service rounds last after) :
    KeepsData job service after ↔
      service.targets = [] ∨ ∀ round ∈ roundsSince job service after,
        Kept (service.binding job).sources.length round := by
  have offered := rounded.offered_eq
  constructor
  · rintro ⟨otherTime, _, rfl, kept, _⟩
    have lengths := congrArg List.length (offered.symm.trans kept)
    rw [List.length_append, List.length_append, Nat.add_left_cancel_iff,
      length_rounds_eq_iff, List.length_eq_zero_iff] at lengths
    exact lengths
  · intro condition
    have sameOffers := List.append_cancel_left (rounded.offered.symm.trans offered)
    have called := rounded.called
    rw [sameOffers] at called
    have kept : (roundsSince job service after).flatMap
        (offersOfRound service.targets.length
          (fun data => ⟨time, (service.binding job).eventName, data⟩)
          (service.binding job).sources.length) =
        (roundsSince job service after).flatMap fun round =>
          offersOf service.targets.length
            (fun data => ⟨time, (service.binding job).eventName, data⟩)
            (mergeReplies (dataOf round)) := by
      apply List.flatMap_congr
      intro round member
      rcases condition with noTargets | kept
      · rw [noTargets, List.length_nil, offersOfRound_of_noTargets,
          offersOf_of_noTargets]
      · exact offersOfRound_of_kept (kept round member)
    exact ⟨time, _, kept, offered, called⟩

end Kept

/-- Whenever a round of `processEvent` is over, the data that sources have
returned has been offered to the targets, if and only if there are no targets or
in each round no source has returned data, or none has failed and the last one
has returned data. -/
theorem processEvent_keepsData_iff
    (plugins : Plugins L τ)
    (job : Nat)
    {service after : ServiceImpl (Observed τ)}
    (settled : Reaches (processEvent (observe plugins) job) service .round after ∨
      ∃ rc, Ends (processEvent (observe plugins) job) service rc after) :
    KeepsData job service after ↔
      service.targets = [] ∨ ∀ round ∈ roundsSince job service after,
        Kept (service.binding job).sources.length round := by
  have valid := processEvent_rounded plugins job service
  rcases settled with reached | ⟨rc, ended⟩
  · obtain ⟨time, rounds, rounded⟩ := valid.reaches reached
    exact rounded.keepsData_iff
  · obtain ⟨time, rounds, last, rounded⟩ := valid.ends ended
    exact rounded.keepsData_iff

/-- A service with a binding of two sources, and one target. -/
def oneTarget : ServiceImpl (Observed Unit) where
  eventBindings := [
    { eventName := bytes "load"
      intervalMicros := 0
      sources := [⟨0, 0⟩, ⟨1, 0⟩]
      nextTick := 0 }]
  targets := [⟨0, 0⟩]
  world := { world := () }

/-- A call of `processEvent` in which the sources return these events. -/
def oneRound (first second : Bytes) :
    Process.Outcome Entry (Point ForeignCall) (ServiceImpl (Observed Unit))
      ReturnCode :=
  processEvent (observe (foreignPlugins id)) 0
    [{}, {}, { reply := first }, {}, { reply := second }, {}, {}] oneTarget

theorem processEvent_keepsData_iff_oneRound :
    KeepsData 0 oneTarget (oneRound (bytes "1") (bytes "2")).state ↔
      oneTarget.targets = [] ∨
        ∀ round ∈ roundsSince 0 oneTarget
            (oneRound (bytes "1") (bytes "2")).state,
          Kept (oneTarget.binding 0).sources.length round :=
  processEvent_keepsData_iff (foreignPlugins id) 0
    (.inr ⟨ReturnCode.success, ends_of_value _ _ _ (by decide +kernel)⟩)

/-- Behind a source that has returned data the other one has nothing to report,
and the target is offered nothing. -/
theorem not_keepsData_oneRound :
    Ends (processEvent (observe (foreignPlugins id)) 0) oneTarget
        ReturnCode.success (oneRound (bytes "1") []).state ∧
      roundsSince 0 oneTarget (oneRound (bytes "1") []).state =
        [[bytes "1", []]] ∧
      ¬ KeepsData 0 oneTarget (oneRound (bytes "1") []).state := by
  have rounds : roundsSince 0 oneTarget (oneRound (bytes "1") []).state =
      [[bytes "1", []]] := by
    decide +kernel
  have nothing : (oneRound (bytes "1") []).state.offered = [] := by
    decide +kernel
  refine ⟨ends_of_value _ _ _ (by decide +kernel), rounds, ?_⟩
  rintro ⟨time, _, rfl, kept, _⟩
  rw [rounds, nothing, List.flatMap_singleton] at kept
  have lengths := congrArg List.length kept
  rw [List.length_append, length_offersOf] at lengths
  revert lengths
  decide +kernel

end Service
end EvCollect
