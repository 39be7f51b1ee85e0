import EvCollect.Daemon.AtLeastOnce
import EvCollect.Daemon.Plain
import EvCollect.EventQL.Lifecycle

/-!
# Lines that are uploaded before a clean shutdown

A daemon with one log reader and one EventQL target is killed, and destroyed.
The log reader is detached first, and its checkpoint covers all lines taken. The
target is detached then, and discards what its upload thread has left in the
queue.
-/

namespace EvCollect
namespace Daemon

open Process Service Logfile EventQL Text

variable {name : Bytes}
variable {setup : PluginSetup}

/-- The target has accepted the events with a name that it has been given, if
the first of their routes is well formed, and its upload thread is running. -/
def Linked
    (name : Bytes)
    (targets : List TargetBinding)
    (offered : List (Nat × EventData))
    (world : EventQLWorld) : Prop :=
  ∃ routes running given, Working routes running given world.target ∧
    (targets ≠ [] → running = true) ∧
    (Accepts name routes → given = offeredTo offered name 0)

/-- The target has been stopped. -/
def Finished
    (name : Bytes)
    (offered : List (Nat × EventData))
    (world : EventQLWorld) : Prop :=
  ∃ routes given, Detached routes given world ∧
    (Accepts name routes → given = offeredTo offered name 0)

/-! ## While the service runs -/

theorem Linked.react
    {targets : List TargetBinding}
    {offered : List (Nat × EventData)}
    {world : EventQLWorld}
    (linked : Linked name targets offered world)
    (entry : Entry) :
    Linked name targets offered (World.react entry world) := by
  obtain ⟨routes, running, given, working, rest⟩ := linked
  exact ⟨routes, running, given, working.react entry, rest⟩

/-- A plugin from outside leaves the target alone. -/
theorem foreignCall_linked
    {targets : List TargetBinding}
    {offered : List (Nat × EventData)}
    (point : EventQLPoint)
    (answer : Entry → α) :
    Keeps (Linked name targets offered) (foreignCall point answer) :=
  fun _ linked => wp_call trivial fun entry => linked.react entry

/-- An event that the target is given adds to what it has been given with that
name, if it is the first target. -/
theorem offeredTo_singleton
    (target : Nat)
    (event : EventData) :
    offeredTo [(target, event)] name 0 =
      if target = 0 ∧ event.eventName = name then [event.eventData] else [] := by
  unfold offeredTo
  by_cases same : target = 0 ∧ event.eventName = name
  · rw [if_pos same, List.filter_cons_of_pos (by simpa using same)]
    rfl
  · rw [if_neg same, List.filter_cons_of_neg (by simpa using same)]
    rfl

/-- The EventQL plugin upholds the link between the events that a target is
given and the events that it accepts. -/
theorem upheld_linked :
    Upheld eventqlPlugins (fun _ => True) (Linked name) where
  react := fun _ _ entry _ linked => linked.react entry
  getSourcePlugin := fun _ _ _ => foreignCall_linked _ _
  getOutputPlugin := by
    intro other targets offered world linked
    unfold eventqlPlugins
    dsimp only
    split <;> exact wp_pure linked
  attachSource := fun _ _ _ _ _ => foreignCall_linked _ _
  detachSource := fun _ _ _ _ => foreignCall_linked _ _
  getNextEvent := fun _ _ _ _ => foreignCall_linked _ _
  hasPendingEvent := fun _ _ _ _ => foreignCall_linked _ _
  attachOutput := by
    intro ref config targets world linked
    apply wp_mono (pluginAttach_spec config) (fun _ _ _ => trivial)
    intro result after attached
    cases result with
    | error failure =>
        subst attached
        exact linked
    | ok userdata =>
        obtain ⟨routes, working⟩ := attached
        exact ⟨routes, true, [], working, fun _ => rfl, fun _ => rfl⟩
  emitEvent := by
    rintro ref userdata target event targets offered world
      ⟨routes, running, given, working, attached, link⟩
    apply wp_mono (pluginEmitEvent_spec event working)
      (fun _ _ _ => trivial)
    rintro _ after ⟨kept, accepted⟩
    by_cases same : target = 0 ∧ event.eventName = name
    · by_cases accepts : Accepts name routes
      · refine ⟨routes, running, _, accepted (same.2 ▸ accepts), attached, ?_⟩
        intro _
        rw [offeredTo_append, offeredTo_singleton, if_pos same, link accepts]
      · exact ⟨routes, running, given, kept, attached,
          fun accepts' => absurd accepts' accepts⟩
    · refine ⟨routes, running, given, kept, attached, fun accepts => ?_⟩
      rw [offeredTo_append, offeredTo_singleton, if_neg same, link accepts,
        List.append_nil]

/-! ## The teardown of the targets -/

/-- When the targets are detached, the target has been stopped. -/
theorem detach_finished
    (state : ServiceImpl (Reader × EventQLWorld))
    (held : Upheld.Of (fun targets offered world =>
      Plain world.1 ∧ Linked name targets offered world.2) state) :
    wp (fun _ _ => True)
      (state.targets.forM fun target =>
        onWorld (((withLogfile setup eventqlPlugins).output
          target.plugin).pluginDetach target.userdata))
      (fun _ after => Plain after.world.1 ∧ (after.targets ≠ [] →
        Finished name after.offered after.world.2)) state := by
  obtain ⟨plain, routes, running, given, working, attached, link⟩ := held
  cases targets : state.targets with
  | nil => exact wp_pure ⟨plain, fun some => absurd targets some⟩
  | cons target rest =>
      rw [attached (by simp [targets])] at working
      have first : wp (fun _ _ => True)
          (onWorld (((withLogfile setup eventqlPlugins).output
            target.plugin).pluginDetach target.userdata))
          (fun _ after => Plain after.world.1 ∧
            Detached routes given after.world.2 ∧
              after.offered = state.offered) state :=
        wp_zoom (wp_mono (wp_beside (stopUploadThread_spec working) plain)
          (fun _ _ _ => trivial)
          fun _ _ ⟨kept, detached⟩ => ⟨kept, detached, rfl⟩)
      refine wp_seq first fun _ after kept => ?_
      have others : wp (fun _ _ => True)
          (rest.forM fun target =>
            onWorld (((withLogfile setup eventqlPlugins).output
              target.plugin).pluginDetach target.userdata))
          (fun _ last => Plain last.world.1 ∧
            Detached routes given last.world.2 ∧
              last.offered = state.offered) after :=
        wp_forM (fun other _ later still =>
          wp_zoom (wp_mono (wp_beside
            (stopUploadThread_detached still.2.1) still.1)
            (fun _ _ _ => trivial)
            fun _ _ ⟨kept, detached⟩ => ⟨kept, detached, still.2.2⟩)) kept
      refine wp_mono others (fun _ _ _ => trivial) ?_
      rintro _ last ⟨plain, detached, same⟩
      exact ⟨plain, fun _ => ⟨routes, given, detached, same ▸ link⟩⟩

/-- When a daemon ends that has a target, that has been stopped. -/
theorem serve_finished
    (name : Bytes)
    (disk : Disk)
    (calls : List Setup)
    (noRegex : ∀ config, .addEvent config ∈ calls →
      ∀ source ∈ config.sources,
        source.properties.get (bytes "regex") = none) :
    wp (fun _ _ => True) (serve (withLogfile setup eventqlPlugins) calls)
      (fun _ after => Plain after.world.1 ∧ (after.targets ≠ [] →
        Finished name after.offered after.world.2)) (boot disk {}) := by
  refine (upheld_withLogfile upheld_linked).serve calls
    (fun config present source inside =>
      ⟨trivial, noRegex config present source inside⟩) rfl
    ⟨⟨rfl, rfl, le_refl _⟩, ?_⟩ detach_finished
  exact ⟨[], false, [], ⟨⟨⟨rfl, Nat.zero_le _⟩, fun _ => rfl⟩, rfl, rfl,
    List.nil_sublist _⟩, fun some => absurd rfl some, False.elim⟩

/-! ## Lines and uploads -/

/-- Without a regular expression the events that are not empty are those of the
lines that are not empty. -/
theorem events_of_lines
    {source : LogfileSource}
    {taken : List Taken}
    {events : List Bytes}
    (noRegex : source.pcreHandle = none)
    (areRecords : ∀ line ∈ taken, IsRecord 0x0a line.raw)
    (ofLines : taken.map (fun line => source.lineEvent line.raw) =
      events.map some) :
    (taken.filter fun line => line.raw ≠ [0x0a]).map
        (fun line => source.lineEvent line.raw) =
      (events.filter fun event => !event.isEmpty).map some := by
  induction taken generalizing events with
  | nil =>
      rw [List.map_nil, eq_comm, List.map_eq_nil_iff] at ofLines
      rw [ofLines]
      rfl
  | cons line taken inductionHypothesis =>
      cases events with
      | nil => simp at ofLines
      | cons event events =>
          simp only [List.map_cons, List.cons.injEq] at ofLines
          have rest := inductionHypothesis
            (fun other present => areRecords other
              (List.mem_cons_of_mem _ present)) ofLines.2
          obtain ⟨body, isLine, _⟩ := areRecords line List.mem_cons_self
          have ofLine := ofLines.1
          by_cases isEmpty : body = []
          · have nothing : event = [] := by
              rw [isLine, isEmpty] at ofLine
              exact (Option.some.inj ofLine).symm
            rw [List.filter_cons_of_neg (by simp [isLine, isEmpty]),
              List.filter_cons_of_neg (by simp [nothing])]
            exact rest
          · have something : event ≠ [] := by
              unfold LogfileSource.lineEvent at ofLine
              rw [isLine, List.dropLast_concat,
                if_neg (by simpa using isEmpty)] at ofLine
              exact LogfileSource.formatEvent_ne_nil noRegex isEmpty ofLine
            rw [List.filter_cons_of_pos (by simp [isLine, isEmpty]),
              List.filter_cons_of_pos (by simp [something]),
              List.map_cons, List.map_cons, rest, ofLine]

/-- Nothing is lost: the lines before the position in the checkpoint file have
been taken, now or earlier, and the events of all lines taken that are not
empty have been passed to `uploadEvent`, in order. No event that the target has
accepted is discarded. -/
structure Complete
    (handled : Lines)
    (service : ServiceImpl (Reader × EventQLWorld)) : Prop where
  lines : service.world.1.disk.truncated = false →
    service.world.1.disk.Trusts service.world.1.disk.saved.1 →
    ∀ position raw,
      RecordAt 0x0a ((service.world.1.disk.files
        service.world.1.disk.saved.1).take
          service.world.1.disk.saved.2.toNat) position raw →
      handled service.world.1.disk.saved.1 position raw ∨
        service.world.1.history.Took service.world.1.history.taken.length
          service.world.1.disk.saved.1 position raw
  uploads : ∃ events : List Bytes,
    (service.world.1.history.taken.filter fun line => line.raw ≠ [0x0a]).map
        (fun line => service.world.1.source.lineEvent line.raw) =
      events.map some ∧
    events.Sublist
      (service.world.2.target.uploaded.map EnqueuedEvent.data)
  kept : service.world.2.target.accepted = service.world.2.target.uploaded

/-- A daemon that ends has lost nothing exactly if nothing was to be discarded
when `stopUploadThread` set `thread_shutdown_`: the queue was empty, or its only
event was about to be popped. In every step on a target, its histories grow by
the events with which `uploadEvent` is entered and by those that are pushed. -/
theorem complete_iff_drained
    {L ρ : Type}
    [World ρ]
    {others : Plugins L ρ}
    {disk : Disk}
    {handled : Lines}
    {calls : List Setup}
    {rc : ReturnCode}
    {service : ServiceImpl (Reader × EventQLWorld)}
    (succession : Succession setup others name disk handled)
    (fits : LogfileSetup name calls)
    (noRegex : ∀ config, .addEvent config ∈ calls →
      ∀ source ∈ config.sources,
        source.properties.get (bytes "regex") = none)
    (ended : Ends (serve (withLogfile setup eventqlPlugins) calls)
      (boot disk {}) rc service)
    (oneTarget : service.targets.length = 1)
    (accepts : Accepts name service.world.2.target.routes) :
    (∃ stored, service.world.2.stored = some stored ∧
      (Complete handled service ↔ stored.discarded = [])) ∧
    ∀ pushed before after, EventQLTarget.Step pushed before after →
      EventQLTarget.Recorded pushed before after := by
  refine ⟨?_, fun _ _ _ step => step.recorded⟩
  have books := (serve_books succession.sound fits ({} : EventQLWorld)).ends
    ended
  obtain ⟨plain, finished⟩ :=
    (serve_finished name disk calls noRegex).ends ended
  have some : service.targets ≠ [] := by
    intro none
    rw [none] at oneTarget
    cases oneTarget
  obtain ⟨routes, given, ⟨_, stored, isStored, joined⟩, link⟩ := finished some
  refine ⟨stored, isStored, fun complete => ?_, fun nothing => ?_⟩
  · have same := joined.accepted_eq
    rw [complete.kept] at same
    exact List.self_eq_append_right.mp same
  · have kept : service.world.2.target.accepted =
        service.world.2.target.uploaded := by
      rw [joined.accepted_eq, nothing, List.append_nil]
    refine ⟨fun whole trusted => ?_, ?_, kept⟩
    · intro position raw found
      refine ((books.sound.2 whole trusted).2 position raw found).imp_right ?_
      rintro ⟨count, _, took⟩
      exact took.all
    · obtain ⟨events, ofLines, given'⟩ := books.emitted
      obtain ⟨start, position, tracked⟩ := books.started
      rw [List.take_length] at ofLines
      refine ⟨_, events_of_lines plain.noRegex tracked.takenLines ofLines, ?_⟩
      have offered := given' 0 (by
        change 0 < service.targets.length
        rw [oneTarget]
        exact Nat.one_pos)
      rw [← kept]
      rw [joined.routes_eq] at accepts
      exact offered.trans (link accepts ▸ joined.given)

/-! ## A daemon with one line -/

/-- A target with a route for lines. -/
def uploadTarget : TargetConfig where
  pluginName := bytes "eventql"
  pluginValue := []
  properties :=
    { properties := [(bytes "route", [bytes "line", bytes "db/load"])] }

/-- The life of a daemon with that target and one log reader. -/
def uploadLogfile : ServiceProc (LogPoint ⊕ EventQLPoint)
    (Reader × EventQLWorld) ReturnCode :=
  serve (withLogfile plainSetup eventqlPlugins) (oneLogfile uploadTarget)

/-- A daemon on a disk that holds a log file with one line. -/
def atUpload : ServiceImpl (Reader × EventQLWorld) :=
  boot oneLine {}

/-- The line is processed, the daemon is killed and destroyed, and meanwhile
the upload thread takes its steps. -/
def shutdownScript (peers : List Peer) : List Entry :=
  List.replicate 3 ({} : Entry) ++
    List.replicate 22 { monotonic := 2000000 } ++
    List.replicate 9 { killed := true, peers := peers } ++
    List.replicate 2 { peers := [.upload, .upload, .upload] }

/-- The daemon at its end. -/
def shutDown (peers : List Peer) : ServiceImpl (Reader × EventQLWorld) :=
  (uploadLogfile (shutdownScript peers) atUpload).state

/-- The upload thread takes the event before it is told to stop. -/
theorem complete_iff_drained_uploaded :
    (shutDown [.upload, .upload]).world.1.disk.saved = (1, 2) ∧
      Complete (fun _ _ _ => False) (shutDown [.upload, .upload]) := by
  have ended : Ends uploadLogfile atUpload ReturnCode.success
      (shutDown [.upload, .upload]) :=
    ends_of_value _ _ _ (by decide +kernel)
  have noRegex : ∀ config, .addEvent config ∈ oneLogfile uploadTarget →
      ∀ source ∈ config.sources,
        source.properties.get (bytes "regex") = none := by
    intro config present source inside
    simp only [oneLogfile, List.mem_cons, List.not_mem_nil, or_false,
      reduceCtorEq, false_or, Setup.addEvent.injEq] at present
    subst present
    obtain rfl := List.mem_singleton.mp inside
    decide
  have routes : (shutDown [.upload, .upload]).world.2.target.routes =
      [⟨bytes "line", bytes "db/load"⟩] := by decide +kernel
  have stored : (shutDown [.upload, .upload]).world.2.stored.map
      EventQLTarget.discarded = some [] := by decide +kernel
  obtain ⟨⟨found, isStored, complete⟩, _⟩ := complete_iff_drained
    (Succession.first oneLine rfl :
      Succession plainSetup outside (bytes "line") _ _)
    (logfileSetup_oneLogfile uploadTarget) noRegex ended (by decide +kernel)
    (by rw [routes]; exact Or.inl ⟨rfl, bytes "db", bytes "load", by decide⟩)
  rw [isStored, Option.map_some, Option.some.injEq] at stored
  exact ⟨by decide +kernel, complete.mpr stored⟩

/-- The upload thread takes no step before it is told to stop. The checkpoint
covers the line, and its event has been accepted and is discarded. -/
theorem accepted_discarded :
    Ends uploadLogfile atUpload ReturnCode.success (shutDown []) ∧
      (shutDown []).world.1.disk.saved = (1, 2) ∧
      RecordAt 0x0a (((shutDown []).world.1.disk.files 1).take 2) 0
        (bytes "a\n") ∧
      (shutDown []).world.2.target.accepted =
        [⟨bytes "db", bytes "load", bytes "\x7b \"data\": \"a\" \x7d"⟩] ∧
      (shutDown []).world.2.target.uploaded = [] ∧
      ¬Complete (fun _ _ _ => False) (shutDown []) := by
  have accepted : (shutDown []).world.2.target.accepted =
      [⟨bytes "db", bytes "load", bytes "\x7b \"data\": \"a\" \x7d"⟩] := by
    decide +kernel
  have uploaded : (shutDown []).world.2.target.uploaded = [] := by
    decide +kernel
  have text : ((shutDown []).world.1.disk.files 1).take 2 = bytes "a\n" := by
    decide +kernel
  refine ⟨ends_of_value _ _ _ (by decide +kernel), by decide +kernel, ?_,
    accepted, uploaded, fun complete => ?_⟩
  · rw [text]
    exact ⟨⟨bytes "a", rfl, by decide⟩, [], [], rfl, rfl, Or.inl rfl⟩
  · have same := complete.kept
    rw [accepted, uploaded] at same
    cases same

end Daemon
end EvCollect
