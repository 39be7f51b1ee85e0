import EvCollect.Logfile.Touched

/-!
# Several log readers in one service

`LogfileSourcePlugin` with any number of sources. Every source has its own
`LogfileSource`, while sources with the same file name share the log file, and
sources with the same checkpoint file name share the checkpoint file. The service
calls one source at a time.

A source that is attached again with the same configuration resumes from what is
in the checkpoint file, which is the position of the last source to write it.
-/

namespace EvCollect
namespace Logfile

open Process Service

/-- A `LogfileSource` with its open file. -/
structure Slot where
  source : LogfileSource
  descriptor : Option Descriptor := none
  history : ReaderHistory := {}

/-- The sources behind the user data that the plugin has handed out, the log
files by their names, and the checkpoint files by their names. -/
structure Fleet where
  logs : Bytes → Disk
  checkpoints : Bytes → Option Bytes
  slots : Userdata → Slot
  /-- The user data that is handed out next. -/
  next : Userdata

namespace Fleet

/-- One of the sources, with the files that it has. -/
def reader (userdata : Userdata) (fleet : Fleet) : Reader :=
  let slot := fleet.slots userdata
  { disk :=
      { fleet.logs slot.source.filename with
        checkpoint := fleet.checkpoints slot.source.checkpointFilename }
    source := slot.source
    descriptor := slot.descriptor
    history := slot.history }

/-- The effect of a step of one of the sources. -/
def store (userdata : Userdata) (after : Reader) (fleet : Fleet) : Fleet :=
  let source := (fleet.slots userdata).source
  { fleet with
    logs := Function.update fleet.logs source.filename after.disk
    checkpoints := Function.update fleet.checkpoints source.checkpointFilename
      after.disk.checkpoint
    slots := Function.update fleet.slots userdata
      { source := after.source
        descriptor := after.descriptor
        history := after.history } }

/-- `new LogfileSource`. -/
def allocate (source : LogfileSource) (fleet : Fleet) : Fleet :=
  { fleet with
    slots := Function.update fleet.slots fleet.next { source := source }
    next := fleet.next + 1 }

/-- The position of a source. -/
def position (userdata : Userdata) (fleet : Fleet) : UInt64 × UInt64 :=
  (fleet.slots userdata).source.position

end Fleet

abbrev FleetProc (α : Type) := Proc Entry LogPoint Fleet α

/-- Call a function of one of the sources. -/
def onSlot (userdata : Userdata) (process : ReaderProc α) : FleetProc α :=
  Proc.zoom (Fleet.reader userdata) (Fleet.store userdata) id process

/-- The name of the log file in a configuration. -/
def logfileOf (config : PropertyList) : Bytes :=
  (config.get (bytes "logfile")).getD []

section Plugin

variable (setup : PluginSetup)

/-- The source that is constructed for a configuration. -/
def sourceOf (config : PropertyList) : LogfileSource :=
  LogfileSource.create setup.sha1 (logfileOf config) setup.spoolDir

/-- `LogfileSourcePlugin::pluginAttach`, which hands out the new source. -/
def attach (config : PropertyList) : FleetProc (Except Error Userdata) := do
  let fleet ← Proc.get
  Proc.modify (Fleet.allocate (sourceOf setup config))
  match ← onSlot fleet.next (pluginAttach setup config) with
  | .error error => return .error error
  | .ok _ => return .ok fleet.next

/-- Attach a source for every configuration, and give up at the first
failure. -/
def attachAll : List PropertyList → FleetProc ReturnCode
  | [] => pure ReturnCode.success
  | config :: rest => do
      match ← attach setup config with
      | .error error => return .error error
      | .ok _ => attachAll rest

/-- The sources of a service are attached and called in any order. -/
def useAll
    (configs : List PropertyList)
    (calls : List (Userdata × Op)) : FleetProc ReturnCode := do
  match ← attachAll setup configs with
  | .error error => return .error error
  | .ok _ =>
      calls.forM fun call => onSlot call.1 (runOp call.2)
      return ReturnCode.success

/-- The sources are detached, in any order. -/
def detachAll (order : List Userdata) : FleetProc Unit :=
  order.forM fun userdata => onSlot userdata pluginDetach

end Plugin

/-! ## Steps of one source -/

variable {setup : PluginSetup}
variable {fleet : Fleet}
variable {userdata other : Userdata}
variable {after : Reader}

theorem wp_onSlot
    {process : ReaderProc α}
    {post : α → Fleet → Prop}
    (valid : wp (fun _ _ => True) process
      (fun value after => post value (fleet.store userdata after))
      (fleet.reader userdata)) :
    wp (fun _ _ => True) (onSlot userdata process) post fleet :=
  wp_zoom valid

namespace Fleet

theorem slots_store_self :
    (fleet.store userdata after).slots userdata =
      { source := after.source
        descriptor := after.descriptor
        history := after.history } :=
  Function.update_self ..

theorem slots_store_of_ne (different : other ≠ userdata) :
    (fleet.store userdata after).slots other = fleet.slots other :=
  Function.update_of_ne different ..

/-- The names of the files of all sources stay as they are. -/
theorem names_store
    (names : after.source.names = (fleet.slots userdata).source.names)
    (other : Userdata) :
    ((fleet.store userdata after).slots other).source.names =
      (fleet.slots other).source.names := by
  by_cases same : other = userdata
  · rw [same, slots_store_self]
    exact names
  · rw [slots_store_of_ne same]

/-- What a source has stored is what it finds. -/
theorem reader_store_self
    (names : after.source.names = (fleet.slots userdata).source.names) :
    (fleet.store userdata after).reader userdata = after := by
  obtain ⟨sameLog, sameCheckpoint⟩ := Prod.mk.injEq _ _ _ _ ▸ names
  unfold reader
  rw [slots_store_self]
  dsimp only
  rw [sameLog, sameCheckpoint, store]
  simp only [Function.update_self]

/-- The checkpoint file of a source, and what is in it. -/
def saved (userdata : Userdata) (fleet : Fleet) : UInt64 × UInt64 :=
  (fleet.reader userdata).disk.saved

/-- Another checkpoint file does not change. -/
theorem aside_store_of_ne
    (different : (fleet.slots other).source.checkpointFilename ≠
      (fleet.slots userdata).source.checkpointFilename) :
    ((fleet.store userdata after).reader other).aside =
      (fleet.reader other).aside := by
  have apart : other ≠ userdata := fun same => different (same ▸ rfl)
  unfold reader
  rw [slots_store_of_ne apart]
  dsimp only [Reader.aside]
  rw [store]
  simp only [Function.update_of_ne different]

/-- A step that leaves the checkpoint file of its source alone changes nothing
about any checkpoint file. -/
theorem traces_store
    (names : after.source.names = (fleet.slots userdata).source.names)
    (same : after.aside.traces = (fleet.reader userdata).aside.traces)
    (other : Userdata) :
    ((fleet.store userdata after).reader other).aside.traces =
      (fleet.reader other).aside.traces := by
  by_cases isSelf : other = userdata
  · rw [isSelf, reader_store_self names, same]
  · have untouched : after.disk.checkpoint = fleet.checkpoints
        (fleet.slots userdata).source.checkpointFilename :=
      congrArg Traces.checkpoint same
    unfold reader
    rw [slots_store_of_ne isSelf]
    dsimp only [Reader.aside, Aside.traces]
    rw [store]
    dsimp only
    rw [untouched, Function.update_eq_self]

/-- Each checkpoint file holds what some source remembers that has it, unless
that source could not access all of it. -/
def Settled (fleet : Fleet) : Prop :=
  ∀ userdata < fleet.next, ∃ last < fleet.next,
    (fleet.slots last).source.checkpointFilename =
        (fleet.slots userdata).source.checkpointFilename ∧
      (fleet.reader last).aside.Clean

end Fleet

/-- What is known of a checkpoint file depends on its traces. -/
theorem Aside.Clean.of_traces
    {first second : Aside}
    (clean : first.Clean)
    (same : second.traces = first.traces) :
    second.Clean := by
  intro synced
  obtain ⟨checkpoint, inode, offset, flag⟩ := Traces.mk.injEq .. ▸ same
  rw [checkpoint, inode, offset]
  exact clean (flag.symm.trans synced)

/-! ## Attaching -/

/-- A source that was attached with a configuration, and has read the checkpoint
file that was there. -/
structure Restored
    (setup : PluginSetup)
    (config : PropertyList)
    (userdata : Userdata)
    (fleet : Fleet) : Prop where
  names : (fleet.slots userdata).source.names = (sourceOf setup config).names
  cached : Cached (fleet.slots userdata).source
  position : (fleet.slots userdata).history.synced = true →
    fleet.position userdata = fleet.saved userdata

/-- What attaching sources leaves alone: the other ones, and all checkpoint
files. -/
structure Joins (before after : Fleet) (count : Nat) : Prop where
  next : after.next = before.next + count
  others : ∀ userdata < before.next,
    after.slots userdata = before.slots userdata
  checkpoints : after.checkpoints = before.checkpoints

theorem Joins.trans
    {first second third : Fleet}
    {count more : Nat}
    (left : Joins first second count)
    (right : Joins second third more) :
    Joins first third (count + more) where
  next := by
    rw [right.next, left.next, Nat.add_assoc]
  others := fun userdata known => by
    rw [right.others userdata (left.next ▸ Nat.lt_add_right count known),
      left.others userdata known]
  checkpoints := right.checkpoints.trans left.checkpoints

/-- What a source finds in its checkpoint file. -/
theorem saved_congr
    {first second : Fleet}
    (checkpoints : first.checkpoints = second.checkpoints)
    (file : (first.slots userdata).source.checkpointFilename =
      (second.slots other).source.checkpointFilename) :
    first.saved userdata = second.saved other := by
  have same : (first.reader userdata).disk.checkpoint =
      (second.reader other).disk.checkpoint := by
    change first.checkpoints _ = second.checkpoints _
    rw [checkpoints, file]
  rw [Fleet.saved, Fleet.saved, Disk.saved, Disk.saved, same]

theorem Restored.joins
    {config : PropertyList}
    {before after : Fleet}
    {count : Nat}
    (restored : Restored setup config userdata before)
    (joins : Joins before after count)
    (known : userdata < before.next) :
    Restored setup config userdata after := by
  have same := joins.others userdata known
  refine ⟨by rw [same]; exact restored.names,
    by rw [same]; exact restored.cached, ?_⟩
  rw [same, Fleet.position, same, saved_congr joins.checkpoints
    (congrArg (fun slot => slot.source.checkpointFilename) same)]
  exact restored.position

/-- A new source that has left its checkpoint file alone. -/
theorem attached
    {config : PropertyList}
    (names : after.source.names = (sourceOf setup config).names)
    (checkpoint : after.disk.checkpoint = ((fleet.allocate
      (sourceOf setup config)).reader fleet.next).disk.checkpoint)
    (cached : Cached after.source)
    (position : after.history.synced = true →
      after.source.position = ((fleet.allocate
        (sourceOf setup config)).reader fleet.next).disk.saved) :
    Joins fleet ((fleet.allocate (sourceOf setup config)).store fleet.next after)
        1 ∧
      Restored setup config fleet.next
        ((fleet.allocate (sourceOf setup config)).store fleet.next after) := by
  have isNew : (fleet.allocate (sourceOf setup config)).slots fleet.next =
      { source := sourceOf setup config } :=
    Function.update_self ..
  have sameNames : after.source.names = ((fleet.allocate
      (sourceOf setup config)).slots fleet.next).source.names := by
    rw [isNew]
    exact names
  refine ⟨⟨rfl, fun userdata known => ?_, ?_⟩, ⟨?_, ?_, fun synced => ?_⟩⟩
  · have different : userdata ≠ fleet.next := Nat.ne_of_lt known
    rw [Fleet.slots_store_of_ne different]
    exact Function.update_of_ne different ..
  · rw [Fleet.store, checkpoint]
    exact Function.update_eq_self ..
  · rw [Fleet.slots_store_self]
    exact names
  · rw [Fleet.slots_store_self]
    exact cached
  · rw [Fleet.slots_store_self] at synced
    rw [Fleet.position, Fleet.slots_store_self, Fleet.saved,
      Fleet.reader_store_self sameNames]
    refine (position synced).trans ?_
    rw [Disk.saved, Disk.saved, checkpoint]

theorem attach_restores (config : PropertyList) :
    wp (fun _ _ => True) (attach setup config)
      (fun result after => ∀ userdata, result = .ok userdata →
        Joins fleet after 1 ∧ Restored setup config fleet.next after) fleet := by
  refine wp_bind (wp_get (wp_bind (wp_modify ?_)))
  cases found : config.get (bytes "logfile") with
  | none =>
      refine wp_bind (wp_onSlot ?_)
      unfold pluginAttach
      rw [found]
      refine wp_pure (wp_pure ?_)
      intro userdata isOk
      cases isOk
  | some filename =>
      refine wp_bind (wp_onSlot (wp_mono (pluginAttach_reads found)
        (fun _ _ known => known) ?_))
      rintro result after ⟨names, checkpoint, cached, position⟩
      cases result with
      | error failure =>
          apply wp_pure
          intro userdata isOk
          cases isOk
      | ok _ =>
          refine wp_pure fun _ _ => attached ?_ checkpoint cached position
          rw [names, sourceOf, logfileOf, found]
          rfl

/-- All sources are attached, one after the other. -/
theorem attachAll_restores (configs : List PropertyList) :
    wp (fun _ _ => True) (attachAll setup configs)
      (fun rc after => rc = ReturnCode.success →
        Joins fleet after configs.length ∧
        ∀ index config, configs[index]? = some config →
          Restored setup config (fleet.next + index) after) fleet := by
  induction configs generalizing fleet with
  | nil =>
      exact wp_pure fun _ =>
        ⟨⟨rfl, fun _ _ => rfl, rfl⟩, fun _ _ found => by cases found⟩
  | cons config configs inductionHypothesis =>
      refine wp_seq (attach_restores config) fun result attached known => ?_
      cases result with
      | error failure =>
          refine wp_pure fun isSuccess => ?_
          cases isSuccess
      | ok userdata =>
          obtain ⟨joins, restored⟩ := known userdata rfl
          refine wp_mono inductionHypothesis (fun _ _ _ => trivial)
            fun rc after rest isSuccess => ?_
          obtain ⟨joinsRest, restoredRest⟩ := rest isSuccess
          refine ⟨?_, fun index other found => ?_⟩
          · rw [List.length_cons, Nat.add_comm]
            exact joins.trans joinsRest
          rcases index with _ | index
          · cases found
            exact restored.joins joinsRest (joins.next ▸ Nat.lt_succ_self _)
          · have shifted := restoredRest index other found
            rw [joins.next, Nat.add_assoc, Nat.add_comm 1] at shifted
            exact shifted

/-! ## Calling and detaching -/

/-- The sources of a service while they are called: their number, the names of
their files, and what is in the checkpoint files. -/
structure Running
    (count : Nat)
    (names : Userdata → Bytes × Bytes)
    (fleet : Fleet) : Prop where
  next : fleet.next = count
  named : ∀ userdata < count, (fleet.slots userdata).source.names = names userdata
  settled : fleet.Settled

/-- A call of one of the sources keeps what is known of all of them. -/
theorem Running.store
    {count : Nat}
    {names : Userdata → Bytes × Bytes}
    (running : Running count names fleet)
    (inside : userdata < count)
    (sameNames : after.source.names = (fleet.slots userdata).source.names)
    (touched : after.aside.Touched (fleet.reader userdata).aside.traces) :
    Running count names (fleet.store userdata after) := by
  have kept := Fleet.names_store sameNames
  refine ⟨running.next, fun other known => (kept other).trans
    (running.named other known), fun other known => ?_⟩
  have file (other : Userdata) :
      ((fleet.store userdata after).slots other).source.checkpointFilename =
        (fleet.slots other).source.checkpointFilename :=
    congrArg Prod.snd (kept other)
  obtain ⟨last, isLast, shared, clean⟩ := running.settled other known
  rcases touched with same | cleanAfter
  · refine ⟨last, isLast, by rw [file, file, shared], ?_⟩
    exact clean.of_traces (Fleet.traces_store sameNames same last)
  · by_cases isShared : (fleet.slots userdata).source.checkpointFilename =
        (fleet.slots other).source.checkpointFilename
    · refine ⟨userdata, running.next ▸ inside, by rw [file, file, isShared], ?_⟩
      rw [Fleet.reader_store_self sameNames]
      exact cleanAfter
    · refine ⟨last, isLast, by rw [file, file, shared], ?_⟩
      rw [Fleet.aside_store_of_ne (fun equal => isShared (equal.symm.trans shared))]
      exact clean

/-- Calls of attached sources. -/
theorem calls_running
    {count : Nat}
    {names : Userdata → Bytes × Bytes}
    (calls : List (Userdata × Op))
    (inside : ∀ call ∈ calls, call.1 < count)
    (running : Running count names fleet) :
    wp (fun _ _ => True) (calls.forM fun call => onSlot call.1 (runOp call.2))
      (fun _ after => Running count names after) fleet := by
  refine wp_forM (fun call present state held => wp_onSlot ?_) running
  refine wp_mono ((runOp_keepsNames call.2).wp_and
    (runOp_touches call.2 _ (state.reader call.1) (Or.inl rfl)))
    (fun _ _ known => known) fun _ after known => ?_
  exact held.store (inside call present) known.1 known.2

/-- While sources are detached: those that have been remember their position,
and no position changes. -/
structure Detaching
    (count : Nat)
    (names : Userdata → Bytes × Bytes)
    (used : Fleet)
    (left : List Userdata)
    (fleet : Fleet) : Prop where
  running : Running count names fleet
  inside : ∀ userdata ∈ left, userdata < count
  cached : ∀ userdata < count, userdata ∉ left →
    Cached (fleet.slots userdata).source
  position : ∀ userdata, fleet.position userdata = used.position userdata

theorem detachAll_detaching
    {count : Nat}
    {names : Userdata → Bytes × Bytes}
    {order : List Userdata}
    (running : Running count names fleet)
    (inside : ∀ userdata ∈ order, userdata < count)
    (all : ∀ userdata < count, userdata ∈ order) :
    wp (fun _ _ => True) (detachAll order)
      (fun _ after => Detaching count names fleet [] after) fleet := by
  refine wp_forM_left (fun left state => Detaching count names fleet left state)
    (fun userdata left state held => wp_onSlot ?_)
    ⟨running, inside, fun userdata known absent => absurd (all _ known) absent,
      fun _ => rfl⟩
  apply wp_seq (writeCheckpoint_keepsNames.wp_and
    (writeCheckpoint_touches (Or.inl rfl)))
  rintro _ after ⟨names, touched, cached, position⟩
  refine wp_pure ⟨held.running.store (held.inside userdata (by simp)) names touched,
    fun other present => held.inside other (by simp [present]),
    fun other known absent => ?_, fun other => ?_⟩
  · by_cases same : other = userdata
    · rw [same, Fleet.slots_store_self]
      exact cached
    · rw [Fleet.slots_store_of_ne same]
      exact held.cached other known (by simp [same, absent])
  · refine Eq.trans ?_ (held.position other)
    by_cases same : other = userdata
    · rw [same, Fleet.position, Fleet.slots_store_self]
      exact position
    · rw [Fleet.position, Fleet.slots_store_of_ne same]
      rfl

/-! ## Resuming -/

/-- The names of the files of the sources that are attached first. -/
def namesOf
    (setup : PluginSetup)
    (configs : List PropertyList)
    (userdata : Userdata) : Bytes × Bytes :=
  (sourceOf setup (configs.getD userdata ⟨[]⟩)).names

/-- Every source that is attached has a configuration. -/
theorem getElem?_of_lt
    {configs : List PropertyList}
    (inside : userdata < configs.length) :
    configs[userdata]? = some (configs.getD userdata ⟨[]⟩) := by
  rw [List.getD_eq_getElem?_getD, List.getElem?_eq_getElem inside]
  rfl

theorem useAll_running
    {configs : List PropertyList}
    {calls : List (Userdata × Op)}
    (empty : fleet.next = 0)
    (inside : ∀ call ∈ calls, call.1 < configs.length) :
    wp (fun _ _ => True) (useAll setup configs calls)
      (fun rc after => rc = ReturnCode.success →
        Running configs.length (namesOf setup configs) after) fleet := by
  refine wp_seq (attachAll_restores configs) fun rc attached known => ?_
  cases rc with
  | error failure =>
      refine wp_pure fun isSuccess => ?_
      cases isSuccess
  | ok _ =>
      obtain ⟨joins, restored⟩ := known rfl
      have next : attached.next = configs.length := by
        rw [joins.next, empty, Nat.zero_add]
      have each (userdata : Userdata) (known : userdata < configs.length) :
          Restored setup (configs.getD userdata ⟨[]⟩) userdata attached := by
        have found := restored userdata _ (getElem?_of_lt known)
        rwa [empty, Nat.zero_add] at found
      refine wp_seq (calls_running calls inside ⟨next,
        fun userdata known => (each userdata known).names, fun userdata known =>
          ⟨userdata, known, rfl, fun synced => ?_⟩⟩)
        fun _ _ running => wp_pure fun _ => running
      have isRestored := each userdata (next ▸ known)
      refine ((isRestored.position synced).symm).trans ?_
      exact (Prod.ext isRestored.cached.1 isRestored.cached.2).symm

/-- Different log files have different checkpoint files, unless their hashes
collide. -/
theorem logfileOf_eq
    {first second : PropertyList}
    (collisionFree :
      setup.sha1 (logfileOf first) = setup.sha1 (logfileOf second) →
        logfileOf first = logfileOf second)
    (same : (sourceOf setup first).checkpointFilename =
      (sourceOf setup second).checkpointFilename) :
    (sourceOf setup first).filename = (sourceOf setup second).filename :=
  collisionFree (List.append_cancel_left same)

section Resume

variable {configs : List PropertyList}
variable {used detached resumed : Fleet}

/-- What is in a checkpoint file when all sources are detached: the position of
one of the sources that have it. -/
theorem Detaching.saved
    {names : Userdata → Bytes × Bytes}
    {count : Nat}
    (detaching : Detaching count names used [] detached)
    (written : ∀ userdata < count,
      (detached.slots userdata).history.synced = true)
    (known : userdata < count) :
    ∃ last < count,
      (detached.slots last).source.checkpointFilename =
          (detached.slots userdata).source.checkpointFilename ∧
        detached.saved userdata = used.position last := by
  have next := detaching.running.next
  obtain ⟨last, isLast, shared, clean⟩ :=
    detaching.running.settled userdata (next ▸ known)
  rw [next] at isLast
  refine ⟨last, isLast, shared, ?_⟩
  have cached := detaching.cached last isLast (by simp)
  calc detached.saved userdata
      = detached.saved last := saved_congr rfl shared.symm
    _ = ((detached.slots last).source.checkpointInode,
          (detached.slots last).source.checkpointOffset) :=
        clean (written last isLast)
    _ = detached.position last := Prod.ext cached.1 cached.2
    _ = used.position last := detaching.position last

/-- A source that is attached again stands where the checkpoint file says. -/
theorem Detaching.position_resumed
    (detaching : Detaching configs.length (namesOf setup configs) used []
      detached)
    (joins : Joins detached resumed configs.length)
    (restored : ∀ index config, configs[index]? = some config →
      Restored setup config (detached.next + index) resumed)
    (readWhole : ∀ userdata < configs.length,
      (resumed.slots (configs.length + userdata)).history.synced = true)
    (known : userdata < configs.length) :
    resumed.position (configs.length + userdata) = detached.saved userdata := by
  have isRestored := restored userdata _ (getElem?_of_lt known)
  rw [detaching.running.next] at isRestored
  have names := isRestored.names.trans
    (detaching.running.named userdata known).symm
  exact (isRestored.position (readWhole userdata known)).trans
    (saved_congr joins.checkpoints (congrArg Prod.snd names))

/-- All sources are attached, called in any order, detached with checkpoints that
are written completely, and attached again with the same configuration. Each of
them resumes at its own position exactly if any two that follow the same log file
were at the same position. -/
theorem resumes_iff
    {calls : List (Userdata × Op)}
    {order : List Userdata}
    {start : Fleet}
    (empty : start.next = 0)
    (collisionFree : ∀ first ∈ configs, ∀ second ∈ configs,
      setup.sha1 (logfileOf first) = setup.sha1 (logfileOf second) →
        logfileOf first = logfileOf second)
    (inside : ∀ call ∈ calls, call.1 < configs.length)
    (all : order.Perm (List.range configs.length))
    (running : Ends (useAll setup configs calls) start ReturnCode.success used)
    (ended : Ends (detachAll order) used () detached)
    (written : ∀ userdata < configs.length,
      (detached.slots userdata).history.synced = true)
    (again : Ends (attachAll setup configs) detached ReturnCode.success resumed)
    (readWhole : ∀ userdata < configs.length,
      (resumed.slots (configs.length + userdata)).history.synced = true) :
    (∀ userdata < configs.length,
      resumed.position (configs.length + userdata) = used.position userdata) ↔
    ∀ first < configs.length, ∀ second < configs.length,
      (used.slots first).source.filename = (used.slots second).source.filename →
        used.position first = used.position second := by
  have called : Running configs.length (namesOf setup configs) used :=
    (useAll_running empty inside).ends running rfl
  have member (userdata : Userdata) : userdata ∈ order ↔
      userdata < configs.length := by
    rw [all.mem_iff, List.mem_range]
  have detaching : Detaching configs.length (namesOf setup configs) used []
      detached :=
    (detachAll_detaching called (fun _ => (member _).mp)
      fun _ => (member _).mpr).ends ended
  obtain ⟨joins, restored⟩ := (attachAll_restores configs).ends again rfl
  have resumes (userdata : Userdata) (known : userdata < configs.length) :=
    detaching.position_resumed joins restored readWhole known
  have filename (userdata : Userdata) (known : userdata < configs.length) :
      (used.slots userdata).source.filename = (namesOf setup configs userdata).1 :=
    congrArg Prod.fst (called.named userdata known)
  have checkpoint (userdata : Userdata) (known : userdata < configs.length) :
      (detached.slots userdata).source.checkpointFilename =
        (namesOf setup configs userdata).2 :=
    congrArg Prod.snd (detaching.running.named userdata known)
  constructor
  · intro own first isFirst second isSecond same
    rw [← own first isFirst, ← own second isSecond, resumes first isFirst,
      resumes second isSecond]
    apply saved_congr rfl
    rw [filename first isFirst, filename second isSecond] at same
    rw [checkpoint first isFirst, checkpoint second isSecond]
    exact congrArg (fun name => setup.spoolDir ++ bytes "/log_" ++ setup.sha1 name)
      same
  · intro together userdata known
    obtain ⟨last, isLast, shared, saved⟩ := detaching.saved written known
    rw [resumes userdata known, saved]
    apply together last isLast userdata known
    rw [checkpoint last isLast, checkpoint userdata known] at shared
    rw [filename last isLast, filename userdata known]
    refine logfileOf_eq (collisionFree _ ?_ _ ?_) shared
    · exact List.mem_of_getElem? (getElem?_of_lt isLast)
    · exact List.mem_of_getElem? (getElem?_of_lt known)

/-! ## Two sources -/

/-- The names of files are their own hashes. -/
def namesAsHashes : PluginSetup :=
  { sha1 := id, compile := fun _ => .error [], spoolDir := bytes "spool" }

/-- The configuration of a source for a log file. -/
def follow (filename : String) : PropertyList :=
  ⟨[(bytes "logfile", [bytes filename])]⟩

/-- Every log file has two lines, and there is no checkpoint file. -/
def noSources : Fleet :=
  { logs := fun _ => atTwoLines.disk
    checkpoints := fun _ => none
    slots := fun _ => { source := freshSource }
    next := 0 }

/-- The first source is asked for a line, and the second one for two. -/
def unevenCalls : List (Userdata × Op) :=
  [(0, .getNextLine), (1, .getNextLine), (1, .getNextLine)]

def quiet : List Entry :=
  List.replicate 60 ({} : Entry)

/-- Two sources behind these calls. -/
def usedFor (first second : String) : Fleet :=
  (useAll namesAsHashes [follow first, follow second] unevenCalls quiet
    noSources).state

/-- Both have been detached. -/
def detachedFor (first second : String) : Fleet :=
  (detachAll [0, 1] quiet (usedFor first second)).state

/-- Both have been attached again. -/
def resumedFor (first second : String) : Fleet :=
  (attachAll namesAsHashes [follow first, follow second] quiet
    (detachedFor first second)).state

/-- What the theorem needs to know of these runs. -/
theorem ends_quiet
    {process : FleetProc α}
    {value : α}
    (start : Fleet)
    (returned : (process quiet start).value = some value) :
    Ends process start value (process quiet start).state :=
  ends_of_value process start quiet returned

/-- Two sources that follow different log files do not disturb each other. -/
theorem resumes_iff_different :
    (resumedFor "a" "b").position 2 = (usedFor "a" "b").position 0 ∧
      (usedFor "a" "b").position 0 ≠ (usedFor "a" "b").position 1 := by
  have running : Ends (useAll namesAsHashes [follow "a", follow "b"]
      unevenCalls) noSources ReturnCode.success (usedFor "a" "b") :=
    ends_quiet noSources (by decide +kernel)
  have ended : Ends (detachAll [0, 1]) (usedFor "a" "b") ()
      (detachedFor "a" "b") :=
    ends_quiet (usedFor "a" "b") (by decide +kernel)
  have again : Ends (attachAll namesAsHashes [follow "a", follow "b"])
      (detachedFor "a" "b") ReturnCode.success (resumedFor "a" "b") :=
    ends_quiet (detachedFor "a" "b") (by decide +kernel)
  have own := (resumes_iff rfl (fun _ _ _ _ => id) (by decide) (by decide)
    running ended (by decide +kernel) again (by decide +kernel)).mpr
    (by decide +kernel)
  exact ⟨own 0 (by decide), by decide +kernel⟩

/-- The first one of two sources of the same log file resumes behind a line that
only the second one has returned. -/
theorem resumes_elsewhere :
    Ends (useAll namesAsHashes [follow "a", follow "a"] unevenCalls) noSources
        ReturnCode.success (usedFor "a" "a") ∧
      Ends (detachAll [0, 1]) (usedFor "a" "a") () (detachedFor "a" "a") ∧
      (∀ userdata < 2,
        ((detachedFor "a" "a").slots userdata).history.synced = true) ∧
      Ends (attachAll namesAsHashes [follow "a", follow "a"])
        (detachedFor "a" "a") ReturnCode.success (resumedFor "a" "a") ∧
      (∀ userdata < 2,
        ((resumedFor "a" "a").slots (2 + userdata)).history.synced = true) ∧
      (usedFor "a" "a").position 0 = (1, 2) ∧
      (resumedFor "a" "a").position 2 = (1, 4) :=
  ⟨ends_quiet noSources (by decide +kernel),
    ends_quiet (usedFor "a" "a") (by decide +kernel), by decide +kernel,
    ends_quiet (detachedFor "a" "a") (by decide +kernel), by decide +kernel,
    by decide +kernel, by decide +kernel⟩

end Resume

end Logfile
end EvCollect
