import EvCollect.Logfile.Polling
import EvCollect.Logfile.Recovery
import EvCollect.Service.Defs

/-!
# Lines taken and events offered

The two sides that a checkpoint has to be compared with: the lines that the log
reader has taken, and the events that the service has given to its targets. The
books are balanced if every target has been given the events of all lines. While
a line is on its way from the one side to the other its event is owed.
-/

namespace EvCollect
namespace Daemon

open Process Service Logfile

/-- The data of the events with a name that a target has been given. -/
def offeredTo
    (offered : List (Nat × EventData))
    (name : Bytes)
    (target : Nat) : List Bytes :=
  (offered.filter fun offer =>
    offer.1 == target && offer.2.eventName == name).map fun offer =>
      offer.2.eventData

theorem offeredTo_append
    (offered more : List (Nat × EventData))
    (name : Bytes)
    (target : Nat) :
    offeredTo (offered ++ more) name target =
      offeredTo offered name target ++ offeredTo more name target := by
  simp [offeredTo]

/-- The log reader, and what the targets have been given. -/
structure Ledger where
  /-- The number of targets. -/
  targets : Nat
  offered : List (Nat × EventData)
  reader : Reader

namespace Ledger

/-- The first lines taken have been dealt with: each of them has an event, which
is empty if the line is or if it does not match, and every target has been given
the events that are not empty, in this order. -/
def Emitted
    (ledger : Ledger)
    (name : Bytes)
    (count : Nat) : Prop :=
  ∃ events : List Bytes,
    (ledger.reader.history.taken.take count).map
        (fun line => ledger.reader.source.lineEvent line.raw) =
      events.map some ∧
    ∀ target < ledger.targets,
      (events.filter fun event => !event.isEmpty).Sublist
        (offeredTo ledger.offered name target)

/-- The lines that have been dealt with. -/
def Handled
    (ledger : Ledger)
    (name : Bytes) : Lines :=
  fun inode position raw => ∃ count, ledger.Emitted name count ∧
    ledger.reader.history.Took count inode position raw

/-- The last line taken has an event, or throws, and its own call has completed
a checkpoint. -/
def Exposed (ledger : Ledger) : Prop :=
  ∃ earlier line, ledger.reader.history.taken = earlier ++ [line] ∧
    ledger.reader.source.lineEvent line.raw ≠ some [] ∧
    earlier.length ∈ ledger.reader.history.early

/-- The reader has started on a disk whose checkpoint covers lines that had been
dealt with before. -/
def Started
    (ledger : Ledger)
    (handled : Lines) : Prop :=
  ∃ start position, Tracked (startOf start position handled) ledger.reader

/-- No event is owed. -/
structure Balanced
    (ledger : Ledger)
    (name : Bytes)
    (handled : Lines) : Prop where
  started : ledger.Started handled
  settled : ledger.reader.Settled
  emitted : ledger.Emitted name ledger.reader.history.taken.length

/-- One event is owed, unless the last line taken is an old one. -/
structure Owes
    (ledger : Ledger)
    (name : Bytes)
    (handled : Lines)
    (event : Bytes) : Prop where
  started : ledger.Started handled
  settled : ledger.reader.Settled
  owed : ledger.Emitted name ledger.reader.history.taken.length ∨
    ∃ earlier line, ledger.reader.history.taken = earlier ++ [line] ∧
      ledger.Emitted name earlier.length ∧
      ledger.reader.source.lineEvent line.raw = some event ∧
      (ledger.reader.history.written ≤ earlier.length ∨
        earlier.length ∈ ledger.reader.history.early)

/-- At most one event is owed. -/
structure Pending
    (ledger : Ledger)
    (name : Bytes)
    (handled : Lines) : Prop where
  started : ledger.Started handled
  written : ledger.reader.history.written ≤
    ledger.reader.history.taken.length
  owed : ledger.Emitted name ledger.reader.history.taken.length ∨
    ∃ earlier line, ledger.reader.history.taken = earlier ++ [line] ∧
      ledger.Emitted name earlier.length ∧
      (ledger.reader.history.written ≤ earlier.length ∨
        earlier.length ∈ ledger.reader.history.early)

variable {ledger : Ledger}
variable {name : Bytes}
variable {handled : Lines}
variable {event : Bytes}

/-! ## Changes of the ledger -/

/-- The lines dealt with stay so when more events are given away. -/
theorem Emitted.offer
    {count : Nat}
    (emitted : ledger.Emitted name count)
    (more : List (Nat × EventData)) :
    ({ ledger with offered := ledger.offered ++ more } : Ledger).Emitted name
      count := by
  obtain ⟨events, ofLines, given⟩ := emitted
  refine ⟨events, ofLines, fun target inside => ?_⟩
  rw [offeredTo_append]
  exact (given target inside).trans (List.sublist_append_left _ _)

/-- They stay so when the reader goes on. -/
theorem Emitted.setReader
    {count : Nat}
    {reader : Reader}
    (emitted : ledger.Emitted name count)
    (sameHandle : reader.source.pcreHandle =
      ledger.reader.source.pcreHandle)
    (sameFields : reader.source.pcreFields =
      ledger.reader.source.pcreFields)
    (sameLines : reader.history.taken.take count =
      ledger.reader.history.taken.take count) :
    ({ ledger with reader := reader } : Ledger).Emitted name count := by
  obtain ⟨events, ofLines, given⟩ := emitted
  refine ⟨events, ?_, given⟩
  dsimp only
  rw [sameLines, ← ofLines]
  exact List.map_congr_left fun line _ =>
    lineEvent_congr sameHandle sameFields line.raw

/-- Before the next line is taken, all lines have been dealt with. -/
theorem Emitted.polling
    {reader : Reader}
    (emitted : ledger.Emitted name ledger.reader.history.taken.length)
    (polling : Polling ledger.reader reader) :
    ({ ledger with reader := reader } : Ledger).Emitted name
      ledger.reader.history.taken.length := by
  apply emitted.setReader polling.pcreHandle polling.pcreFields
  rcases polling.taken with same | ⟨line, more⟩
  · rw [same]
  · rw [more, List.take_left', List.take_length]
    rfl

/-- If the event of one more line is empty, or every target has been given it,
that line has been dealt with, too. -/
theorem Emitted.succ
    {earlier : List Taken}
    {line : Taken}
    {more : List (Nat × EventData)}
    (emitted : ledger.Emitted name earlier.length)
    (taken : ledger.reader.history.taken = earlier ++ [line])
    (ofLine : ledger.reader.source.lineEvent line.raw = some event)
    (given : event ≠ [] → ∀ target < ledger.targets,
      event ∈ offeredTo more name target) :
    ({ ledger with offered := ledger.offered ++ more } : Ledger).Emitted name
      ledger.reader.history.taken.length := by
  obtain ⟨events, ofLines, before⟩ := emitted
  refine ⟨events ++ [event], ?_, fun target inside => ?_⟩
  · rw [taken, List.take_left'] at ofLines
    · dsimp only
      rw [List.take_length, taken, List.map_append, List.map_append, ofLines,
        List.map_singleton, List.map_singleton, ofLine]
    · rfl
  · rw [List.filter_append, offeredTo_append]
    refine (before target inside).append ?_
    by_cases isEmpty : event = []
    · subst isEmpty
      simp
    · have kept : [event].filter (fun event => !event.isEmpty) = [event] := by
        simp [isEmpty]
      rw [kept, List.singleton_sublist]
      exact given isEmpty target inside

/-! ## Balances -/

/-- A debt stays the same when the reader only reads lines. -/
theorem Owes.setReader
    {reader : Reader}
    (owes : ledger.Owes name handled event)
    (same : reader.aside = ledger.reader.aside)
    (started : ({ ledger with reader := reader } : Ledger).Started handled) :
    ({ ledger with reader := reader } : Ledger).Owes name handled event := by
  have sameHistory : reader.history = ledger.reader.history :=
    congrArg Aside.history same
  have sameHandle : reader.source.pcreHandle =
      ledger.reader.source.pcreHandle := congrArg Aside.pcreHandle same
  have sameFields : reader.source.pcreFields =
      ledger.reader.source.pcreFields := congrArg Aside.pcreFields same
  have kept : ∀ {count : Nat}, ledger.Emitted name count →
      ({ ledger with reader := reader } : Ledger).Emitted name count :=
    fun emitted => emitted.setReader sameHandle sameFields (by rw [sameHistory])
  refine ⟨started, ⟨?_, ?_⟩, ?_⟩
  · dsimp only
    rw [sameHistory]
    exact owes.settled.returned
  · dsimp only
    rw [sameHistory]
    exact owes.settled.written
  · dsimp only
    rw [sameHistory]
    apply owes.owed.imp kept
    rintro ⟨earlier, line, taken, emitted, ofLine, early⟩
    refine ⟨earlier, line, taken, kept emitted, ?_, early⟩
    rw [lineEvent_congr sameHandle sameFields]
    exact ofLine

theorem Started.react
    (started : ledger.Started handled)
    (entry : Entry) :
    ({ ledger with reader := World.react entry ledger.reader } :
      Ledger).Started handled := by
  obtain ⟨start, position, tracked⟩ := started
  exact ⟨start, position, tracked.react entry⟩

theorem Balanced.react
    (balanced : ledger.Balanced name handled)
    (entry : Entry) :
    ({ ledger with reader := World.react entry ledger.reader } :
      Ledger).Balanced name handled :=
  ⟨balanced.started.react entry, ⟨balanced.settled.1, balanced.settled.2⟩,
    balanced.emitted⟩

theorem Owes.react
    (owes : ledger.Owes name handled event)
    (entry : Entry) :
    ({ ledger with reader := World.react entry ledger.reader } :
      Ledger).Owes name handled event :=
  ⟨owes.started.react entry, ⟨owes.settled.1, owes.settled.2⟩, owes.owed⟩

theorem Balanced.pending (balanced : ledger.Balanced name handled) :
    ledger.Pending name handled :=
  ⟨balanced.started, balanced.settled.written, Or.inl balanced.emitted⟩

theorem Owes.pending (owes : ledger.Owes name handled event) :
    ledger.Pending name handled := by
  refine ⟨owes.started, owes.settled.written, owes.owed.imp_right ?_⟩
  rintro ⟨earlier, line, taken, emitted, _, early⟩
  exact ⟨earlier, line, taken, emitted, early⟩

/-- Events of no line can be given away at any time. -/
theorem Balanced.offer
    (balanced : ledger.Balanced name handled)
    (more : List (Nat × EventData)) :
    ({ ledger with offered := ledger.offered ++ more } : Ledger).Balanced name
      handled :=
  ⟨balanced.started, balanced.settled, balanced.emitted.offer more⟩

theorem Owes.offer
    (owes : ledger.Owes name handled event)
    (more : List (Nat × EventData)) :
    ({ ledger with offered := ledger.offered ++ more } : Ledger).Owes name
      handled event := by
  refine ⟨owes.started, owes.settled, ?_⟩
  rcases owes.owed with emitted | ⟨earlier, line, taken, emitted, rest⟩
  · exact Or.inl (emitted.offer more)
  · exact Or.inr ⟨earlier, line, taken, emitted.offer more, rest⟩

/-- A debt is paid by giving the event to every target, if it is not empty. -/
theorem Owes.pay
    {more : List (Nat × EventData)}
    (owes : ledger.Owes name handled event)
    (given : event ≠ [] → ∀ target < ledger.targets,
      event ∈ offeredTo more name target) :
    ({ ledger with offered := ledger.offered ++ more } : Ledger).Balanced name
      handled := by
  refine ⟨owes.started, owes.settled, ?_⟩
  rcases owes.owed with emitted | ⟨earlier, line, taken, emitted, ofLine, _⟩
  · exact emitted.offer more
  · exact emitted.succ taken ofLine given

/-- Inside of a call of the reader at most the event of its line is owed. -/
theorem Balanced.polling
    {reader : Reader}
    (balanced : ledger.Balanced name handled)
    (polling : Polling ledger.reader reader)
    (started : ({ ledger with reader := reader } : Ledger).Started handled) :
    ({ ledger with reader := reader } : Ledger).Pending name handled := by
  have emitted := balanced.emitted.polling polling
  refine ⟨started, polling.written, ?_⟩
  rcases polling.taken with same | ⟨line, more⟩
  · left
    dsimp only
    rw [same]
    exact emitted
  · exact Or.inr ⟨_, line, more, emitted, polling.early⟩

/-- Behind a call of the reader the event that it returned is owed. -/
theorem Balanced.polled
    {reader : Reader}
    (balanced : ledger.Balanced name handled)
    (polling : Polling ledger.reader reader)
    (started : ({ ledger with reader := reader } : Ledger).Started handled)
    (settled : reader.Settled)
    (takes : Takes ledger.reader reader (event = []) fun line =>
      reader.source.lineEvent line.raw = some event) :
    ({ ledger with reader := reader } : Ledger).Owes name handled event := by
  have emitted := balanced.emitted.polling polling
  refine ⟨started, settled, ?_⟩
  rcases takes with ⟨same, _⟩ | ⟨line, more, ofLine⟩
  · left
    dsimp only
    rw [same]
    exact emitted
  · exact Or.inr ⟨_, line, more, emitted, ofLine, polling.early⟩

theorem not_exposed (none : ledger.reader.history.early = []) :
    ¬ledger.Exposed := by
  rintro ⟨earlier, line, _, _, early⟩
  rw [none] at early
  exact List.not_mem_nil early

/-- The checkpoint covers lines that have been dealt with, if it covers no more
than the first ones taken, and these have been. -/
theorem Started.sound
    {count : Nat}
    (started : ledger.Started handled)
    (covered : ledger.reader.history.written ≤ count)
    (emitted : ledger.Emitted name count) :
    ledger.reader.disk.Sound fun inode position raw =>
      handled inode position raw ∨ ledger.Handled name inode position raw := by
  obtain ⟨start, position, tracked⟩ := started
  refine (tracked.sound_of_written fun _ => covered).mono ?_
  intro inode position raw
  exact Or.imp_right fun took => ⟨count, emitted, took⟩

theorem Balanced.sound (balanced : ledger.Balanced name handled) :
    ledger.reader.disk.Sound fun inode position raw =>
      handled inode position raw ∨ ledger.Handled name inode position raw :=
  balanced.started.sound balanced.settled.written balanced.emitted

/-- Where no event is owed, or only one whose call has not completed a
checkpoint, the checkpoint covers lines that have been dealt with. -/
theorem Pending.sound
    (pending : ledger.Pending name handled)
    (guarded : ¬ledger.Exposed) :
    ledger.reader.disk.Sound fun inode position raw =>
      handled inode position raw ∨ ledger.Handled name inode position raw := by
  rcases pending.owed with emitted | ⟨earlier, line, taken, emitted, early⟩
  · exact pending.started.sound pending.written emitted
  · rcases early with covered | own
    · exact pending.started.sound covered emitted
    · have silent : ledger.reader.source.lineEvent line.raw = some [] := by
        by_contra loud
        exact guarded ⟨earlier, line, taken, loud, own⟩
      have paid : ({ ledger with offered := ledger.offered ++ [] } :
          Ledger).Emitted name ledger.reader.history.taken.length :=
        emitted.succ taken silent fun nonempty => absurd rfl nonempty
      rw [List.append_nil] at paid
      exact pending.started.sound pending.written paid

end Ledger

end Daemon
end EvCollect
