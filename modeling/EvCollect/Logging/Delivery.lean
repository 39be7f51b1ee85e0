import Mathlib.Data.List.Sublists
import EvCollect.Logging.Logger

/-!
# What the targets of a logger get

While other threads add targets and change the level, a message gets to every
target that had been added before `log` was called, to none that has not been
added when it returns, and to none more often than it has been added.
-/

namespace EvCollect
namespace Logging

open Transition Slots

variable {τ : Type}

/-- What a maintainer expects of a call of `log` that has returned. -/
structure LogRecord.Right (record : LogRecord τ) : Prop where
  text : ∀ delivery ∈ record.delivered,
    logText record.call.message record.call.args = some delivery.2
  /-- No target gets the message more often than it has been added. -/
  after : (record.delivered.map Prod.fst).Subperm record.after
  levels : record.levels ≠ []
  /-- If the message is never below the level, every target that had been added
  gets it. -/
  before : (∀ minLevel ∈ record.levels,
      minLevel.value ≤ record.call.level.value) →
    record.call.before.Subperm (record.delivered.map Prod.fst)
  /-- If it is always below the level, no target does. -/
  silent : (∀ minLevel ∈ record.levels,
      record.call.level.value < minLevel.value) →
    record.delivered = []

/-! ## Invariants -/

/-- The members of the logger belong together. -/
structure Logger.Sound (logger : Logger τ) : Prop where
  stored : ∀ index target, logger.listeners index = some target →
    index < logger.maxListenerIndex
  added : (contents logger.listeners maxListeners).Perm logger.added
  levels : logger.levels.getLast? = some logger.minLevel

/-- Nothing has been taken away from the logger. -/
structure Logger.Grows (logger later : Logger τ) : Prop where
  listeners : Extends logger.listeners later.listeners
  maxListenerIndex : logger.maxListenerIndex ≤ later.maxListenerIndex
  levels : logger.levels <+: later.levels

/-- The slots that were filled when a call began. -/
structure Began
    (logger : Logger τ)
    (call : LogCall τ)
    (bound : Nat)
    (slots : Nat → Option τ) : Prop where
  grown : Extends slots logger.listeners
  before : (contents slots maxListeners).Perm call.before
  counted : ∀ index target, slots index = some target → index < bound
  since : call.since < logger.levels.length

/-- The message was not below the level at some time during the call. -/
def Passed (logger : Logger τ) (call : LogCall τ) : Prop :=
  ∃ minLevel ∈ logger.levels.drop call.since,
    minLevel.value ≤ call.level.value

/-- What the loop has done before it comes to a slot. -/
structure Collected
    (logger : Logger τ)
    (call : LogCall τ)
    (delivered : List (τ × Bytes))
    (maxIndex index : Nat) : Prop where
  began : ∃ slots, Began logger call maxIndex slots ∧
    (contents slots index).Sublist (delivered.map Prod.fst)
  held : (delivered.map Prod.fst).Sublist (contents logger.listeners index)
  text : ∀ delivery ∈ delivered,
    logText call.message call.args = some delivery.2
  passed : Passed logger call
  inside : index ≤ maxListeners
  counted : maxIndex ≤ logger.maxListenerIndex

/-- What holds where a thread stands. -/
def Thread.Sound (logger : Logger τ) : Thread τ → Prop
  | .idle => True
  | .storing _ _ => True
  | .testing call =>
      (∃ slots, Began logger call logger.maxListenerIndex slots) ∧ call.args ≠ []
  | .entered call text =>
      (∃ slots, Began logger call logger.maxListenerIndex slots) ∧
        logText call.message call.args = some text
  | .counting call text =>
      (∃ slots, Began logger call logger.maxListenerIndex slots) ∧
        logText call.message call.args = some text ∧ Passed logger call
  | .loading call text delivered maxIndex index =>
      Collected logger call delivered maxIndex index ∧
        logText call.message call.args = some text
  | .calling call text delivered maxIndex index listener =>
      Collected logger call delivered maxIndex index ∧
        logText call.message call.args = some text ∧
        index < maxListeners ∧ logger.listeners index = some listener

variable {logger later : Logger τ}

theorem Logger.Grows.refl (logger : Logger τ) : logger.Grows logger where
  listeners := .refl _
  maxListenerIndex := Nat.le_refl _
  levels := List.prefix_refl _

/-! ## What stays as the logger grows -/

section Growth

variable {call : LogCall τ}

theorem Began.grow
    {slots : Nat → Option τ}
    {bound more : Nat}
    (grows : logger.Grows later)
    (le : bound ≤ more)
    (began : Began logger call bound slots) : Began later call more slots where
  grown := began.grown.trans grows.listeners
  before := began.before
  counted := fun index target filled =>
    Nat.lt_of_lt_of_le (began.counted index target filled) le
  since := Nat.lt_of_lt_of_le began.since grows.levels.length_le

theorem Passed.grow
    (grows : logger.Grows later)
    (passed : Passed logger call) : Passed later call := by
  obtain ⟨minLevel, member, le⟩ := passed
  obtain ⟨more, appended⟩ := grows.levels
  refine ⟨minLevel, ?_, le⟩
  rw [← appended, List.drop_append]
  exact List.mem_append_left _ member

theorem Collected.grow
    {delivered : List (τ × Bytes)}
    {maxIndex index : Nat}
    (grows : logger.Grows later)
    (collected : Collected logger call delivered maxIndex index) :
    Collected later call delivered maxIndex index where
  began := by
    obtain ⟨slots, began, reached⟩ := collected.began
    exact ⟨slots, began.grow grows (Nat.le_refl _), reached⟩
  held := collected.held.trans (grows.listeners.contents_sublist index)
  text := collected.text
  passed := collected.passed.grow grows
  inside := collected.inside
  counted := Nat.le_trans collected.counted grows.maxListenerIndex

theorem Thread.Sound.grow
    {thread : Thread τ}
    (grows : logger.Grows later)
    (sound : thread.Sound logger) : thread.Sound later := by
  have began (call : LogCall τ) :
      (∃ slots, Began logger call logger.maxListenerIndex slots) →
        ∃ slots, Began later call later.maxListenerIndex slots :=
    fun ⟨slots, began⟩ => ⟨slots, began.grow grows grows.maxListenerIndex⟩
  cases thread with
  | idle => trivial
  | storing target index => trivial
  | testing call => exact ⟨began call sound.1, sound.2⟩
  | entered call text => exact ⟨began call sound.1, sound.2⟩
  | counting call text =>
      exact ⟨began call sound.1, sound.2.1, sound.2.2.grow grows⟩
  | loading call text delivered maxIndex index =>
      exact ⟨sound.1.grow grows, sound.2⟩
  | calling call text delivered maxIndex index listener =>
      obtain ⟨collected, isText, inside, held⟩ := sound
      exact ⟨collected.grow grows, isText, inside, grows.listeners _ _ held⟩

end Growth

/-! ## The members of the logger -/

theorem Logger.Sound.length_pos
    (sound : logger.Sound) : 0 < logger.levels.length := by
  have last := List.mem_of_getLast? sound.levels
  exact List.length_pos_of_mem last

/-- The present level is one of those since a call began. -/
theorem Logger.Sound.mem_drop
    {since : Nat}
    (sound : logger.Sound)
    (inside : since < logger.levels.length) :
    logger.minLevel ∈ logger.levels.drop since := by
  refine List.mem_of_getLast? ?_
  rw [List.getLast?_drop, if_neg (Nat.not_le.mpr inside), sound.levels]

/-- A call that begins has the slots that are filled then. -/
theorem Logger.Sound.begin
    (sound : logger.Sound)
    (level : LogLevel)
    (message : Bytes)
    (args : List Bytes) :
    Began logger (logger.begin level message args) logger.maxListenerIndex
      logger.listeners where
  grown := .refl _
  before := sound.added
  counted := sound.stored
  since := Nat.sub_one_lt (Nat.ne_of_gt sound.length_pos)

theorem Logger.Grows.increment (logger : Logger τ) :
    logger.Grows
      { logger with maxListenerIndex := logger.maxListenerIndex + 1 } where
  listeners := .refl _
  maxListenerIndex := Nat.le_succ _
  levels := List.prefix_refl _

theorem Logger.Sound.increment
    (sound : logger.Sound) :
    Logger.Sound
      { logger with maxListenerIndex := logger.maxListenerIndex + 1 } where
  stored := fun index target filled =>
    Nat.lt_succ_of_lt (sound.stored index target filled)
  added := sound.added
  levels := sound.levels

theorem Logger.Grows.setLevel (logger : Logger τ) (level : LogLevel) :
    logger.Grows
      { logger with
        minLevel := level
        levels := logger.levels ++ [level] } where
  listeners := .refl _
  maxListenerIndex := Nat.le_refl _
  levels := List.prefix_append _ _

theorem Logger.Sound.setLevel
    (sound : logger.Sound)
    (level : LogLevel) :
    Logger.Sound
      { logger with
        minLevel := level
        levels := logger.levels ++ [level] } where
  stored := sound.stored
  added := sound.added
  levels := List.getLast?_concat

section Store

variable {index : Nat}

theorem Logger.Grows.store
    (empty : logger.listeners index = none)
    (target : τ) : logger.Grows (logger.store target index) where
  listeners := extends_update empty target
  maxListenerIndex := Nat.le_refl _
  levels := List.prefix_refl _

theorem Logger.Sound.store
    (sound : logger.Sound)
    (empty : logger.listeners index = none)
    (counted : index < logger.maxListenerIndex)
    (inside : index < maxListeners)
    (target : τ) : (logger.store target index).Sound where
  stored := by
    intro other held filled
    by_cases same : other = index
    · exact same ▸ counted
    · have kept : (logger.store target index).listeners other =
          logger.listeners other := Function.update_of_ne same _ _
      exact sound.stored other held (kept.symm.trans filled)
  added :=
    have filled := contents_update empty inside target
    have last := List.perm_append_singleton target logger.added
    (filled.trans (sound.added.cons target)).trans last.symm
  levels := sound.levels

end Store

/-! ## Steps of a call -/

section Calls

variable {call : LogCall τ}

theorem LogRecord.right_of_silent
    (sound : logger.Sound)
    (since : call.since < logger.levels.length)
    (below : call.level.value < logger.minLevel.value) :
    LogRecord.Right {
      call := call
      delivered := []
      after := logger.added
      levels := logger.levels.drop call.since } where
  text := nofun
  after := List.nil_subperm
  levels := List.ne_nil_of_mem (sound.mem_drop since)
  before := fun never =>
    absurd (never _ (sound.mem_drop since)) (Nat.not_le.mpr below)
  silent := fun _ => rfl

/-- The loop has come to the end. -/
theorem Collected.right
    {delivered : List (τ × Bytes)}
    {maxIndex index : Nat}
    (sound : logger.Sound)
    (collected : Collected logger call delivered maxIndex index)
    (ends : maxIndex ≤ index) :
    LogRecord.Right {
      call := call
      delivered := delivered
      after := logger.added
      levels := logger.levels.drop call.since } where
  text := collected.text
  after :=
    have all := collected.held.trans
      (contents_sublist_of_le logger.listeners collected.inside)
    all.subperm.trans sound.added.subperm
  levels := by
    obtain ⟨minLevel, member, -⟩ := collected.passed
    exact List.ne_nil_of_mem member
  before := by
    intro _
    obtain ⟨slots, began, reached⟩ := collected.began
    have all : contents slots maxListeners = contents slots index :=
      contents_eq_of_le (fun other target filled =>
        Nat.lt_of_lt_of_le (began.counted other target filled) ends)
        collected.inside
    rw [← all] at reached
    exact began.before.symm.subperm.trans reached.subperm
  silent := by
    intro always
    obtain ⟨minLevel, member, le⟩ := collected.passed
    exact absurd (always minLevel member) (Nat.not_lt.mpr le)

theorem Collected.start
    {slots : Nat → Option τ}
    (began : Began logger call logger.maxListenerIndex slots)
    (passed : Passed logger call) :
    Collected logger call [] logger.maxListenerIndex 0 where
  began := ⟨slots, began, List.Sublist.refl _⟩
  held := List.Sublist.refl _
  text := nofun
  passed := passed
  inside := Nat.zero_le _
  counted := Nat.le_refl _

/-- An empty slot was empty when the call began. -/
theorem Collected.skip
    {delivered : List (τ × Bytes)}
    {maxIndex index : Nat}
    (collected : Collected logger call delivered maxIndex index)
    (inside : index < maxListeners)
    (empty : logger.listeners index = none) :
    Collected logger call delivered maxIndex (index + 1) where
  began := by
    obtain ⟨slots, began, reached⟩ := collected.began
    have wasEmpty : slots index = none := by
      cases held : slots index with
      | none => rfl
      | some target =>
          rw [began.grown index target held] at empty
          cases empty
    refine ⟨slots, began, ?_⟩
    rwa [contents_succ, wasEmpty, Option.toList, List.append_nil]
  held := by
    rw [contents_succ, empty, Option.toList, List.append_nil]
    exact collected.held
  text := collected.text
  passed := collected.passed
  inside := inside
  counted := collected.counted

/-- A filled slot was empty when the call began, or held the same target. -/
theorem Collected.deliver
    {text : Bytes}
    {delivered : List (τ × Bytes)}
    {maxIndex index : Nat}
    {listener : τ}
    (collected : Collected logger call delivered maxIndex index)
    (isText : logText call.message call.args = some text)
    (inside : index < maxListeners)
    (held : logger.listeners index = some listener) :
    Collected logger call (delivered ++ [(listener, text)]) maxIndex
      (index + 1) where
  began := by
    obtain ⟨slots, began, reached⟩ := collected.began
    refine ⟨slots, began, ?_⟩
    rw [contents_succ, List.map_append]
    refine reached.append ?_
    cases was : slots index with
    | none => exact List.nil_sublist _
    | some target =>
        cases Option.some.inj ((began.grown index target was).symm.trans held)
        exact List.Sublist.refl _
  held := by
    rw [contents_succ, List.map_append, held]
    exact collected.held.append (List.Sublist.refl _)
  text := by
    intro delivery member
    rcases List.mem_append.mp member with earlier | last
    · exact collected.text delivery earlier
    · cases List.mem_singleton.mp last
      exact isText
  passed := collected.passed
  inside := inside
  counted := collected.counted

end Calls

/-- A thread that is about to store a target has an empty slot. -/
def Thread.Waiting (logger : Logger τ) (thread : Thread τ) : Prop :=
  ∀ target index, thread = .storing target index →
    index < logger.maxListenerIndex ∧ logger.listeners index = none

/-- What a step of a thread keeps. -/
structure Advanced
    (logger : Logger τ)
    (thread : Thread τ)
    (moved : Moved τ) : Prop where
  grows : logger.Grows moved.logger
  sound : moved.logger.Sound
  holds : moved.thread.Sound moved.logger
  /-- A slot that the thread is about to store to has just been taken. -/
  fresh : ∀ target index, moved.thread = .storing target index →
    index = logger.maxListenerIndex ∧ index < moved.logger.maxListenerIndex ∧
      moved.logger.listeners index = none
  record : ∀ record ∈ moved.record, record.Right
  /-- Only the slot of a thread in `addTarget` is written. -/
  kept : ∀ index, (∀ target, thread ≠ .storing target index) →
    moved.logger.listeners index = logger.listeners index

theorem Advanced.of_same
    {thread after : Thread τ}
    {record : Option (LogRecord τ)}
    (sound : logger.Sound)
    (holds : after.Sound logger)
    (notStoring : ∀ target index, after ≠ .storing target index)
    (right : ∀ record' ∈ record, record'.Right) :
    Advanced logger thread
      { thread := after, logger := logger, record := record } where
  grows := .refl _
  sound := sound
  holds := holds
  fresh := fun target index stores => absurd stores (notStoring target index)
  record := right
  kept := fun _ _ => rfl

theorem Advanced.of_finish
    {thread : Thread τ}
    {call : LogCall τ}
    {delivered : List (τ × Bytes)}
    (sound : logger.Sound)
    (right : LogRecord.Right {
      call := call
      delivered := delivered
      after := logger.added
      levels := logger.levels.drop call.since }) :
    Advanced logger thread (logger.finish call delivered) :=
  .of_same sound trivial nofun fun _ member => Option.some.inj member ▸ right

/-- A step of a thread, one case for each place where it can stand. -/
theorem Logger.advance_sound
    {thread : Thread τ}
    {moved : Moved τ}
    (sound : logger.Sound)
    (holds : thread.Sound logger)
    (waiting : thread.Waiting logger)
    (advanced : logger.advance thread = some (.ok moved)) :
    Advanced logger thread moved := by
  cases thread with
  | idle => cases advanced
  | storing target index =>
      obtain ⟨counted, empty⟩ := waiting target index rfl
      rw [Logger.advance] at advanced
      split at advanced
      next inside =>
        cases advanced
        exact {
          grows := .store empty target
          sound := sound.store empty counted inside target
          holds := trivial
          fresh := nofun
          record := nofun
          kept := fun other others =>
            Function.update_of_ne (fun same =>
              others target (congrArg (Thread.storing target) same.symm)) _ _ }
      next => cases advanced
  | testing call =>
      obtain ⟨⟨slots, began⟩, arguments⟩ := holds
      rw [Logger.advance] at advanced
      split at advanced
      next above =>
        split at advanced
        next text formatted =>
          cases advanced
          have isText : logText call.message call.args = some text := by
            rw [logText, if_neg arguments, formatted]
          exact .of_same sound ⟨⟨slots, began⟩, isText⟩ nofun nofun
        next => cases advanced
      next below =>
        cases advanced
        exact .of_finish sound
          (LogRecord.right_of_silent sound began.since (Nat.not_le.mp below))
  | entered call text =>
      obtain ⟨⟨slots, began⟩, isText⟩ := holds
      rw [Logger.advance] at advanced
      split at advanced
      next below =>
        cases advanced
        exact .of_finish sound
          (LogRecord.right_of_silent sound began.since below)
      next above =>
        cases advanced
        have passed : Passed logger call :=
          ⟨logger.minLevel, sound.mem_drop began.since, Nat.not_lt.mp above⟩
        exact .of_same sound ⟨⟨slots, began⟩, isText, passed⟩ nofun nofun
  | counting call text =>
      obtain ⟨⟨slots, began⟩, isText, passed⟩ := holds
      cases advanced
      exact .of_same sound ⟨.start began passed, isText⟩ nofun nofun
  | loading call text delivered maxIndex index =>
      obtain ⟨collected, isText⟩ := holds
      rw [Logger.advance] at advanced
      split at advanced
      next =>
        split at advanced
        next inside =>
          split at advanced
          next listener held =>
            cases advanced
            exact .of_same sound ⟨collected, isText, inside, held⟩ nofun nofun
          next empty =>
            cases advanced
            exact .of_same sound ⟨collected.skip inside empty, isText⟩ nofun nofun
        next => cases advanced
      next ends =>
        cases advanced
        exact .of_finish sound (collected.right sound (Nat.not_lt.mp ends))
  | calling call text delivered maxIndex index listener =>
      obtain ⟨collected, isText, inside, held⟩ := holds
      cases advanced
      exact .of_same sound ⟨collected.deliver isText inside held, isText⟩
        nofun nofun

/-- A step has no defined outcome behind the end of the array only. -/
theorem Logger.maxListeners_lt_of_undefined
    {thread : Thread τ}
    (holds : thread.Sound logger)
    (waiting : thread.Waiting logger)
    (advanced : logger.advance thread = some (.error .listener)) :
    maxListeners < logger.maxListenerIndex := by
  cases thread with
  | idle => cases advanced
  | storing target index =>
      have counted := (waiting target index rfl).1
      rw [Logger.advance] at advanced
      split at advanced
      next => cases advanced
      next outside => exact Nat.lt_of_le_of_lt (Nat.not_lt.mp outside) counted
  | testing call =>
      rw [Logger.advance] at advanced
      split at advanced
      next =>
        split at advanced
        next => cases advanced
        next => cases advanced
      next => cases advanced
  | entered call text =>
      rw [Logger.advance] at advanced
      split at advanced
      next => cases advanced
      next => cases advanced
  | counting call text => cases advanced
  | loading call text delivered maxIndex index =>
      have counted := holds.1.counted
      rw [Logger.advance] at advanced
      split at advanced
      next less =>
        split at advanced
        next =>
          split at advanced
          next => cases advanced
          next => cases advanced
        next outside => omega
      next => cases advanced
  | calling call text delivered maxIndex index listener => cases advanced

/-! ## Runs -/

structure System.Sound (system : System τ) : Prop where
  logger : system.logger.Sound
  threads : ∀ thread, (system.threads thread).Sound system.logger
  waiting : ∀ thread, (system.threads thread).Waiting system.logger
  /-- No two threads store to the same slot. -/
  distinct : ∀ thread other target target' index,
    system.threads thread = .storing target index →
      system.threads other = .storing target' index → thread = other
  records : ∀ record ∈ system.records, record.Right
  undefined : system.undefined = some .listener →
    maxListeners < system.logger.maxListenerIndex

theorem System.sound_initial : System.Sound ({} : System τ) where
  logger := {
    stored := nofun
    added := List.Perm.refl _
    levels := rfl }
  threads := fun _ => trivial
  waiting := nofun
  distinct := nofun
  records := nofun
  undefined := nofun

variable {system : System τ}
variable {thread : Nat}

/-- A thread has moved. -/
theorem System.Sound.moved
    {moved : Moved τ}
    (sound : system.Sound)
    (advanced : Advanced system.logger (system.threads thread) moved) :
    (system.moved thread moved).Sound where
  logger := advanced.sound
  threads := by
    intro other
    change (Function.update system.threads thread moved.thread other).Sound
      moved.logger
    by_cases same : other = thread
    · subst same
      rw [Function.update_self]
      exact advanced.holds
    · rw [Function.update_of_ne same]
      exact (sound.threads other).grow advanced.grows
  waiting := by
    intro other target index
    change Function.update system.threads thread moved.thread other = _ →
      index < moved.logger.maxListenerIndex ∧ moved.logger.listeners index = none
    intro stores
    by_cases same : other = thread
    · subst same
      rw [Function.update_self] at stores
      exact (advanced.fresh target index stores).2
    · rw [Function.update_of_ne same] at stores
      obtain ⟨counted, empty⟩ := sound.waiting other target index stores
      have others : ∀ target', system.threads thread ≠ .storing target' index :=
        fun target' stores' =>
          same (sound.distinct other thread target target' index stores stores')
      refine ⟨Nat.lt_of_lt_of_le counted advanced.grows.maxListenerIndex, ?_⟩
      rw [advanced.kept index others, empty]
  distinct := by
    -- A slot that has just been taken is none that another thread waits for.
    have apart : ∀ other target target' index,
        system.threads other = .storing target index →
          moved.thread ≠ .storing target' index := by
      intro other target target' index stores stores'
      have counted := (sound.waiting other target index stores).1
      have isNext := (advanced.fresh target' index stores').1
      exact absurd isNext (Nat.ne_of_lt counted)
    intro first second target target' index
    change Function.update system.threads thread moved.thread first = _ →
      Function.update system.threads thread moved.thread second = _ → _
    intro stores stores'
    by_cases isFirst : first = thread
    · by_cases isSecond : second = thread
      · exact isFirst.trans isSecond.symm
      · rw [isFirst, Function.update_self] at stores
        rw [Function.update_of_ne isSecond] at stores'
        exact absurd stores (apart second target' target index stores')
    · rw [Function.update_of_ne isFirst] at stores
      by_cases isSecond : second = thread
      · rw [isSecond, Function.update_self] at stores'
        exact absurd stores' (apart first target target' index stores)
      · rw [Function.update_of_ne isSecond] at stores'
        exact sound.distinct first second target target' index stores stores'
  records := by
    intro record member
    rcases List.mem_append.mp member with earlier | last
    · exact sound.records record earlier
    · exact advanced.record record (Option.mem_toList.mp last)
  undefined := fun undefined =>
    Nat.lt_of_lt_of_le (sound.undefined undefined) advanced.grows.maxListenerIndex

/-- A call of `addTarget` begins. -/
theorem Advanced.addTarget
    (sound : logger.Sound)
    (target : τ) :
    Advanced logger (.idle : Thread τ) {
      thread := .storing target logger.maxListenerIndex
      logger := { logger with
        maxListenerIndex := logger.maxListenerIndex + 1 } } where
  grows := .increment logger
  sound := sound.increment
  holds := trivial
  fresh := by
    intro target' index stores
    cases stores
    have empty : logger.listeners logger.maxListenerIndex = none := by
      cases held : logger.listeners logger.maxListenerIndex with
      | none => rfl
      | some other =>
          exact absurd (sound.stored _ other held) (Nat.lt_irrefl _)
    exact ⟨rfl, Nat.lt_succ_self _, empty⟩
  record := nofun
  kept := fun _ _ => rfl

/-- A call of `log` begins. -/
theorem Advanced.log
    (sound : logger.Sound)
    (level : LogLevel)
    (message : Bytes)
    (args : List Bytes) :
    Advanced logger (.idle : Thread τ) {
      thread :=
        if args = [] then .entered (logger.begin level message args) message
        else .testing (logger.begin level message args)
      logger := logger } := by
  have began := sound.begin level message args
  by_cases noArgs : args = []
  · rw [if_pos noArgs]
    exact .of_same sound ⟨⟨_, began⟩, if_pos noArgs⟩ nofun nofun
  · rw [if_neg noArgs]
    exact .of_same sound ⟨⟨_, began⟩, noArgs⟩ nofun nofun

/-- A step, one case for each action. -/
theorem System.Sound.step
    {action : Action τ}
    {after : System τ}
    (sound : system.Sound)
    (taken : system.step action = some after) : after.Sound := by
  unfold System.step at taken
  split at taken
  next => cases taken
  next defined =>
    cases action with
    | addTarget thread target =>
        dsimp only at taken
        split at taken
        next idle =>
          cases taken
          exact sound.moved (idle ▸ Advanced.addTarget sound.logger target)
        next => cases taken
    | setMinimumLogLevel level =>
        cases taken
        have grows := Logger.Grows.setLevel system.logger level
        exact {
          logger := sound.logger.setLevel level
          threads := fun thread => (sound.threads thread).grow grows
          waiting := sound.waiting
          distinct := sound.distinct
          records := sound.records
          undefined := sound.undefined }
    | log thread level message args =>
        dsimp only at taken
        split at taken
        next idle =>
          cases taken
          exact sound.moved
            (idle ▸ Advanced.log sound.logger level message args)
        next => cases taken
    | advance thread =>
        dsimp only at taken
        split at taken
        next => cases taken
        next undefined advanced =>
          cases taken
          exact { sound with
            undefined := by
              intro isListener
              cases isListener
              exact Logger.maxListeners_lt_of_undefined (sound.threads thread)
                (sound.waiting thread) advanced }
        next result advanced =>
          cases taken
          exact sound.moved (Logger.advance_sound sound.logger
            (sound.threads thread) (sound.waiting thread) advanced)

/-- In every interleaving of threads that add targets, set the level and log,
every call of `log` that has returned is right, and no access is outside of the
array before more targets are added than it has slots. -/
theorem log_right
    {system : System τ}
    (reached : Reachable System.step anyAction {} system) :
    (∀ record ∈ system.records, record.Right) ∧
      (system.undefined = some .listener →
        maxListeners < system.logger.maxListenerIndex) := by
  have sound : system.Sound :=
    reached.invariant System.Sound System.sound_initial
      fun _ _ _ sound _ taken => sound.step taken
  exact ⟨sound.records, sound.undefined⟩

/-- A target is added, and another one while a message is logged. -/
def addWhileLogging : List (Action Nat) :=
  [.addTarget 0 10, .advance 0, .log 1 .fatal (bytes "error: $0") [bytes "a"],
    .addTarget 0 20, .advance 1, .advance 1, .advance 1, .advance 1,
    .advance 0, .advance 1, .advance 1, .advance 1, .advance 1]

theorem log_right_addWhileLogging :
    ∃ (system : System Nat) (record : LogRecord Nat),
      record ∈ system.records ∧
      record.delivered = [(10, bytes "error: a"), (20, bytes "error: a")] ∧
      record.call.before = [10] ∧ record.Right := by
  obtain ⟨system, ran, record, member, delivered, before⟩ : ∃ system,
      runWith System.step (fun _ _ => true) addWhileLogging {} = some system ∧
      ∃ record ∈ system.records,
        record.delivered = [(10, bytes "error: a"), (20, bytes "error: a")] ∧
        record.call.before = [10] :=
    ⟨_, rfl, _, List.mem_singleton_self _, rfl, rfl⟩
  have right := log_right
    (reachable_of_runWith (fun _ _ _ => trivial) addWhileLogging ran)
  exact ⟨system, record, member, delivered, before, right.1 record member⟩

end Logging
end EvCollect
