import EvCollect.Daemon.PidFile

/-!
# Which daemons can run at the same time

A lock has one holder, and the file of a daemon that runs holds its number. That
daemons with one pid file exclude each other takes more: no daemon may remove
the path while another one has opened the file and not locked it yet.
-/

namespace EvCollect
namespace PidFile

open Transition

/-! ## Steps -/

/-- What a step can do, one case for each outcome. -/
inductive Outcome (world : World) : Action → World → Prop
  | openFails {pid : Pid} {fd : Int}
      (starting : world.phase pid = .starting)
      (failed : fd < 0) :
      Outcome world (.openFile pid fd) (world.setPhase pid .exited)
  | opens {pid : Pid} {fd : Int}
      (starting : world.phase pid = .starting)
      (valid : 0 ≤ fd) :
      Outcome world (.openFile pid fd) (world.openPath pid fd.toNat)
  | locks {pid : Pid} {handle : Handle}
      (opened : world.phase pid = .opened handle)
      (free : world.holder handle.inode = none) :
      Outcome world (.flock pid true)
        ((world.setHolder handle.inode (some pid)).setPhase pid
          (.locked handle))
  | refused {pid : Pid} {granted : Bool} {handle : Handle}
      (opened : world.phase pid = .opened handle)
      (denied : granted = false ∨ world.holder handle.inode ≠ none) :
      Outcome world (.flock pid granted) (world.setPhase pid .exited)
  | truncates {pid : Pid} {handle : Handle}
      (locked : world.phase pid = .locked handle) :
      Outcome world (.ftruncate pid true)
        ((world.setContents handle.inode []).setPhase pid (.truncated handle))
  | truncateFails {pid : Pid} {handle : Handle}
      (locked : world.phase pid = .locked handle) :
      Outcome world (.ftruncate pid false) (world.giveUp pid handle)
  | writes {pid : Pid} {handle : Handle}
      (truncated : world.phase pid = .truncated handle) :
      Outcome world (.write pid (pidText pid).length)
        ((world.setContents handle.inode
          (World.overwrite (pidText pid).length (pidText pid)
            (world.contents handle.inode))).setPhase pid (.running handle))
  | writeFails {pid : Pid} {count : Int} {handle : Handle}
      (truncated : world.phase pid = .truncated handle)
      (short : count < (pidText pid).length) :
      Outcome world (.write pid count)
        ((world.setContents handle.inode
          (World.overwrite count.toNat (pidText pid)
            (world.contents handle.inode))).giveUp pid handle)
  | unlinks {pid : Pid} {handle : Handle}
      (running : world.phase pid = .running handle)
      (positive : 0 < handle.fd) :
      Outcome world (.unlink pid true)
        (World.setPhase pid (.unlinked handle) { world with path := none })
  | unlinkFails {pid : Pid} {handle : Handle}
      (running : world.phase pid = .running handle)
      (positive : 0 < handle.fd) :
      Outcome world (.unlink pid false) (world.setPhase pid (.unlinked handle))
  | leaves {pid : Pid} {handle : Handle}
      (running : world.phase pid = .running handle)
      (zero : handle.fd = 0) :
      Outcome world (.leave pid) (world.giveUp pid handle)
  | unlocks {pid : Pid} {handle : Handle}
      (unlinked : world.phase pid = .unlinked handle) :
      Outcome world (.unlock pid)
        ((world.setHolder handle.inode none).setPhase pid (.unlocked handle))
  | closes {pid : Pid} {handle : Handle}
      (unlocked : world.phase pid = .unlocked handle) :
      Outcome world (.close pid) (world.setPhase pid .exited)
  | killedHolding {pid : Pid} {handle : Handle}
      (held : (world.phase pid).holding = some handle.inode) :
      Outcome world (.crash pid) (world.giveUp pid handle)
  | killed {pid : Pid}
      (holdsNone : (world.phase pid).holding = none) :
      Outcome world (.crash pid) (world.setPhase pid .exited)

theorem outcome_of_step
    {world world' : World}
    {action : Action}
    (taken : world.step action = some world') :
    Outcome world action world' := by
  cases action with
  | openFile pid fd =>
      simp only [World.step] at taken
      split at taken
      next starting =>
        split at taken
        next failed => cases taken; exact .openFails starting failed
        next valid => cases taken; exact .opens starting (Int.not_lt.mp valid)
      next => cases taken
  | flock pid granted =>
      simp only [World.step] at taken
      split at taken
      next handle opened =>
        split at taken
        next free =>
          obtain ⟨rfl, free⟩ := free
          cases taken
          exact .locks opened free
        next denied =>
          cases taken
          refine .refused opened ?_
          rw [Decidable.not_and_iff_or_not, Bool.not_eq_true] at denied
          exact denied
      next => cases taken
  | ftruncate pid ok =>
      simp only [World.step] at taken
      split at taken
      next handle locked =>
        split at taken
        next done =>
          subst done
          cases taken
          exact .truncates locked
        next failed =>
          rw [Bool.not_eq_true] at failed
          subst failed
          cases taken
          exact .truncateFails locked
      next => cases taken
  | write pid count =>
      simp only [World.step] at taken
      split at taken
      next handle truncated =>
        split at taken
        next => cases taken
        next bounded =>
          split at taken
          next whole =>
            subst whole
            cases taken
            exact .writes truncated
          next short =>
            cases taken
            exact .writeFails truncated (by omega)
      next => cases taken
  | unlink pid ok =>
      simp only [World.step] at taken
      split at taken
      next handle running =>
        split at taken
        next positive =>
          cases ok
          · cases taken
            exact .unlinkFails running positive
          · cases taken
            exact .unlinks running positive
        next => cases taken
      next => cases taken
  | leave pid =>
      simp only [World.step] at taken
      split at taken
      next handle running =>
        split at taken
        next => cases taken
        next zero =>
          cases taken
          exact .leaves running (Nat.eq_zero_of_not_pos zero)
      next => cases taken
  | unlock pid =>
      simp only [World.step] at taken
      split at taken
      next handle unlinked => cases taken; exact .unlocks unlinked
      next => cases taken
  | close pid =>
      simp only [World.step] at taken
      split at taken
      next handle unlocked => cases taken; exact .closes unlocked
      next => cases taken
  | crash pid =>
      simp only [World.step] at taken
      split at taken
      next => cases taken
      next handle locked =>
        cases taken
        exact .killedHolding (by rw [locked]; rfl)
      next handle truncated =>
        cases taken
        exact .killedHolding (by rw [truncated]; rfl)
      next handle running =>
        cases taken
        exact .killedHolding (by rw [running]; rfl)
      next handle unlinked =>
        cases taken
        exact .killedHolding (by rw [unlinked]; rfl)
      next starting => cases taken; exact .killed (by rw [starting]; rfl)
      next handle opened => cases taken; exact .killed (by rw [opened]; rfl)
      next handle unlocked =>
        cases taken
        exact .killed (by rw [unlocked]; rfl)

/-! ## Invariants of every run -/

/-- What holds whatever the daemons and the kernel do. -/
structure Consistent (world : World) : Prop where
  /-- The kernel and the daemons agree about the locks. -/
  holds : ∀ inode pid, world.holder inode = some pid ↔
    (world.phase pid).holding = some inode
  known : ∀ pid inode, (world.phase pid).inode = some inode →
    inode < world.fresh
  pathKnown : ∀ inode, world.path = some inode → inode < world.fresh
  written : ∀ pid inode text, (world.phase pid).holding = some inode →
    (world.phase pid).text pid = some text → world.contents inode = text

/-- A lock has one holder. -/
theorem Consistent.holder_unique
    {world : World}
    (consistent : Consistent world)
    {pid other : Pid}
    {inode : Inode}
    (held : (world.phase pid).holding = some inode)
    (held' : (world.phase other).holding = some inode) : other = pid := by
  have mine := (consistent.holds inode pid).mpr held
  have theirs := (consistent.holds inode other).mpr held'
  exact Option.some.inj (theirs.symm.trans mine)

theorem consistent_initial (stale : Option Bytes) :
    Consistent (World.initial stale) where
  holds inode pid := by simp [World.initial, Phase.holding]
  known pid inode opened := by simp [World.initial, Phase.inode] at opened
  pathKnown inode named := by
    obtain ⟨text, -, rfl⟩ := Option.map_eq_some_iff.mp named
    exact Nat.one_pos
  written pid inode text held := by
    simp [World.initial, Phase.holding] at held

section Steps

variable {world : World} {pid : Pid} {phase : Phase}

/-- A step of one daemon. It may change its own locks and the files that nobody
else has locked. -/
theorem Consistent.move
    (consistent : Consistent world)
    {world' : World}
    (phases : world'.phase = Function.update world.phase pid phase)
    (locks : ∀ inode other, other ≠ pid →
      (world'.holder inode = some other ↔ world.holder inode = some other))
    (own : ∀ inode, world'.holder inode = some pid ↔
      phase.holding = some inode)
    (grows : world.fresh ≤ world'.fresh)
    (opened : ∀ inode, phase.inode = some inode → inode < world'.fresh)
    (pathKnown : ∀ inode, world'.path = some inode → inode < world'.fresh)
    (kept : ∀ inode other, other ≠ pid → world.holder inode = some other →
      world'.contents inode = world.contents inode)
    (text : ∀ inode text, phase.holding = some inode →
      phase.text pid = some text → world'.contents inode = text) :
    Consistent world' where
  holds inode other := by
    rw [phases, Function.update_apply]
    split
    next same => rw [same]; exact own inode
    next different =>
      rw [locks inode other different, consistent.holds inode other]
  known other inode := by
    rw [phases, Function.update_apply]
    split
    next => exact opened inode
    next => exact fun open' =>
      Nat.lt_of_lt_of_le (consistent.known other inode open') grows
  pathKnown := pathKnown
  written other inode content := by
    rw [phases, Function.update_apply]
    split
    next same => rw [same]; exact text inode content
    next different =>
      intro held knows
      rw [kept inode other different ((consistent.holds inode other).mpr held)]
      exact consistent.written other inode content held knows

/-- A daemon goes on without a change to a file or a lock. -/
theorem Consistent.setPhase
    (consistent : Consistent world)
    (sameLock : phase.holding = (world.phase pid).holding)
    (opened : ∀ inode, phase.inode = some inode →
      (world.phase pid).inode = some inode)
    (text : ∀ text, phase.text pid = some text →
      (world.phase pid).text pid = some text) :
    Consistent (world.setPhase pid phase) := by
  apply consistent.move rfl
  · exact fun _ _ _ => Iff.rfl
  · exact fun inode => sameLock ▸ consistent.holds inode pid
  · exact Nat.le_refl _
  · exact fun inode open' => consistent.known pid inode (opened inode open')
  · exact consistent.pathKnown
  · exact fun _ _ _ _ => rfl
  · intro inode content held knows
    exact consistent.written pid inode content (sameLock ▸ held)
      (text content knows)

/-- A daemon gives up its lock. -/
theorem Consistent.release
    (consistent : Consistent world)
    {inode : Inode}
    (held : (world.phase pid).holding = some inode)
    (holdsNone : phase.holding = none)
    (opened : ∀ inode, phase.inode = some inode →
      (world.phase pid).inode = some inode) :
    Consistent ((world.setHolder inode none).setPhase pid phase) := by
  have holder := (consistent.holds inode pid).mpr held
  apply consistent.move rfl
  · intro place other different
    simp only [World.holder_setPhase, World.holder_setHolder,
      Function.update_apply]
    split
    next same =>
      rw [same, holder]
      exact iff_of_false (Option.some_ne_none other).symm
        fun equal => different (Option.some.inj equal).symm
    next => exact Iff.rfl
  · intro place
    simp only [World.holder_setPhase, World.holder_setHolder,
      Function.update_apply, holdsNone]
    split
    next =>
      exact iff_of_false (Option.some_ne_none pid).symm
        (Option.some_ne_none place).symm
    next elsewhere =>
      rw [consistent.holds place pid, held, Option.some_inj]
      exact iff_of_false (fun equal => elsewhere equal.symm)
        (Option.some_ne_none place).symm
  · exact Nat.le_refl _
  · exact fun place open' => consistent.known pid place (opened place open')
  · exact consistent.pathKnown
  · exact fun _ _ _ _ => rfl
  · intro place content held'
    rw [holdsNone] at held'
    cases held'

/-- A daemon takes a lock that is free. -/
theorem Consistent.acquire
    (consistent : Consistent world)
    {inode : Inode}
    (free : world.holder inode = none)
    (holdsNone : (world.phase pid).holding = none)
    (takes : phase.holding = some inode)
    (opened : phase.inode = (world.phase pid).inode)
    (text : phase.text pid = none) :
    Consistent ((world.setHolder inode (some pid)).setPhase pid phase) := by
  apply consistent.move rfl
  · intro place other different
    simp only [World.holder_setPhase, World.holder_setHolder,
      Function.update_apply]
    split
    next same =>
      rw [same, free, Option.some_inj]
      exact iff_of_false (fun equal => different equal.symm)
        (Option.some_ne_none other).symm
    next => exact Iff.rfl
  · intro place
    simp only [World.holder_setPhase, World.holder_setHolder,
      Function.update_apply, takes, Option.some_inj]
    split
    next same => exact iff_of_true rfl same.symm
    next elsewhere =>
      rw [consistent.holds place pid, holdsNone]
      exact iff_of_false (Option.some_ne_none place).symm
        fun equal => elsewhere equal.symm
  · exact Nat.le_refl _
  · exact fun place open' => consistent.known pid place (opened ▸ open')
  · exact consistent.pathKnown
  · exact fun _ _ _ _ => rfl
  · intro place content _ knows
    rw [text] at knows
    cases knows

/-- A daemon writes the file that it has locked. -/
theorem Consistent.rewrite
    (consistent : Consistent world)
    {inode : Inode}
    {content : Bytes}
    (held : (world.phase pid).holding = some inode)
    (keeps : phase.holding = some inode)
    (opened : phase.inode = (world.phase pid).inode)
    (text : ∀ text, phase.text pid = some text → content = text) :
    Consistent ((world.setContents inode content).setPhase pid phase) := by
  have holder := (consistent.holds inode pid).mpr held
  apply consistent.move rfl
  · exact fun _ _ _ => Iff.rfl
  · intro place
    rw [keeps, ← held]
    exact consistent.holds place pid
  · exact Nat.le_refl _
  · exact fun place open' => consistent.known pid place (opened ▸ open')
  · exact consistent.pathKnown
  · intro place other different holds
    have elsewhere : place ≠ inode := by
      rintro rfl
      exact different (Option.some.inj (holds.symm.trans holder))
    exact Function.update_of_ne elsewhere _ _
  · intro place text' held' knows
    have same : place = inode := Option.some.inj (held'.symm.trans keeps)
    rw [same]
    exact (Function.update_self _ _ _).trans (text text' knows)

/-- A daemon opens the file that the path names, or creates it. -/
theorem Consistent.openPath
    (consistent : Consistent world)
    (starting : world.phase pid = .starting)
    (fd : Nat) : Consistent (world.openPath pid fd) := by
  unfold World.openPath
  split
  next inode named =>
    apply consistent.move rfl
    · exact fun _ _ _ => Iff.rfl
    · intro place
      exact (consistent.holds place pid).trans (by rw [starting]; exact Iff.rfl)
    · exact Nat.le_refl _
    · rintro place ⟨⟩
      exact consistent.pathKnown inode named
    · exact consistent.pathKnown
    · exact fun _ _ _ _ => rfl
    · intro place text held
      cases held
  next missing =>
    apply consistent.move rfl
    · exact fun _ _ _ => Iff.rfl
    · intro place
      exact (consistent.holds place pid).trans (by rw [starting]; exact Iff.rfl)
    · exact Nat.le_succ _
    · rintro place ⟨⟩
      exact Nat.lt_succ_self _
    · rintro place ⟨⟩
      exact Nat.lt_succ_self _
    · intro place other _ holds
      -- nobody has locked a file that does not exist
      have held := (consistent.holds place other).mp holds
      have known := consistent.known other place (Phase.inode_of_holding held)
      exact Function.update_of_ne (Nat.ne_of_lt known) _ _
    · intro place text held
      cases held

theorem Consistent.removePath (consistent : Consistent world) :
    Consistent { world with path := none } where
  holds := consistent.holds
  known := consistent.known
  pathKnown inode named := by cases named
  written := consistent.written

theorem Consistent.giveUp
    (consistent : Consistent world)
    {handle : Handle}
    (held : (world.phase pid).holding = some handle.inode) :
    Consistent (world.giveUp pid handle) :=
  consistent.release held rfl fun inode opened => by cases opened

end Steps

/-- Every step keeps the invariant. -/
theorem Consistent.step
    {world world' : World}
    (consistent : Consistent world)
    {action : Action}
    (taken : world.step action = some world') : Consistent world' := by
  cases outcome_of_step taken with
  | openFails starting =>
      exact consistent.setPhase (by rw [starting]; rfl)
        (fun inode opened => by cases opened) (fun text knows => by cases knows)
  | opens starting => exact consistent.openPath starting _
  | locks opened free =>
      exact consistent.acquire free (by rw [opened]; rfl) rfl
        (by rw [opened]; rfl) rfl
  | refused opened =>
      exact consistent.setPhase (by rw [opened]; rfl)
        (fun inode opened => by cases opened) (fun text knows => by cases knows)
  | truncates locked =>
      exact consistent.rewrite (by rw [locked]; rfl) rfl (by rw [locked]; rfl)
        fun text knows => Option.some.inj knows
  | truncateFails locked => exact consistent.giveUp (by rw [locked]; rfl)
  | writes truncated =>
      have empty := consistent.written _ _ [] (by rw [truncated]; rfl)
        (by rw [truncated]; rfl)
      apply consistent.rewrite (by rw [truncated]; rfl) rfl
        (by rw [truncated]; rfl)
      intro text knows
      rw [empty, ← Option.some.inj knows, World.overwrite, List.take_length,
        List.drop_nil, List.append_nil]
  | @writeFails pid count handle truncated short =>
      -- a short write leaves some text in a file that is given up next
      rw [← World.giveUp_setPhase _ _ (.locked handle)]
      apply Consistent.giveUp
      · exact consistent.rewrite (by rw [truncated]; rfl) rfl
          (by rw [truncated]; rfl) fun text knows => by cases knows
      · rw [World.phase_setPhase_self]
        rfl
  | unlinks running =>
      apply consistent.removePath.setPhase
      · exact (congrArg Phase.holding running).symm
      · exact fun inode opened => (congrArg Phase.inode running).trans opened
      · exact fun text knows =>
          (congrArg (Phase.text _) running).trans knows
  | unlinkFails running =>
      apply consistent.setPhase
      · rw [running]
        rfl
      · exact fun inode opened => (congrArg Phase.inode running).trans opened
      · exact fun text knows =>
          (congrArg (Phase.text _) running).trans knows
  | leaves running => exact consistent.giveUp (by rw [running]; rfl)
  | unlocks unlinked =>
      apply consistent.release
      · rw [unlinked]
        rfl
      · rfl
      · exact fun inode opened => (congrArg Phase.inode unlinked).trans opened
  | closes unlocked =>
      exact consistent.setPhase (by rw [unlocked]; rfl)
        (fun inode opened => by cases opened) (fun text knows => by cases knows)
  | killedHolding held => exact consistent.giveUp held
  | killed holdsNone =>
      exact consistent.setPhase holdsNone.symm
        (fun inode opened => by cases opened) (fun text knows => by cases knows)

/-! ## Runs without an ill-timed removal -/

/-- No daemon removes the path while another one has opened the file that it
names and not locked it yet. -/
def patient (world : World) : Action → Prop
  | .unlink _ _ => ∀ other handle, world.phase other = .opened handle →
      world.path ≠ some handle.inode
  | _ => True

/-- The path names every file that a daemon has opened and not removed. -/
def Named (world : World) : Prop :=
  ∀ pid inode, (world.phase pid).named = some inode → world.path = some inode

section Named

variable {world : World} {pid : Pid} {phase : Phase}

/-- A daemon goes on with its file, or gives it up. -/
theorem Named.setPhase
    (named : Named world)
    (keeps : ∀ inode, phase.named = some inode →
      (world.phase pid).named = some inode) :
    Named (world.setPhase pid phase) := by
  intro other inode
  rw [World.phase_setPhase, World.path_setPhase, Function.update_apply]
  split
  next => exact fun names => named pid inode (keeps inode names)
  next => exact named other inode

theorem Named.openPath (named : Named world) (fd : Nat) :
    Named (world.openPath pid fd) := by
  intro other inode
  rw [World.phase_openPath, World.path_openPath, Function.update_apply]
  split
  next => exact fun names => names
  next =>
    intro names
    rw [named other inode names]
    rfl

/-- The path is removed by the daemon that holds the file it names. -/
theorem Named.unlink
    (named : Named world)
    (consistent : Consistent world)
    {handle : Handle}
    (running : world.phase pid = .running handle)
    (nobody : ∀ other handle, world.phase other = .opened handle →
      world.path ≠ some handle.inode) :
    Named (World.setPhase pid (.unlinked handle)
      { world with path := none }) := by
  have path : world.path = some handle.inode :=
    named pid handle.inode (by rw [running]; rfl)
  have mine : (world.phase pid).holding = some handle.inode := by
    rw [running]
    rfl
  -- whoever has the file under its path must hold the lock as well
  have alone : ∀ other inode, (world.phase other).named = some inode →
      other = pid := by
    intro other inode names
    have same : inode = handle.inode :=
      Option.some.inj ((named other inode names).symm.trans path)
    have held : (world.phase other).holding = some inode := by
      cases here : world.phase other with
      | opened theirs =>
          rw [here] at names
          exact absurd (path.trans (same ▸ names.symm)) (nobody other theirs here)
      | locked | truncated | running => rw [here] at names; exact names
      | starting | unlinked | unlocked | exited =>
          rw [here] at names
          cases names
    exact consistent.holder_unique mine (same ▸ held)
  intro other inode
  rw [World.phase_setPhase, Function.update_apply]
  split
  next => exact fun names => by cases names
  next different => exact fun names => absurd (alone other inode names) different

end Named

/-- Every step keeps the path, unless a daemon is not patient. -/
theorem Named.step
    {world world' : World}
    (named : Named world)
    (consistent : Consistent world)
    {action : Action}
    (allowed : patient world action)
    (taken : world.step action = some world') : Named world' := by
  cases outcome_of_step taken with
  | openFails => exact named.setPhase fun inode names => by cases names
  | opens => exact named.openPath _
  | locks opened | truncates opened | writes opened =>
      exact Named.setPhase named fun inode names =>
        (congrArg Phase.named opened).trans names
  | refused | closes | killed =>
      exact named.setPhase fun inode names => by cases names
  | truncateFails | writeFails | leaves | killedHolding =>
      exact Named.setPhase named fun inode names => by cases names
  | unlinks running => exact named.unlink consistent running allowed
  | unlinkFails | unlocks =>
      exact Named.setPhase named fun inode names => by cases names

/-- Whatever is reached by patient daemons. -/
theorem consistent_named_of_reachable
    {stale : Option Bytes}
    {world : World}
    (reached : Reachable World.step patient (World.initial stale) world) :
    Consistent world ∧ Named world := by
  apply reached.invariant fun world => Consistent world ∧ Named world
  · refine ⟨consistent_initial stale, fun pid inode names => ?_⟩
    cases names
  · rintro world action world' ⟨consistent, named⟩ allowed taken
    exact ⟨consistent.step taken, named.step consistent allowed taken⟩

theorem consistent_of_reachable
    {allowed : World → Action → Prop}
    {stale : Option Bytes}
    {world : World}
    (reached : Reachable World.step allowed (World.initial stale) world) :
    Consistent world :=
  reached.invariant Consistent (consistent_initial stale)
    fun _ _ _ consistent _ taken => consistent.step taken

/-! ## Main results -/

/-- In every run, the file of a daemon that runs holds its number, and no other
daemon runs with this file. -/
theorem contents_of_running
    {stale : Option Bytes}
    {world : World}
    (reached : Reachable World.step anyAction (World.initial stale) world)
    {pid : Pid}
    {handle : Handle}
    (running : world.phase pid = .running handle) :
    world.contents handle.inode = pidText pid ∧
      ∀ other handle', world.phase other = .running handle' →
        handle'.inode = handle.inode → other = pid := by
  have consistent := consistent_of_reachable reached
  have held : (world.phase pid).holding = some handle.inode := by
    rw [running]
    rfl
  constructor
  · exact consistent.written pid handle.inode _ held (by rw [running]; rfl)
  · intro other handle' running' same
    have held' : (world.phase other).holding = some handle.inode := by
      rw [running', ← same]
      rfl
    exact consistent.holder_unique held held'

theorem contents_of_running_one :
    ∃ world : World,
      (Reachable World.step anyAction (World.initial none) world ∧
        world.phase 1 = .running { inode := 1, fd := 4 }) ∧
      world.contents 1 = pidText 1 ∧
        ∀ other handle', world.phase other = .running handle' →
          handle'.inode = 1 → other = 1 := by
  obtain ⟨world, ran, running⟩ : ∃ world : World,
      runWith World.step (fun _ _ => true)
          [.openFile 1 4, .flock 1 true, .ftruncate 1 true, .write 1 1]
          (World.initial none) = some world ∧
        world.phase 1 = .running { inode := 1, fd := 4 } :=
    ⟨_, rfl, rfl⟩
  have reached := reachable_of_runWith (fun _ _ _ => trivial) _ ran
  exact ⟨world, ⟨reached, running⟩, contents_of_running reached running⟩

/-- Patient daemons exclude each other, and the path leads to the number of the
one that runs. -/
theorem exclusive_of_patient
    {stale : Option Bytes}
    {world : World}
    (reached : Reachable World.step patient (World.initial stale) world)
    {pid : Pid}
    {handle : Handle}
    (running : world.phase pid = .running handle) :
    world.path = some handle.inode ∧
      world.contents handle.inode = pidText pid ∧
      ∀ other handle', world.phase other = .running handle' → other = pid := by
  obtain ⟨consistent, named⟩ := consistent_named_of_reachable reached
  have held : (world.phase pid).holding = some handle.inode := by
    rw [running]
    rfl
  have path := named pid handle.inode (by rw [running]; rfl)
  refine ⟨path, consistent.written pid _ _ held (by rw [running]; rfl), ?_⟩
  intro other handle' running'
  have path' := named other handle'.inode (by rw [running']; rfl)
  have same : handle'.inode = handle.inode :=
    Option.some.inj (path'.symm.trans path)
  have held' : (world.phase other).holding = some handle.inode := by
    rw [running', ← same]
    rfl
  exact consistent.holder_unique held held'

theorem exclusive_of_patient_two :
    ∃ world : World,
      (Reachable World.step patient (World.initial (some (bytes "7"))) world ∧
        world.phase 1 = .running { inode := 0, fd := 4 } ∧
        world.phase 2 = .exited) ∧
      world.path = some 0 ∧ world.contents 0 = pidText 1 ∧
        ∀ other handle', world.phase other = .running handle' → other = 1 := by
  let check (_ : World) : Action → Bool
    | .unlink _ _ => false
    | _ => true
  have sound : ∀ world action, check world action = true →
      patient world action := by
    intro world action checked
    cases action with
    | unlink => cases checked
    | _ => trivial
  obtain ⟨world, ran, running, refused⟩ : ∃ world : World,
      runWith World.step check
          [.openFile 1 4, .openFile 2 4, .flock 1 true, .flock 2 true,
            .ftruncate 1 true, .write 1 1]
          (World.initial (some (bytes "7"))) = some world ∧
        world.phase 1 = .running { inode := 0, fd := 4 } ∧
        world.phase 2 = .exited :=
    ⟨_, rfl, rfl, rfl⟩
  have reached := reachable_of_runWith sound _ ran
  exact ⟨world, ⟨reached, running, refused⟩,
    exclusive_of_patient reached running⟩

end PidFile
end EvCollect
