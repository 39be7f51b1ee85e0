import EvCollect.Daemon.Exclusion

/-!
# The removal of the path

A daemon that stops removes the path before it unlocks the file. Where another
daemon has opened this file already, both it and a third one, for which the path
is created anew, come to run. Without such removals, and without failures, the
path is gone when no daemon is left.
-/

namespace EvCollect
namespace PidFile

open Transition

/-! ## Steps that succeed -/

section Enabled

variable {world : World} {pid : Pid} {handle : Handle}

theorem step_openFile
    (starting : world.phase pid = .starting)
    (fd : Nat) :
    world.step (.openFile pid fd) = some (world.openPath pid fd) := by
  have valid : ¬ (fd : Int) < 0 := by omega
  simp only [World.step, starting, if_neg valid, Int.toNat_natCast]

theorem step_flock
    (opened : world.phase pid = .opened handle)
    (free : world.holder handle.inode = none) :
    world.step (.flock pid true) =
      some ((world.setHolder handle.inode (some pid)).setPhase pid
        (.locked handle)) := by
  simp only [World.step, opened, free, and_self, if_true]

theorem step_ftruncate (locked : world.phase pid = .locked handle) :
    world.step (.ftruncate pid true) =
      some ((world.setContents handle.inode []).setPhase pid
        (.truncated handle)) := by
  simp only [World.step, locked, if_true]

theorem step_write (truncated : world.phase pid = .truncated handle) :
    world.step (.write pid (pidText pid).length) =
      some ((world.setContents handle.inode
        (World.overwrite (pidText pid).length (pidText pid)
          (world.contents handle.inode))).setPhase pid (.running handle)) := by
  simp only [World.step, truncated, Int.lt_irrefl, if_true, if_false,
    Int.toNat_natCast]

theorem step_unlink
    (running : world.phase pid = .running handle)
    (positive : 0 < handle.fd) :
    world.step (.unlink pid true) =
      some (World.setPhase pid (.unlinked handle)
        { world with path := none }) := by
  simp only [World.step, running, if_pos positive, if_true]

theorem step_unlock (unlinked : world.phase pid = .unlinked handle) :
    world.step (.unlock pid) =
      some ((world.setHolder handle.inode none).setPhase pid
        (.unlocked handle)) := by
  simp only [World.step, unlinked]

theorem step_close (unlocked : world.phase pid = .unlocked handle) :
    world.step (.close pid) = some (world.setPhase pid .exited) := by
  simp only [World.step, unlocked]

end Enabled

/-! ## Continuations of a run -/

section Continuations

variable {start world : World} {pid : Pid} {handle : Handle}

/-- A daemon whose file is not locked comes to run. -/
theorem exists_running_of_opened
    (reached : Reachable World.step anyAction start world)
    (opened : world.phase pid = .opened handle)
    (free : world.holder handle.inode = none) :
    ∃ world', Reachable World.step anyAction start world' ∧
      world'.phase = Function.update world.phase pid (.running handle) ∧
      world'.path = world.path := by
  have locked := reached.next trivial (step_flock opened free)
  have truncated := locked.next trivial
    (step_ftruncate (World.phase_setPhase_self _ pid (.locked handle)))
  have running := truncated.next trivial
    (step_write (World.phase_setPhase_self _ pid (.truncated handle)))
  exact ⟨_, running, by simp, rfl⟩

/-- A daemon that runs removes the path and unlocks its file. -/
theorem exists_unlocked_of_running
    (reached : Reachable World.step anyAction start world)
    (running : world.phase pid = .running handle)
    (positive : 0 < handle.fd) :
    ∃ world', Reachable World.step anyAction start world' ∧
      world'.phase = Function.update world.phase pid (.unlocked handle) ∧
      world'.holder handle.inode = none ∧ world'.path = none := by
  have unlinked := reached.next trivial (step_unlink running positive)
  have unlocked := unlinked.next trivial
    (step_unlock (World.phase_setPhase_self _ pid (.unlinked handle)))
  exact ⟨_, unlocked, by simp, Function.update_self _ _ _, rfl⟩

/-- A daemon that finds no file creates one and comes to run. -/
theorem exists_running_of_starting
    (consistent : Consistent start)
    (reached : Reachable World.step anyAction start world)
    (starting : world.phase pid = .starting)
    (missing : world.path = none)
    (fd : Nat) :
    ∃ world', Reachable World.step anyAction start world' ∧
      world'.phase = Function.update world.phase pid
        (.running { inode := world.fresh, fd := fd }) := by
  have opened := reached.next trivial (step_openFile starting fd)
  have created : world.openPath pid fd =
      { (world.setContents world.fresh []).setPhase pid
          (.opened { inode := world.fresh, fd := fd }) with
        path := some world.fresh
        fresh := world.fresh + 1 } := by
    rw [World.openPath, missing]
  rw [created] at opened
  have free : world.holder world.fresh = none := by
    by_contra locked
    obtain ⟨owner, held⟩ := Option.ne_none_iff_exists'.mp locked
    have still := reached.invariant Consistent consistent
      fun _ _ _ held _ taken => held.step taken
    exact Nat.lt_irrefl _ (still.known owner _
      (Phase.inode_of_holding ((still.holds _ _).mp held)))
  obtain ⟨world', reached', phases, -⟩ := exists_running_of_opened opened
    (Function.update_self pid _ world.phase) free
  refine ⟨world', reached', ?_⟩
  rw [phases]
  exact Function.update_idem _ _ _

end Continuations

/-! ## Main results -/

/-- Where a daemon that runs could stop while another one has opened its file,
the run can go on so that this one and a third one run at the same time, and
so that the third one runs and the path is gone. -/
theorem exists_two_running
    {stale : Option Bytes}
    {world : World}
    (reached : Reachable World.step anyAction (World.initial stale) world)
    {first second third : Pid}
    {old new : Handle}
    (running : world.phase first = .running old)
    (oldPositive : 0 < old.fd)
    (opened : world.phase second = .opened new)
    (newPositive : 0 < new.fd)
    (sameFile : new.inode = old.inode)
    (starting : world.phase third = .starting) :
    (∃ both created,
      Reachable World.step anyAction world both ∧
        both.phase second = .running new ∧
        both.phase third = .running created) ∧
      ∃ after created,
        Reachable World.step anyAction world after ∧
          after.phase third = .running created ∧ after.path = none := by
  have secondFirst : second ≠ first := by
    rintro rfl
    cases running.symm.trans opened
  have thirdFirst : third ≠ first := by
    rintro rfl
    cases running.symm.trans starting
  have thirdSecond : third ≠ second := by
    rintro rfl
    cases opened.symm.trans starting
  -- the first daemon stops, and the second one locks the file without a path
  obtain ⟨stopped, reachedStopped, stoppedPhases, free, removed⟩ :=
    exists_unlocked_of_running .start running oldPositive
  have waiting : stopped.phase second = .opened new := by
    rw [stoppedPhases, Function.update_of_ne secondFirst, opened]
  obtain ⟨locked, reachedLocked, lockedPhases, lockedPath⟩ :=
    exists_running_of_opened reachedStopped waiting (by rw [sameFile, free])
  -- the third one creates another file
  have idle : locked.phase third = .starting := by
    rw [lockedPhases, Function.update_of_ne thirdSecond, stoppedPhases,
      Function.update_of_ne thirdFirst, starting]
  obtain ⟨both, reachedBoth, bothPhases⟩ :=
    exists_running_of_starting (consistent_of_reachable reached) reachedLocked idle
      (lockedPath.trans removed) 3
  have secondRuns : both.phase second = .running new := by
    rw [bothPhases, Function.update_of_ne thirdSecond.symm, lockedPhases,
      Function.update_self]
  have thirdRuns : both.phase third =
      .running { inode := locked.fresh, fd := 3 } := by
    rw [bothPhases, Function.update_self]
  -- when the second one stops, it removes the path of the third one
  obtain ⟨after, reachedAfter, afterPhases, -, removedAgain⟩ :=
    exists_unlocked_of_running reachedBoth secondRuns newPositive
  have stillRuns : after.phase third =
      .running { inode := locked.fresh, fd := 3 } := by
    rw [afterPhases, Function.update_of_ne thirdSecond, thirdRuns]
  exact ⟨⟨both, _, reachedBoth, secondRuns, thirdRuns⟩,
    ⟨after, _, reachedAfter, stillRuns, removedAgain⟩⟩

theorem exists_two_running_three :
    ∃ world : World, Reachable World.step anyAction (World.initial none) world ∧
      (∃ both created,
        Reachable World.step anyAction world both ∧
          both.phase 2 = .running { inode := 1, fd := 4 } ∧
          both.phase 3 = .running created) ∧
      ∃ after created,
        Reachable World.step anyAction world after ∧
          after.phase 3 = .running created ∧ after.path = none := by
  obtain ⟨world, ran, running, opened, starting⟩ : ∃ world : World,
      runWith World.step (fun _ _ => true)
          [.openFile 1 4, .flock 1 true, .ftruncate 1 true, .write 1 1,
            .openFile 2 4] (World.initial none) = some world ∧
        world.phase 1 = .running { inode := 1, fd := 4 } ∧
        world.phase 2 = .opened { inode := 1, fd := 4 } ∧
        world.phase 3 = .starting :=
    ⟨_, rfl, rfl, rfl, rfl⟩
  have reached := reachable_of_runWith (fun _ _ _ => trivial) _ ran
  exact ⟨world, reached, exists_two_running reached running (by decide) opened
    (by decide) rfl starting⟩

/-! ## Runs without failures -/

/-- The daemons are patient, no call fails and nobody is killed. -/
def orderly (world : World) (action : Action) : Prop :=
  patient world action ∧
    match action with
    | .openFile _ fd => 0 < fd
    | .flock _ granted => granted = true
    | .ftruncate _ ok => ok = true
    | .write pid count => count = (pidText pid).length
    | .unlink _ ok => ok = true
    | .leave _ | .crash _ => False
    | .unlock _ | .close _ => True

/-- The path names a file that somebody uses, and no file that was removed. -/
structure Used (world : World) : Prop where
  named : Named world
  somebody : ∀ inode, world.path = some inode →
    ∃ pid, (world.phase pid).named = some inode
  removed : ∀ pid handle, world.phase pid = .unlinked handle →
    world.path ≠ some handle.inode

section Used

variable {world : World} {pid : Pid} {phase : Phase}

/-- A daemon goes on with its file. -/
theorem Used.setPhase
    (used : Used world)
    (keeps : phase.named = (world.phase pid).named)
    (removes : ∀ handle, phase ≠ .unlinked handle) :
    Used (world.setPhase pid phase) where
  named := used.named.setPhase fun _ names => keeps ▸ names
  somebody inode path := by
    obtain ⟨other, names⟩ := used.somebody inode path
    refine ⟨other, ?_⟩
    rw [World.phase_setPhase, Function.update_apply]
    split
    next same => rw [keeps, ← same, names]
    next => exact names
  removed other handle := by
    rw [World.phase_setPhase, Function.update_apply]
    split
    next => exact fun unlinked => absurd unlinked (removes handle)
    next => exact used.removed other handle

/-- A daemon whose file another one has locked leaves the file to it. -/
theorem Used.refused
    (used : Used world)
    (consistent : Consistent world)
    {handle : Handle}
    (opened : world.phase pid = .opened handle)
    (locked : world.holder handle.inode ≠ none) :
    Used (world.setPhase pid .exited) where
  named := used.named.setPhase fun inode names => by cases names
  somebody inode path := by
    obtain ⟨owner, holder⟩ := Option.ne_none_iff_exists'.mp locked
    have held := (consistent.holds handle.inode owner).mp holder
    have same : handle.inode = inode := by
      have mine := used.named pid handle.inode (by rw [opened]; rfl)
      exact Option.some.inj (mine.symm.trans path)
    have different : owner ≠ pid := by
      rintro rfl
      rw [opened] at held
      cases held
    refine ⟨owner, ?_⟩
    rw [World.phase_setPhase, Function.update_of_ne different]
    cases here : world.phase owner with
    | locked | truncated | running => rw [here, same] at held; exact held
    | unlinked theirs =>
        rw [here, same] at held
        exact absurd (path.trans held.symm) (used.removed owner theirs here)
    | starting | opened | unlocked | exited => rw [here] at held; cases held
  removed other theirs := by
    rw [World.phase_setPhase, Function.update_apply]
    split
    next => exact fun equal => by cases equal
    next => exact used.removed other theirs

theorem Used.openPath
    (used : Used world)
    (consistent : Consistent world)
    (fd : Nat) : Used (world.openPath pid fd) := by
  refine ⟨used.named.openPath fd, ?_, ?_⟩
  · intro inode path
    rw [World.path_openPath] at path
    refine ⟨pid, ?_⟩
    rw [World.phase_openPath, Function.update_self]
    exact path
  · intro other theirs
    rw [World.phase_openPath, World.path_openPath, Function.update_apply]
    split
    next => exact fun equal => by cases equal
    next =>
      intro unlinked same
      cases here : world.path with
      | some inode =>
          rw [here] at same
          exact used.removed other theirs unlinked (here.trans same)
      | none =>
          -- a file that is created now was not there before
          rw [here] at same
          have known := consistent.known other theirs.inode
            (by rw [unlinked]; rfl)
          exact Nat.lt_irrefl _ (Option.some.inj same ▸ known)

end Used

theorem Used.step
    {world world' : World}
    (used : Used world)
    (consistent : Consistent world)
    {action : Action}
    (allowed : orderly world action)
    (taken : world.step action = some world') : Used world' := by
  obtain ⟨patience, succeeds⟩ := allowed
  cases outcome_of_step taken with
  | openFails starting failed =>
      exact absurd succeeds (Int.not_lt.mpr (Int.le_of_lt failed))
  | opens => exact used.openPath consistent _
  | locks opened | truncates opened | writes opened =>
      exact Used.setPhase ⟨used.named, used.somebody, used.removed⟩
        (congrArg Phase.named opened).symm fun handle equal => by cases equal
  | refused opened denied =>
      refine used.refused consistent opened (denied.resolve_left fun failed => ?_)
      cases failed.symm.trans succeeds
  | truncateFails | unlinkFails => cases succeeds
  | leaves | killedHolding | killed => exact succeeds.elim
  | writeFails truncated short => exact absurd succeeds (Int.ne_of_lt short)
  | unlinks running =>
      refine ⟨used.named.unlink consistent running patience, ?_, ?_⟩
      · exact fun inode path => by cases path
      · exact fun other handle _ path => by cases path
  | unlocks unlinked =>
      exact Used.setPhase ⟨used.named, used.somebody, used.removed⟩
        (congrArg Phase.named unlinked).symm fun handle equal => by cases equal
  | closes unlocked =>
      exact used.setPhase (congrArg Phase.named unlocked).symm
        fun handle equal => by cases equal

/-- If no call fails and all daemons are patient, the path is gone when nobody
uses its file. -/
theorem path_eq_none_of_orderly
    {world : World}
    (reached : Reachable World.step orderly (World.initial none) world)
    (unused : ∀ pid, (world.phase pid).named = none) : world.path = none := by
  have kept : Consistent world ∧ Used world := by
    apply reached.invariant fun world => Consistent world ∧ Used world
    · refine ⟨consistent_initial none, ?_, ?_, ?_⟩
      · exact fun pid inode names => by cases names
      · exact fun inode path => by cases path
      · exact fun pid handle unlinked => by cases unlinked
    · rintro world action world' ⟨consistent, used⟩ allowed taken
      exact ⟨consistent.step taken, used.step consistent allowed taken⟩
  by_contra present
  obtain ⟨inode, path⟩ := Option.ne_none_iff_exists'.mp present
  obtain ⟨pid, names⟩ := kept.2.somebody inode path
  exact absurd ((unused pid).symm.trans names) (Option.some_ne_none inode).symm

theorem path_eq_none_of_orderly_one :
    ∃ world : World,
      (Reachable World.step orderly (World.initial none) world ∧
        world.phase 1 = .exited) ∧ world.path = none := by
  let check (_ : World) : Action → Bool
    | .openFile _ fd => decide (0 < fd)
    | .flock _ granted => granted
    | .ftruncate _ ok => ok
    | .write pid count => decide (count = (pidText pid).length)
    | .unlock _ | .close _ => true
    | _ => false
  have sound : ∀ world action, check world action = true →
      orderly world action := by
    intro world action checked
    cases action with
    | openFile | write => exact ⟨trivial, of_decide_eq_true checked⟩
    | flock | ftruncate => exact ⟨trivial, checked⟩
    | unlock | close => exact ⟨trivial, trivial⟩
    | unlink | leave | crash => cases checked
  obtain ⟨world, ran, running, alone⟩ : ∃ world : World,
      runWith World.step check
          [.openFile 1 4, .flock 1 true, .ftruncate 1 true, .write 1 1]
          (World.initial none) = some world ∧
        world.phase 1 = .running { inode := 1, fd := 4 } ∧
        ∀ other, other ≠ 1 → world.phase other = .starting := by
    refine ⟨_, rfl, rfl, fun other different => ?_⟩
    simp only [World.phase_setPhase, World.phase_setContents,
      World.phase_setHolder, World.phase_openPath,
      Function.update_of_ne different]
    rfl
  have reached := reachable_of_runWith sound _ ran
  have patience : patient world (.unlink 1 true) := by
    intro other handle opened
    rcases eq_or_ne other 1 with rfl | different
    · cases running.symm.trans opened
    · cases (alone other different).symm.trans opened
  have unlinked := reached.next ⟨patience, rfl⟩
    (step_unlink running (by decide))
  have unlocking := step_unlock
    (World.phase_setPhase_self { world with path := none } 1
      (.unlinked { inode := 1, fd := 4 }))
  have unlocked := unlinked.next
    (show orderly _ (.unlock 1) from ⟨trivial, trivial⟩) unlocking
  have closed := unlocked.next
    (show orderly _ (.close 1) from ⟨trivial, trivial⟩)
    (step_close (World.phase_setPhase_self _ 1 (.unlocked _)))
  refine ⟨_, ⟨closed, World.phase_setPhase_self _ _ _⟩,
    path_eq_none_of_orderly closed fun other => ?_⟩
  rcases eq_or_ne other 1 with rfl | different
  · rw [World.phase_setPhase_self]
    rfl
  · simp only [World.phase_setPhase, World.phase_setHolder,
      Function.update_of_ne different, alone other different]
    rfl

end PidFile
end EvCollect
