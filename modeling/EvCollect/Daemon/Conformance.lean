import EvCollect.Daemon.Removal
import EvCollect.Daemon.Startup

/-!
# The program keeps to the pid file protocol

What `main` does with the pid file is a run of one daemon of the pid file
protocol, and its program points are the phases of the protocol. The main loop
of the service in particular is entered only once the file is locked and
written.
-/

namespace EvCollect
namespace Daemon

open Config Process Service Logfile Plugin

/-! ## The protocol -/

/-- Take the steps of a daemon that is the only one. -/
def replay
    (stale : Option Bytes)
    (calls : List PidFile.Action) : Option PidFile.World :=
  calls.foldlM PidFile.World.step (PidFile.World.initial stale)

/-- What has been done is a run of the protocol, to such a state. -/
def Traced
    (stale : Option Bytes)
    (holds : PidFile.World → Prop)
    (main : Main) : Prop :=
  ∃ world, replay stale main.pidCalls = some world ∧ holds world

/-- The phase of the protocol at a program point. Where a pid file is wanted, the
main loop runs in the phase `running`. -/
def AtPhase (wanted : Bool) : MainPoint → PidFile.Phase → Prop
  | .service point, phase => ¬ point.Aside → wanted = true →
      ∃ handle, phase = .running handle
  | .daemon, phase => phase = .starting
  | .openPidfile _, phase => phase = .starting
  | .flockPidfile fd, phase => ∃ handle, phase = .opened handle ∧ fd = handle.fd
  | .ftruncatePidfile fd, phase =>
      ∃ handle, phase = .locked handle ∧ fd = handle.fd
  | .writePidfile fd, phase =>
      ∃ handle, phase = .truncated handle ∧ fd = handle.fd
  | .unlinkPidfile _, phase => ∃ handle, phase = .running handle
  | .unlockPidfile fd, phase =>
      ∃ handle, phase = .unlinked handle ∧ fd = handle.fd
  | .closePidfile fd, phase =>
      ∃ handle, phase = .unlocked handle ∧ fd = handle.fd

variable (machine : Machine)
variable (stale : Option Bytes)
variable (wanted : Bool)

/-- The run of the protocol is in the phase of the program point. -/
def Conforms (point : MainPoint) (main : Main) : Prop :=
  Traced stale (fun world => AtPhase wanted point (world.phase machine.pid)) main

variable {machine stale wanted}
variable {main : Main}
variable {holds : PidFile.World → Prop}

theorem Traced.mono
    {weaker : PidFile.World → Prop}
    (traced : Traced stale holds main)
    (implies : ∀ world, holds world → weaker world) :
    Traced stale weaker main := by
  obtain ⟨world, ran, held⟩ := traced
  exact ⟨world, ran, implies world held⟩

/-- One more call is one more step. -/
theorem Traced.next
    {next : PidFile.World → Prop}
    {action : PidFile.Action}
    {after : Main}
    (traced : Traced stale holds main)
    (calls : after.pidCalls = main.pidCalls ++ [action])
    (taken : ∀ world, holds world →
      ∃ world', world.step action = some world' ∧ next world') :
    Traced stale next after := by
  obtain ⟨world, ran, held⟩ := traced
  obtain ⟨world', stepped, held'⟩ := taken world held
  refine ⟨world', ?_, held'⟩
  rw [replay, calls, List.foldlM_append, ← replay, ran]
  change (world.step action >>= fun world => some world) = some world'
  rw [stepped]
  rfl

/-- Everywhere in a process of `main` the phase is that of the program point. -/
abbrev Conforming
    (machine : Machine)
    (stale : Option Bytes)
    (wanted : Bool)
    (process : MainProc α)
    (post : α → Main → Prop)
    (main : Main) : Prop :=
  wp (Conforms machine stale wanted) process post main

/-- A system call that is a step of the protocol. -/
theorem conforming_pidfileCall
    {point : MainPoint}
    {answer : Entry → α × PidFile.Action}
    (next : α → PidFile.World → Prop)
    (traced : Traced stale holds main)
    (atPoint : ∀ world, holds world →
      AtPhase wanted point (world.phase machine.pid))
    (taken : ∀ entry world, holds world →
      ∃ world', world.step (answer entry).2 = some world' ∧
        next (answer entry).1 world') :
    Conforming machine stale wanted (pidfileCall point answer)
      (fun value after => Traced stale (next value) after ∧
        after.pidfileFd = main.pidfileFd) main :=
  wp_call (traced.mono atPoint) fun entry =>
    ⟨traced.next rfl (taken entry), rfl⟩

/-- A function of the service leaves the pid file alone. -/
theorem conforming_onService
    {within : Point (LogPoint ⊕ LibraryPoint) → Prop}
    {process : ServiceProc (LogPoint ⊕ LibraryPoint) (Reader × Runtime) α}
    (traced : Traced stale holds main)
    (inside : wp (fun point _ => within point) process (fun _ _ => True)
      main.service)
    (atPoint : ∀ point, within point → ∀ world, holds world →
      AtPhase wanted (.service point) (world.phase machine.pid)) :
    Conforming machine stale wanted (onService process)
      (fun _ after => Traced stale holds after ∧
        after.pidfileFd = main.pidfileFd) main :=
  wp_zoom (wp_mono inside (fun point _ isIn => traced.mono (atPoint point isIn))
    fun _ _ _ => ⟨traced, rfl⟩)

/-! ## Writing the file -/

/-- Nothing is open, and nothing is locked. -/
structure Idle (pid : PidFile.Pid) (world : PidFile.World) : Prop where
  phase : world.phase pid = .starting
  free : ∀ inode, world.holder inode = none

/-- Behind `open`. -/
def Opened (pid : PidFile.Pid) (fd : Int) (world : PidFile.World) : Prop :=
  if fd < 0 then world.phase pid = .exited
  else (∃ handle, world.phase pid = .opened handle ∧ fd = handle.fd) ∧
    ∀ inode, world.holder inode = none

/-- Behind a later call, which has succeeded or not. -/
def Passed
    (pid : PidFile.Pid)
    (fd : Int)
    (phase : PidFile.Handle → PidFile.Phase)
    (passed : Bool)
    (world : PidFile.World) : Prop :=
  if passed then ∃ handle, world.phase pid = phase handle ∧ fd = handle.fd
  else world.phase pid = .exited

/-- What the attempt to write the pid file leaves behind. -/
def Written (pid : PidFile.Pid) (fd : Int) :
    ReturnCode → PidFile.World → Prop
  | .ok _, world => ∃ handle, world.phase pid = .running handle ∧ fd = handle.fd
  | .error _, world => fd < 0 ∧ world.phase pid = .exited

/-- The file is closed where something fails. -/
theorem conforming_failPidfile
    (text : Bytes)
    (traced : Traced stale
      (fun world => world.phase machine.pid = .exited) main) :
    Conforming machine stale wanted (failPidfile text)
      (fun rc after =>
        Traced stale (Written machine.pid after.pidfileFd rc) after) main := by
  refine wp_bind (wp_modify (wp_pure ?_))
  obtain ⟨world, ran, exited⟩ := traced
  exact ⟨world, ran, Int.negSucc_lt_zero 0, exited⟩

section Steps

variable {pid : PidFile.Pid}
variable {world : PidFile.World}

open PidFile (World)

theorem opened_openFile
    (idle : Idle pid world)
    (fd : Int) :
    ∃ world', world.step (.openFile pid fd) = some world' ∧
      Opened pid fd world' := by
  dsimp only [World.step, Opened]
  rw [idle.phase]
  dsimp only
  split
  · exact ⟨_, rfl, World.phase_setPhase_self _ _ _⟩
  next valid =>
    refine ⟨_, rfl, ⟨⟨world.path.getD world.fresh, fd.toNat⟩, ?_,
      (Int.toNat_of_nonneg (not_lt.mp valid)).symm⟩, ?_⟩
    · rw [World.phase_openPath, Function.update_self]
    · intro inode
      unfold World.openPath
      cases world.path <;> exact idle.free inode

theorem passed_flock
    {fd : Int}
    {handle : PidFile.Handle}
    (opened : world.phase pid = .opened handle)
    (same : fd = handle.fd)
    (free : ∀ inode, world.holder inode = none)
    (granted : Bool) :
    ∃ world', world.step (.flock pid granted) = some world' ∧
      Passed pid fd .locked granted world' := by
  dsimp only [World.step, Passed]
  rw [opened]
  dsimp only
  cases granted with
  | true =>
      rw [if_pos ⟨rfl, free handle.inode⟩]
      exact ⟨_, rfl, handle, World.phase_setPhase_self _ _ _, same⟩
  | false =>
      rw [if_neg (by simp)]
      exact ⟨_, rfl, World.phase_setPhase_self _ _ _⟩

theorem passed_ftruncate
    {fd : Int}
    {handle : PidFile.Handle}
    (locked : world.phase pid = .locked handle)
    (same : fd = handle.fd)
    (ok : Bool) :
    ∃ world', world.step (.ftruncate pid ok) = some world' ∧
      Passed pid fd .truncated ok world' := by
  dsimp only [World.step, Passed]
  rw [locked]
  dsimp only
  cases ok with
  | true => exact ⟨_, rfl, handle, World.phase_setPhase_self _ _ _, same⟩
  | false => exact ⟨_, rfl, World.phase_setPhase_self _ _ _⟩

theorem passed_write
    {fd count : Int}
    {handle : PidFile.Handle}
    (truncated : world.phase pid = .truncated handle)
    (same : fd = handle.fd)
    (fits : count ≤ (PidFile.pidText pid).length) :
    ∃ world', world.step (.write pid count) = some world' ∧
      Passed pid fd .running (decide (count = (PidFile.pidText pid).length))
        world' := by
  dsimp only [World.step, Passed]
  rw [truncated]
  dsimp only
  rw [if_neg (not_lt.mpr fits)]
  by_cases complete : count = (PidFile.pidText pid).length
  · rw [if_pos complete]
    refine ⟨_, rfl, ?_⟩
    rw [if_pos (decide_eq_true complete)]
    exact ⟨handle, World.phase_setPhase_self _ _ _, same⟩
  · rw [if_neg complete]
    refine ⟨_, rfl, ?_⟩
    rw [if_neg (by simpa using complete)]
    exact World.phase_setPhase_self _ _ _

end Steps

theorem conforming_writePidfile
    (path : Bytes)
    (idle : Traced stale (Idle machine.pid) main) :
    Conforming machine stale wanted (writePidfile machine path)
      (fun rc after =>
        Traced stale (Written machine.pid after.pidfileFd rc) after) main := by
  refine wp_seq (conforming_pidfileCall
    (fun value => Opened machine.pid value.1) idle (fun _ held => held.phase)
    fun entry _ held => opened_openFile held entry.result) ?_
  rintro ⟨fd, strerror⟩ after ⟨opened, -⟩
  refine wp_bind (wp_modify ?_)
  by_cases negative : fd < 0
  · rw [if_pos negative]
    refine wp_pure (opened.mono fun world held => ?_)
    rw [Opened, if_pos negative] at held
    exact ⟨negative, held⟩
  rw [if_neg negative]
  have readable : Traced stale (fun world =>
      (∃ handle, world.phase machine.pid = .opened handle ∧ fd = handle.fd) ∧
        ∀ inode, world.holder inode = none) { after with pidfileFd := fd } := by
    refine opened.mono fun world held => ?_
    rwa [Opened, if_neg negative] at held
  refine wp_seq (conforming_pidfileCall (Passed machine.pid fd .locked) readable
    (fun _ held => held.1) fun entry world held => ?_) ?_
  · obtain ⟨⟨handle, isOpened, same⟩, free⟩ := held
    exact passed_flock isOpened same free _
  rintro (_ | _) afterLock ⟨locked, keptLock⟩
  · exact conforming_failPidfile _ locked
  refine wp_seq (conforming_pidfileCall (Passed machine.pid fd .truncated) locked
    (fun _ held => held) fun entry world held => ?_) ?_
  · obtain ⟨handle, isLocked, same⟩ := held
    exact passed_ftruncate isLocked same _
  rintro (_ | _) afterCut ⟨truncated, keptCut⟩
  · exact conforming_failPidfile _ truncated
  refine wp_seq (conforming_pidfileCall (fun count : Int => Passed machine.pid
    fd .running (decide (count = (PidFile.pidText machine.pid).length)))
    truncated (fun _ held => held) fun entry world held => ?_) ?_
  · obtain ⟨handle, isTruncated, same⟩ := held
    exact passed_write isTruncated same (min_le_right _ _)
  rintro count afterWrite ⟨written, keptWrite⟩
  by_cases complete : count = (PidFile.pidText machine.pid).length
  · rw [if_neg (not_not.mpr complete)]
    rw [decide_eq_true complete] at written
    refine wp_pure (written.mono fun world held => ?_)
    rw [keptWrite, keptCut, keptLock]
    exact held
  · rw [if_pos complete]
    rw [decide_eq_false complete] at written
    exact conforming_failPidfile _ written

/-! ## Removing the file -/

/-- A pid file that has been written, or none that is open. -/
def Settled (pid : PidFile.Pid) (fd : Int) (world : PidFile.World) : Prop :=
  (fd < 0 ∧ (world.phase pid = .starting ∨ world.phase pid = .exited)) ∨
    ∃ handle, world.phase pid = .running handle ∧ fd = handle.fd

/-- The end of `main`. A pid file with the descriptor zero is left as it is. -/
def Over (pid : PidFile.Pid) (world : PidFile.World) : Prop :=
  world.phase pid = .starting ∨ world.phase pid = .exited ∨
    ∃ handle, world.phase pid = .running handle ∧ handle.fd = 0

theorem conforming_removePidfile
    (path : Bytes)
    (settled : Traced stale (Settled machine.pid main.pidfileFd) main) :
    Conforming machine stale wanted (removePidfile machine path)
      (fun _ after => Traced stale (Over machine.pid) after) main := by
  refine wp_bind (wp_get ?_)
  by_cases positive : 0 < main.pidfileFd
  · rw [if_pos positive]
    have running : Traced stale (fun world => ∃ handle,
        world.phase machine.pid = .running handle ∧
          main.pidfileFd = handle.fd) main := by
      refine settled.mono fun world held => ?_
      rcases held with ⟨negative, -⟩ | running
      · exact absurd positive (Int.lt_asymm negative)
      · exact running
    refine wp_seq (conforming_pidfileCall (fun _ world => ∃ handle,
      world.phase machine.pid = .unlinked handle ∧ main.pidfileFd = handle.fd)
      running (fun _ held => ⟨held.choose, held.choose_spec.1⟩) ?_) ?_
    · rintro entry world ⟨handle, isRunning, same⟩
      have opened : 0 < handle.fd := Int.natCast_pos.mp (same ▸ positive)
      dsimp only [PidFile.World.step]
      rw [isRunning]
      dsimp only
      rw [if_pos opened]
      exact ⟨_, rfl, handle, PidFile.World.phase_setPhase_self _ _ _, same⟩
    rintro _ afterUnlink ⟨unlinked, -⟩
    refine wp_seq (conforming_pidfileCall (fun _ world => ∃ handle,
      world.phase machine.pid = .unlocked handle ∧ main.pidfileFd = handle.fd)
      unlinked (fun _ held => held) ?_) ?_
    · rintro entry world ⟨handle, isUnlinked, same⟩
      exact ⟨_, PidFile.step_unlock isUnlinked, handle,
        PidFile.World.phase_setPhase_self _ _ _, same⟩
    rintro _ afterUnlock ⟨unlocked, -⟩
    refine wp_mono (conforming_pidfileCall
      (fun _ world => world.phase machine.pid = .exited) unlocked
      (fun _ held => held) ?_) (fun _ _ held => held)
      fun _ _ held => held.1.mono fun _ exited => .inr (.inl exited)
    rintro entry world ⟨handle, isUnlocked, -⟩
    exact ⟨_, PidFile.step_close isUnlocked,
      PidFile.World.phase_setPhase_self _ _ _⟩
  · rw [if_neg positive]
    refine wp_pure (settled.mono fun world held => ?_)
    rcases held with ⟨-, starting | exited⟩ | ⟨handle, running, same⟩
    · exact .inl starting
    · exact .inr (.inl exited)
    · refine .inr (.inr ⟨handle, running, ?_⟩)
      exact Nat.eq_zero_of_not_pos fun opened => positive (same ▸
        Int.natCast_pos.mpr opened)

/-! ## The service -/

/-- Processes outside of the main loop. -/
abbrev RunsAside {L τ : Type} (process : ServiceProc L τ α) : Prop :=
  ∀ service, wp (fun point _ => point.Aside) process (fun _ _ => True) service

section Aside

variable {L τ : Type} [World τ]

omit [World τ] in
theorem runsAside_of_preserves
    {process : ServiceProc L τ α}
    (kept : ∀ holds : Schedule → Prop, Preserves Point.Aside
      (fun service => holds service.toSchedule) process) : RunsAside process :=
  fun service => wp_mono (kept (fun _ => True) service trivial)
    (fun _ _ held => held.1) fun _ _ _ => trivial

omit [World τ] in
theorem runsAside_whileSuccess
    {call : β → ServiceProc L τ ReturnCode}
    (each : ∀ item, RunsAside (call item))
    (items : List β)
    (rc : ReturnCode) : RunsAside (whileSuccess call items rc) :=
  fun _ => wp_whileSuccess (fun _ _ => True)
    (fun item state _ => each item state) items rc trivial

theorem runsAside_addEvent
    (plugins : Plugins L τ)
    (config : EventConfig) : RunsAside (addEvent plugins config) := by
  intro service
  refine wp_seq (runsAside_of_preserves
    (fun _ => (attachCalls_preserves_schedule plugins).attachSources _ _) service)
    fun result attached _ => ?_
  cases result with
  | error failure => exact wp_pure trivial
  | ok sources =>
      exact wp_bind (wp_call trivial fun _ =>
        wp_bind (wp_modify (wp_pure trivial)))

end Aside

theorem runsAside_onRuntime (process : LibraryProc α) :
    RunsAside (onRuntime process) :=
  runsAside_of_preserves fun _ => onWorld_preserves_schedule _

theorem runsAside_setUpService (conf : DaemonConfig) :
    RunsAside (setUpService machine conf) := by
  intro service
  refine wp_seq (runsAside_whileSuccess (fun _ => runsAside_onRuntime _) _ _
    service) fun _ loaded _ => ?_
  refine wp_seq (runsAside_whileSuccess (fun _ => runsAside_addEvent _ _) _ _
    loaded) fun _ added _ => ?_
  exact runsAside_whileSuccess (fun config => runsAside_of_preserves
    fun _ => (attachCalls_preserves_schedule _).addTarget config) _ _ added

theorem runsAside_destroyService (spoolDir : Bytes) :
    RunsAside (destroyService machine spoolDir) := by
  intro service
  refine wp_seq (runsAside_of_preserves
    (fun _ => (attachCalls_preserves_schedule _).destroy) service)
    fun _ detached _ => ?_
  refine wp_seq (runsAside_onRuntime _ detached) fun _ dropped _ => ?_
  exact runsAside_onRuntime _ dropped

/-! ## The program -/

/-- The pid file once it has been dealt with: where one is wanted and nothing has
failed, it is written. -/
structure Kept
    (pid : PidFile.Pid)
    (wanted : Bool)
    (rc : ReturnCode)
    (fd : Int)
    (world : PidFile.World) : Prop where
  settled : Settled pid fd world
  running : ReturnCode.isSuccess rc = true → wanted = true →
    ∃ handle, world.phase pid = .running handle

/-- A part of the service outside of the main loop. -/
theorem conforming_aside
    {process : ServiceProc (LogPoint ⊕ LibraryPoint) (Reader × Runtime) α}
    (traced : Traced stale holds main)
    (aside : RunsAside process) :
    Conforming machine stale wanted (onService process)
      (fun _ after => Traced stale holds after ∧
        after.pidfileFd = main.pidfileFd) main :=
  conforming_onService traced (aside main.service) fun _ isAside _ _ notAside =>
    absurd isAside notAside

theorem conforming_daemonize
    (rc : ReturnCode)
    (idle : Traced stale (Idle machine.pid) main)
    (daemon : Bool) :
    Conforming machine stale wanted
      (ifSuccess rc
        (if daemon then daemonize else pure ReturnCode.success))
      (fun _ after => Traced stale (Idle machine.pid) after ∧
        after.pidfileFd = main.pidfileFd) main := by
  cases rc with
  | error failure => exact wp_pure ⟨idle, rfl⟩
  | ok _ =>
      cases daemon with
      | false => exact wp_pure ⟨idle, rfl⟩
      | true =>
          refine wp_bind (wp_call (idle.mono fun _ held => held.phase)
            fun entry => ?_)
          split
          · exact wp_pure ⟨idle, rfl⟩
          · exact wp_pure ⟨idle, rfl⟩

theorem conforming_keepPidfile
    (rc : ReturnCode)
    (path : Bytes)
    (idle : Traced stale (Idle machine.pid) main)
    (closed : main.pidfileFd < 0) :
    Conforming machine stale (!path.isEmpty)
      (ifSuccess rc
        (if path.isEmpty then pure ReturnCode.success
        else writePidfile machine path))
      (fun rc after =>
        Traced stale (Kept machine.pid (!path.isEmpty) rc after.pidfileFd) after)
      main := by
  have unopened : ∀ world, Idle machine.pid world →
      Settled machine.pid main.pidfileFd world := fun _ held =>
    .inl ⟨closed, .inl held.phase⟩
  cases rc with
  | error failure =>
      exact wp_pure (idle.mono fun world held =>
        ⟨unopened world held, fun success => by cases success⟩)
  | ok _ =>
      cases isEmpty : path.isEmpty with
      | true =>
          refine wp_pure (idle.mono fun world held =>
            ⟨unopened world held, fun _ want => by cases want⟩)
      | false =>
          refine wp_mono (conforming_writePidfile path idle)
            (fun _ _ held => held) fun rc after written => ?_
          refine written.mono fun world held => ?_
          cases rc with
          | error failure =>
              exact ⟨.inl ⟨held.1, .inr held.2⟩, fun success => by cases success⟩
          | ok _ => exact ⟨.inr held, fun _ _ => held.imp fun _ => And.left⟩

theorem conforming_run
    (rc : ReturnCode)
    (spoolDir : Bytes)
    (kept : Traced stale (Kept machine.pid wanted rc main.pidfileFd) main) :
    Conforming machine stale wanted
      (ifSuccess rc (onService (run (servicePlugins machine spoolDir))))
      (fun _ after =>
        Traced stale (Settled machine.pid after.pidfileFd) after) main := by
  cases rc with
  | error failure => exact wp_pure (kept.mono fun _ held => held.settled)
  | ok _ =>
      refine wp_mono (conforming_onService kept
        (wp_mono (wp_trivial _ main.service) (fun _ _ held => held)
          fun _ _ held => held) fun _ _ world held _ want =>
          held.running rfl want) (fun _ _ held => held) ?_
      rintro _ after ⟨still, same⟩
      rw [same]
      exact still.mono fun _ held => held.settled

theorem conforming_serveConfig
    (flags : Flags)
    (conf : DaemonConfig)
    (idle : Traced stale (Idle machine.pid) main)
    (closed : main.pidfileFd < 0) :
    Conforming machine stale (!flags.pidfile.isEmpty)
      (serveConfig machine flags conf)
      (fun _ after => Traced stale (Over machine.pid) after) main := by
  refine wp_seq (conforming_aside idle fun _ => wp_modify trivial) ?_
  rintro _ created ⟨idle, sameFd⟩
  rw [← sameFd] at closed
  refine wp_seq (conforming_aside idle (runsAside_setUpService conf)) ?_
  rintro rc set ⟨idle, sameFd⟩
  rw [← sameFd] at closed
  refine wp_seq (conforming_daemonize rc idle flags.daemonize) ?_
  rintro rc daemon ⟨idle, sameFd⟩
  rw [← sameFd] at closed
  refine wp_seq (conforming_keepPidfile rc flags.pidfile idle closed)
    fun rc named kept => ?_
  refine wp_seq (conforming_run rc conf.spoolDir kept)
    fun rc ended settled => ?_
  refine wp_seq (conforming_aside settled
    (runsAside_destroyService conf.spoolDir)) ?_
  rintro _ gone ⟨settled, sameFd⟩
  rw [← sameFd] at settled
  exact wp_seq (conforming_removePidfile flags.pidfile settled)
    fun _ _ isOver => wp_pure isOver

/-- Whatever the kernel answers, what the program does with its pid file is a run
of the protocol, the phase is that of the program point, and at the end the
descriptor is closed, or it is zero and the file is left as it is. -/
theorem main_conforms
    (flags : Flags)
    (disk : Disk) :
    (∀ point state,
      Reaches (Daemon.main machine flags) (Main.start disk) point state →
        Conforms machine stale (!flags.pidfile.isEmpty) point state) ∧
      ∀ code state,
        Ends (Daemon.main machine flags) (Main.start disk) code state →
          Traced stale (Over machine.pid) state := by
  have idle : Traced stale (Idle machine.pid) (Main.start disk) :=
    ⟨_, rfl, rfl, fun _ => rfl⟩
  have ended : Traced stale (Over machine.pid) (Main.start disk) :=
    idle.mono fun _ held => .inl held.phase
  have valid : Conforming machine stale (!flags.pidfile.isEmpty)
      (Daemon.main machine flags)
      (fun _ after => Traced stale (Over machine.pid) after)
      (Main.start disk) := by
    unfold Daemon.main loadConfig
    dsimp only [ReturnCode.success]
    split
    · exact wp_pure ended
    · split
      · exact wp_pure ended
      · split
        · exact wp_pure ended
        · exact conforming_serveConfig flags _ idle (Int.negSucc_lt_zero 0)
  exact ⟨fun _ _ reached => valid.reaches reached,
    fun _ _ ended => valid.ends ended⟩

end Daemon
end EvCollect
