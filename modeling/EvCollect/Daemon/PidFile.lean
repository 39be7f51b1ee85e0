import EvCollect.Transition.Basic
import EvCollect.Util.StringUtil
import Mathlib.Logic.Function.Basic

/-!
# The pid file of the daemon

What `main` does with the pid file, for any number of daemons that are started
with one path and whose system calls interleave in any order. A daemon opens or
creates the file, locks it without waiting, truncates it, writes its process
number and runs; when it stops it removes the path and unlocks the file. Each
call may fail, and a daemon may be killed at any point.

A file is known by its inode. The lock belongs to the file, not to the path: a
daemon that has opened a file keeps it while another one removes the path.
-/

namespace EvCollect
namespace PidFile

abbrev Pid := Nat

abbrev Inode := Nat

/-- An open pid file. -/
structure Handle where
  inode : Inode
  fd : Nat
  deriving DecidableEq, Repr

/-- How far a daemon has come. -/
inductive Phase
  /-- It has not opened the file yet. -/
  | starting
  /-- It is about to lock the file. -/
  | opened (handle : Handle)
  /-- It is about to truncate the file. -/
  | locked (handle : Handle)
  /-- It is about to write its number. -/
  | truncated (handle : Handle)
  /-- It runs the service or destroys it. -/
  | running (handle : Handle)
  /-- It is about to unlock the file. -/
  | unlinked (handle : Handle)
  /-- It is about to close the file. -/
  | unlocked (handle : Handle)
  | exited
  deriving DecidableEq, Repr

/-- The next system call of a daemon, with what the kernel answers. -/
inductive Action
  | openFile (pid : Pid) (fd : Int)
  | flock (pid : Pid) (granted : Bool)
  | ftruncate (pid : Pid) (ok : Bool)
  | write (pid : Pid) (count : Int)
  /-- The shutdown code removes the path. -/
  | unlink (pid : Pid) (ok : Bool)
  /-- The shutdown code passes over the pid file. -/
  | leave (pid : Pid)
  | unlock (pid : Pid)
  | close (pid : Pid)
  /-- The daemon is killed. -/
  | crash (pid : Pid)
  deriving DecidableEq, Repr

structure World where
  /-- The file that the path names. -/
  path : Option Inode
  /-- No file has this inode or a later one. -/
  fresh : Inode
  contents : Inode → Bytes
  /-- Who holds the lock on a file. -/
  holder : Inode → Option Pid
  phase : Pid → Phase

/-- What a daemon writes into its pid file. -/
def pidText (pid : Pid) : Bytes :=
  StringUtil.decimal pid

namespace World

def setPhase (pid : Pid) (phase : Phase) (world : World) : World :=
  { world with phase := Function.update world.phase pid phase }

def setHolder (inode : Inode) (holder : Option Pid) (world : World) : World :=
  { world with holder := Function.update world.holder inode holder }

def setContents (inode : Inode) (text : Bytes) (world : World) : World :=
  { world with contents := Function.update world.contents inode text }

/-- Close the file, which gives up the lock, and leave `main`. -/
def giveUp (pid : Pid) (handle : Handle) (world : World) : World :=
  (world.setHolder handle.inode none).setPhase pid .exited

/-- `open` with `O_WRONLY | O_CREAT`. -/
def openPath (pid : Pid) (fd : Nat) (world : World) : World :=
  match world.path with
  | some inode => world.setPhase pid (.opened { inode := inode, fd := fd })
  | none =>
      { (world.setContents world.fresh []).setPhase pid
          (.opened { inode := world.fresh, fd := fd }) with
        path := some world.fresh
        fresh := world.fresh + 1 }

/-- The text of a file after a write at its beginning. -/
def overwrite (count : Nat) (text old : Bytes) : Bytes :=
  text.take count ++ old.drop count

/-- A step of a daemon, if that is what it does next. -/
def step (world : World) : Action → Option World
  | .openFile pid fd =>
      match world.phase pid with
      | .starting =>
          if fd < 0 then some (world.setPhase pid .exited)
          else some (world.openPath pid fd.toNat)
      | _ => none
  | .flock pid granted =>
      match world.phase pid with
      | .opened handle =>
          if granted = true ∧ world.holder handle.inode = none then
            some ((world.setHolder handle.inode (some pid)).setPhase pid
              (.locked handle))
          else some (world.setPhase pid .exited)
      | _ => none
  | .ftruncate pid ok =>
      match world.phase pid with
      | .locked handle =>
          if ok then
            some ((world.setContents handle.inode []).setPhase pid
              (.truncated handle))
          else some (world.giveUp pid handle)
      | _ => none
  | .write pid count =>
      match world.phase pid with
      | .truncated handle =>
          let written := world.setContents handle.inode
            (overwrite count.toNat (pidText pid) (world.contents handle.inode))
          if (pidText pid).length < count then none
          else if count = (pidText pid).length then
            some (written.setPhase pid (.running handle))
          else some (written.giveUp pid handle)
      | _ => none
  | .unlink pid ok =>
      match world.phase pid with
      | .running handle =>
          if 0 < handle.fd then
            let removed := if ok then { world with path := none } else world
            some (removed.setPhase pid (.unlinked handle))
          else none
      | _ => none
  | .leave pid =>
      match world.phase pid with
      | .running handle =>
          if 0 < handle.fd then none else some (world.giveUp pid handle)
      | _ => none
  | .unlock pid =>
      match world.phase pid with
      | .unlinked handle =>
          some ((world.setHolder handle.inode none).setPhase pid
            (.unlocked handle))
      | _ => none
  | .close pid =>
      match world.phase pid with
      | .unlocked _ => some (world.setPhase pid .exited)
      | _ => none
  | .crash pid =>
      match world.phase pid with
      | .exited => none
      | .locked handle | .truncated handle | .running handle
      | .unlinked handle => some (world.giveUp pid handle)
      | .starting | .opened _ | .unlocked _ =>
          some (world.setPhase pid .exited)

/-- Before any daemon is started, with the file that an earlier one may have
left. -/
def initial (stale : Option Bytes) : World :=
  { path := stale.map fun _ => 0
    fresh := 1
    contents := fun _ => stale.getD []
    holder := fun _ => none
    phase := fun _ => .starting }

end World

namespace World

section Reads

variable (world : World) (pid : Pid) (next : Phase)
variable (file : Inode) (owner : Option Pid) (text : Bytes)

@[simp] theorem phase_setPhase :
    (world.setPhase pid next).phase = Function.update world.phase pid next :=
  rfl

theorem phase_setPhase_self : (world.setPhase pid next).phase pid = next :=
  Function.update_self _ _ _

@[simp] theorem holder_setPhase :
    (world.setPhase pid next).holder = world.holder :=
  rfl

@[simp] theorem contents_setPhase :
    (world.setPhase pid next).contents = world.contents :=
  rfl

@[simp] theorem path_setPhase : (world.setPhase pid next).path = world.path :=
  rfl

@[simp] theorem fresh_setPhase :
    (world.setPhase pid next).fresh = world.fresh :=
  rfl

@[simp] theorem phase_setHolder :
    (world.setHolder file owner).phase = world.phase :=
  rfl

@[simp] theorem holder_setHolder :
    (world.setHolder file owner).holder =
      Function.update world.holder file owner :=
  rfl

@[simp] theorem contents_setHolder :
    (world.setHolder file owner).contents = world.contents :=
  rfl

@[simp] theorem path_setHolder :
    (world.setHolder file owner).path = world.path :=
  rfl

@[simp] theorem fresh_setHolder :
    (world.setHolder file owner).fresh = world.fresh :=
  rfl

@[simp] theorem phase_setContents :
    (world.setContents file text).phase = world.phase :=
  rfl

@[simp] theorem holder_setContents :
    (world.setContents file text).holder = world.holder :=
  rfl

@[simp] theorem contents_setContents :
    (world.setContents file text).contents =
      Function.update world.contents file text :=
  rfl

@[simp] theorem path_setContents :
    (world.setContents file text).path = world.path :=
  rfl

@[simp] theorem fresh_setContents :
    (world.setContents file text).fresh = world.fresh :=
  rfl

theorem giveUp_setPhase (handle : Handle) :
    (world.setPhase pid next).giveUp pid handle = world.giveUp pid handle := by
  simp [giveUp, setPhase, setHolder]

theorem phase_openPath (fd : Nat) :
    (world.openPath pid fd).phase =
      Function.update world.phase pid
        (.opened { inode := world.path.getD world.fresh, fd := fd }) := by
  unfold openPath
  cases world.path <;> rfl

theorem path_openPath (fd : Nat) :
    (world.openPath pid fd).path = some (world.path.getD world.fresh) := by
  unfold openPath
  cases here : world.path
  · rfl
  · exact here

end Reads

end World

namespace Phase

/-- The file that is open. -/
def inode : Phase → Option Inode
  | .opened handle | .locked handle | .truncated handle | .running handle
  | .unlinked handle | .unlocked handle => some handle.inode
  | .starting | .exited => none

/-- The file whose lock is held. -/
def holding : Phase → Option Inode
  | .locked handle | .truncated handle | .running handle
  | .unlinked handle => some handle.inode
  | .starting | .opened _ | .unlocked _ | .exited => none

/-- The file that is open and whose path has not been removed. -/
def named : Phase → Option Inode
  | .opened handle | .locked handle | .truncated handle
  | .running handle => some handle.inode
  | .starting | .unlinked _ | .unlocked _ | .exited => none

/-- What is known about the text of the file. -/
def text (pid : Pid) : Phase → Option Bytes
  | .truncated _ => some []
  | .running _ | .unlinked _ => some (pidText pid)
  | .starting | .opened _ | .locked _ | .unlocked _ | .exited => none

theorem inode_of_holding
    {phase : Phase}
    {inode : Inode}
    (held : phase.holding = some inode) : phase.inode = some inode := by
  cases phase <;> first | exact held | cases held

end Phase
end PidFile
end EvCollect
