import Mathlib.Logic.Function.Basic
import EvCollect.Basic

/-!
# The file system as one log reader sees it

The files that have been at the log file's path, by inode, and the checkpoint
file. Other processes append to files, put a new file at the path, cut the
current file down or remove the path. Inodes are never used again.
-/

namespace EvCollect
namespace Logfile

structure Disk where
  /-- The contents of every inode. -/
  files : UInt64 → Bytes
  /-- The inode at the log file's path. -/
  path : Option UInt64
  /-- The inodes that a new file cannot get. -/
  used : List UInt64
  /-- The contents of the checkpoint file. -/
  checkpoint : Option Bytes
  /-- History: the path has been given another file, or been removed. -/
  replaced : Bool := false
  /-- History: some file has been cut down in place. -/
  truncated : Bool := false
  /-- History: an `open` of the path got another file than the `stat` before
  it. -/
  strayed : Bool := false
  /-- File sizes are values of `off_t`. -/
  bounded : ∀ inode, (files inode).length < 2 ^ 63
  /-- No new file gets the inode zero. -/
  zero_used : 0 ∈ used
  path_used : ∀ inode, path = some inode → inode ∈ used

namespace Disk

/-- The size of a file, as `stat` reports it. -/
def size (disk : Disk) (inode : UInt64) : UInt64 :=
  UInt64.ofNat (disk.files inode).length

theorem toNat_size (disk : Disk) (inode : UInt64) :
    (disk.size inode).toNat = (disk.files inode).length := by
  have bound := disk.bounded inode
  rw [size, UInt64.toNat_ofNat']
  exact Nat.mod_eq_of_lt (by omega)

/-- Append to a file, if it does not grow too large. -/
def append (inode : UInt64) (data : Bytes) (disk : Disk) : Disk :=
  if fits : (disk.files inode ++ data).length < 2 ^ 63 then
    { disk with
      files := Function.update disk.files inode (disk.files inode ++ data)
      bounded := by
        intro other
        by_cases same : other = inode
        · subst same
          simpa using fits
        · simpa [same] using disk.bounded other }
  else disk

/-- Put a new file at the path, if its inode is fresh. -/
def replace (inode : UInt64) (data : Bytes) (disk : Disk) : Disk :=
  if fresh : inode ∉ disk.used ∧ data.length < 2 ^ 63 then
    { disk with
      files := Function.update disk.files inode data
      path := some inode
      used := inode :: disk.used
      replaced := true
      bounded := by
        intro other
        by_cases same : other = inode
        · subst same
          simpa using fresh.2
        · simpa [same] using disk.bounded other
      zero_used := List.mem_cons_of_mem _ disk.zero_used
      path_used := by
        intro other equal
        cases equal
        exact List.mem_cons_self }
  else disk

/-- Cut the current file down to a size. -/
def truncate (size : Nat) (disk : Disk) : Disk :=
  match disk.path with
  | none => disk
  | some inode =>
      { disk with
        files := Function.update disk.files inode
          ((disk.files inode).take size)
        truncated := true
        bounded := by
          intro other
          by_cases same : other = inode
          · subst same
            have bound := disk.bounded other
            simp only [Function.update_self, List.length_take]
            omega
          · simpa [same] using disk.bounded other }

/-- Remove the path. -/
def unlink (disk : Disk) : Disk :=
  { disk with
    path := none
    replaced := true
    path_used := by simp }

/-- What another process does to the files. -/
def apply (disk : Disk) : WriterAction → Disk
  | .append inode data => disk.append inode data
  | .replace inode data => disk.replace inode data
  | .truncate size => disk.truncate size
  | .unlink => disk.unlink

/-- What all other processes do before a system call. -/
def react (entry : Entry) (disk : Disk) : Disk :=
  entry.writers.foldl apply disk

/-- Store the contents of the checkpoint file. -/
def setCheckpoint (data : Bytes) (disk : Disk) : Disk :=
  { disk with checkpoint := some data }

/-- Note which file an `open` got, and which one the `stat` before it. -/
def noteOpened (opened found : UInt64) (disk : Disk) : Disk :=
  { disk with strayed := disk.strayed || decide (opened ≠ found) }

/-- What a reader has read as this file is from this file: it is still at the
path, or no `open` ever got another file than the `stat` before it. -/
def Trusts (disk : Disk) (inode : UInt64) : Prop :=
  disk.path = some inode ∨ disk.strayed = false

end Disk

/-! ## What other processes can do -/

/-- How a disk can come from an earlier one, as far as log readers care: by what
other processes do, and by opening the log file. -/
structure Disk.Grows (before after : Disk) : Prop where
  checkpoint : after.checkpoint = before.checkpoint
  used : ∀ inode ∈ before.used, inode ∈ after.used
  truncated : after.truncated = false → before.truncated = false
  strayed : after.strayed = false → before.strayed = false
  replaced : after.replaced = false →
    before.replaced = false ∧ after.path = before.path
  /-- A file at the path was there before, or it is new. -/
  path : ∀ inode, after.path = some inode →
    before.path = some inode ∨ inode ∉ before.used
  /-- A file is only appended to. -/
  files : after.truncated = false → ∀ inode ∈ before.used,
    before.files inode <+: after.files inode

namespace Disk

theorem Grows.refl (disk : Disk) : disk.Grows disk where
  checkpoint := rfl
  used := fun _ member => member
  truncated := id
  strayed := id
  replaced := fun kept => ⟨kept, rfl⟩
  path := fun _ current => Or.inl current
  files := fun _ _ _ => List.prefix_rfl

theorem Grows.trans
    {first second third : Disk}
    (left : first.Grows second)
    (right : second.Grows third) :
    first.Grows third where
  checkpoint := right.checkpoint.trans left.checkpoint
  used := fun inode member => right.used inode (left.used inode member)
  truncated := fun kept => left.truncated (right.truncated kept)
  strayed := fun kept => left.strayed (right.strayed kept)
  replaced := fun kept =>
    ⟨(left.replaced (right.replaced kept).1).1,
      (right.replaced kept).2.trans (left.replaced (right.replaced kept).1).2⟩
  path := by
    intro inode current
    rcases right.path inode current with middle | fresh
    · exact left.path inode middle
    · exact Or.inr fun member => fresh (left.used inode member)
  files := fun kept inode member =>
    (left.files (right.truncated kept) inode member).trans
      (right.files kept inode (left.used inode member))

/-- What is said of a file that was there before, was said before. -/
theorem Grows.trusts
    {before after : Disk}
    (grows : before.Grows after)
    {inode : UInt64}
    (member : inode ∈ before.used)
    (trusted : after.Trusts inode) :
    before.Trusts inode := by
  rcases trusted with current | straight
  · exact Or.inl ((grows.path inode current).resolve_right
      fun fresh => fresh member)
  · exact Or.inr (grows.strayed straight)

theorem grows_append (inode : UInt64) (data : Bytes) (disk : Disk) :
    disk.Grows (disk.append inode data) := by
  unfold append
  split
  · refine
      { checkpoint := rfl
        used := fun _ member => member
        truncated := id
        strayed := id
        replaced := fun kept => ⟨kept, rfl⟩
        path := fun _ current => Or.inl current
        files := ?_ }
    intro _ other _
    by_cases same : other = inode
    · subst same
      simp
    · simp [same]
  · exact Grows.refl disk

theorem grows_replace (inode : UInt64) (data : Bytes) (disk : Disk) :
    disk.Grows (disk.replace inode data) := by
  unfold replace
  split
  next fresh =>
    refine
      { checkpoint := rfl
        used := fun _ member => List.mem_cons_of_mem _ member
        truncated := id
        strayed := id
        replaced := by simp
        path := ?_
        files := ?_ }
    · intro other current
      cases current
      exact Or.inr fresh.1
    · intro _ other member
      have different : other ≠ inode := fun same => fresh.1 (same ▸ member)
      simp [different]
  next => exact Grows.refl disk

theorem grows_truncate (size : Nat) (disk : Disk) :
    disk.Grows (disk.truncate size) := by
  unfold truncate
  split
  · exact Grows.refl disk
  · exact
      { checkpoint := rfl
        used := fun _ member => member
        truncated := by simp
        strayed := id
        replaced := fun kept => ⟨kept, rfl⟩
        path := fun _ current => Or.inl current
        files := by simp }

theorem grows_unlink (disk : Disk) : disk.Grows disk.unlink where
  checkpoint := rfl
  used := fun _ member => member
  truncated := id
  strayed := id
  replaced := by simp [unlink]
  path := by simp [unlink]
  files := fun _ _ _ => List.prefix_rfl

/-- An `open` of the log file leaves the files alone. -/
theorem grows_noteOpened (opened found : UInt64) (disk : Disk) :
    disk.Grows (disk.noteOpened opened found) where
  checkpoint := rfl
  used := fun _ member => member
  truncated := id
  strayed := fun kept => (Bool.or_eq_false_iff.mp kept).1
  replaced := fun kept => ⟨kept, rfl⟩
  path := fun _ current => Or.inl current
  files := fun _ _ _ => List.prefix_rfl

/-- Whatever the other processes do, the disk grows. -/
theorem grows_apply (action : WriterAction) (disk : Disk) :
    disk.Grows (disk.apply action) := by
  cases action with
  | append inode data => exact grows_append inode data disk
  | replace inode data => exact grows_replace inode data disk
  | truncate size => exact grows_truncate size disk
  | unlink => exact grows_unlink disk

theorem grows_react (entry : Entry) (disk : Disk) :
    disk.Grows (disk.react entry) := by
  unfold react
  induction entry.writers generalizing disk with
  | nil => exact Grows.refl disk
  | cons action actions inductionHypothesis =>
      exact (grows_apply action disk).trans (inductionHypothesis _)

end Disk

end Logfile
end EvCollect
