import EvCollect.Logfile.Source
import EvCollect.Util.Sha1Hex
import EvCollect.Util.Sha1Messages

/-!
# The names of checkpoint files

The name of a checkpoint file is made from the hash of the name of its log
file. It does not depend on what the stack held when the hash was computed, so
that a restarted daemon finds the file again, and two log files share a
checkpoint file only if SHA-1 maps their names to one digest.
-/

namespace EvCollect
namespace Logfile

/-- `SHA1::compute(filename).toString()`. -/
def hashText (garbage : SHA1.Buffer) (filename : Bytes) : Bytes :=
  ((SHA1.compute garbage filename).map SHA1Hash.toString).getD []

/-- The text of the hash of a name, which is that of its digest. -/
theorem hashText_eq
    (garbage : SHA1.Buffer)
    {filename : Bytes}
    (short : filename.length < 2 ^ 29) :
    ∃ hash : SHA1Hash, hash.hash.toList = Hash.Sha1.hash filename ∧
      hashText garbage filename = SHA1Hash.toString hash := by
  have size : filename.length % 2 ^ 32 = filename.length :=
    Nat.mod_eq_of_lt (by omega)
  have small : filename.length % 2 ^ 32 < 2 ^ 31 := by omega
  have computed := SHA1.compute_of_lt garbage small
  rw [size, List.take_length, SHA1.lengthField_of_lt short] at computed
  obtain ⟨hash, result, digest⟩ := Option.map_eq_some_iff.mp computed
  refine ⟨hash, digest, ?_⟩
  rw [hashText, result, Option.map_some, Option.getD_some]

/-- Two log files have one checkpoint file if and only if they have one spool
directory and one digest. -/
theorem checkpointFilename_eq_iff
    (firstGarbage secondGarbage : SHA1.Buffer)
    (firstDir secondDir : Bytes)
    {first second : Bytes}
    (firstShort : first.length < 2 ^ 29)
    (secondShort : second.length < 2 ^ 29) :
    (LogfileSource.create (hashText firstGarbage) first
        firstDir).checkpointFilename =
      (LogfileSource.create (hashText secondGarbage) second
        secondDir).checkpointFilename ↔
      firstDir = secondDir ∧
        Hash.Sha1.hash first = Hash.Sha1.hash second := by
  obtain ⟨firstHash, firstDigest, firstText⟩ :=
    hashText_eq firstGarbage firstShort
  obtain ⟨secondHash, secondDigest, secondText⟩ :=
    hashText_eq secondGarbage secondShort
  simp only [LogfileSource.create, firstText, secondText, ← firstDigest,
    ← secondDigest, List.append_assoc]
  constructor
  · intro same
    have lengths : (bytes "/log_" ++ SHA1Hash.toString firstHash).length =
        (bytes "/log_" ++ SHA1Hash.toString secondHash).length := by
      rw [List.length_append, List.length_append, SHA1Hash.length_toString,
        SHA1Hash.length_toString]
    obtain ⟨sameDir, sameName⟩ := List.append_inj' same lengths
    have sameHash := SHA1Hash.toString_injective
      (List.append_cancel_left sameName)
    exact ⟨sameDir, congrArg (fun hash => hash.hash.toList) sameHash⟩
  · rintro ⟨rfl, sameDigest⟩
    have sameHash : firstHash = secondHash :=
      SHA1Hash.ext (Vector.toList_inj.mp sameDigest)
    rw [sameHash]

theorem checkpointFilename_eq_iff_log :
    (LogfileSource.create (hashText (Vector.replicate 80 0)) (bytes "/log")
        (bytes "/spool")).checkpointFilename =
      (LogfileSource.create (hashText (Vector.replicate 80 1)) (bytes "/log")
        (bytes "/spool")).checkpointFilename ↔
      bytes "/spool" = bytes "/spool" ∧
        Hash.Sha1.hash (bytes "/log") = Hash.Sha1.hash (bytes "/log") :=
  checkpointFilename_eq_iff _ _ _ _ (by decide) (by decide)

end Logfile
end EvCollect
