import Mathlib.Data.List.Sort

/-!
# Queues ordered by a key that lives outside of them

An ordered multiset of handles is a list that is sorted by a key, where a new
handle is put behind all handles whose key is not greater. The key is a
parameter of every operation, since it belongs to the objects the handles
stand for and can change while a handle is out of the queue.
-/

namespace EvCollect
namespace Queue

variable {α κ : Type} [LinearOrder κ]

/-- The queue is sorted by the key. -/
def Ordered (key : α → κ) (queue : List α) : Prop :=
  queue.Pairwise fun first second => key first ≤ key second

/-- Insertion at the end of the range of equal keys. -/
def insertLast (key : α → κ) (item : α) (queue : List α) : List α :=
  queue.orderedInsert (fun new old => key new < key old) item

/-- `first` stands somewhere before `second` in the queue. -/
def Precedes (queue : List α) (first second : α) : Prop :=
  [first, second].Sublist queue

theorem insertLast_perm (key : α → κ) (item : α) (queue : List α) :
    (insertLast key item queue).Perm (item :: queue) :=
  List.perm_orderedInsert _ item queue

@[simp] theorem mem_insertLast
    (key : α → κ)
    (item other : α)
    (queue : List α) :
    other ∈ insertLast key item queue ↔ other = item ∨ other ∈ queue :=
  List.mem_orderedInsert _

theorem Ordered.tail
    {key : α → κ}
    {head : α}
    {queue : List α}
    (ordered : Ordered key (head :: queue)) :
    Ordered key queue :=
  (List.pairwise_cons.mp ordered).2

/-- The head of an ordered queue has a least key. -/
theorem Ordered.head_le
    {key : α → κ}
    {head other : α}
    {queue : List α}
    (ordered : Ordered key (head :: queue))
    (present : other ∈ head :: queue) :
    key head ≤ key other := by
  rcases List.mem_cons.mp present with equal | inTail
  · exact equal ▸ le_refl _
  · exact (List.pairwise_cons.mp ordered).1 other inTail

/-- Only the keys of the handles inside the queue matter. -/
theorem Ordered.congr
    {key key' : α → κ}
    {queue : List α}
    (ordered : Ordered key queue)
    (agree : ∀ item ∈ queue, key' item = key item) :
    Ordered key' queue := by
  refine List.Pairwise.imp_of_mem ?_ ordered
  intro first second firstMember secondMember le
  rw [agree first firstMember, agree second secondMember]
  exact le

theorem Ordered.insertLast
    {key : α → κ}
    {queue : List α}
    (ordered : Ordered key queue)
    (item : α) :
    Ordered key (insertLast key item queue) := by
  unfold Queue.insertLast
  induction queue with
  | nil => simp [Ordered]
  | cons head queue inductionHypothesis =>
      rw [List.orderedInsert_cons]
      by_cases before : key item < key head
      · rw [if_pos before]
        refine List.pairwise_cons.mpr ⟨?_, ordered⟩
        intro other present
        exact before.le.trans (ordered.head_le present)
      · rw [if_neg before]
        refine List.pairwise_cons.mpr
          ⟨?_, inductionHypothesis ordered.tail⟩
        intro other present
        rcases (mem_insertLast key item other queue).mp present with
          equal | inTail
        · exact equal ▸ le_of_not_gt before
        · exact ordered.head_le (List.mem_cons_of_mem _ inTail)

/-! ## Who stands before whom -/

/-- A new handle is put behind every handle whose key is not greater. -/
theorem Ordered.precedes_insertLast
    {key : α → κ}
    {queue : List α}
    {item other : α}
    (ordered : Ordered key queue)
    (present : other ∈ queue)
    (le : key other ≤ key item) :
    Precedes (Queue.insertLast key item queue) other item := by
  unfold Queue.insertLast Precedes
  induction queue with
  | nil => simp at present
  | cons head queue inductionHypothesis =>
      have headLe : key head ≤ key item := (ordered.head_le present).trans le
      rw [List.orderedInsert_cons, if_neg headLe.not_gt]
      rcases List.mem_cons.mp present with equal | inTail
      · subst equal
        refine List.Sublist.cons_cons other (List.singleton_sublist.mpr ?_)
        exact (List.mem_orderedInsert _).mpr (Or.inl rfl)
      · exact (inductionHypothesis ordered.tail inTail).cons head

/-- An insertion keeps the order of the handles already there. -/
theorem Precedes.insertLast
    {queue : List α}
    {first second : α}
    (precedes : Precedes queue first second)
    (key : α → κ)
    (item : α) :
    Precedes (insertLast key item queue) first second :=
  List.Sublist.trans precedes (List.sublist_orderedInsert item queue)

omit [LinearOrder κ] in
/-- Taking another handle off the head keeps the order of the rest. -/
theorem Precedes.of_cons
    {head first second : α}
    {queue : List α}
    (precedes : Precedes (head :: queue) first second)
    (different : first ≠ head) :
    Precedes queue first second := by
  rcases List.sublist_cons_iff.mp precedes with inTail | ⟨rest, equal, _⟩
  · exact inTail
  · exact absurd (List.cons.inj equal).1 different

omit [LinearOrder κ] in
/-- Where no handle occurs twice, the head has no predecessor. -/
theorem Precedes.ne_head
    {head first second : α}
    {queue : List α}
    (precedes : Precedes (head :: queue) first second)
    (nodup : (head :: queue).Nodup) :
    second ≠ head := by
  intro equal
  subst equal
  have absent : second ∉ queue := (List.nodup_cons.mp nodup).1
  rcases List.sublist_cons_iff.mp precedes with inTail | ⟨rest, equal, sub⟩
  · exact absent (List.Sublist.subset inTail (by simp))
  · obtain ⟨_, rfl⟩ := List.cons.inj equal
    exact absent (List.Sublist.subset sub (by simp))

end Queue
end EvCollect
