import FixProtocol.Bytes
import FixProtocol.Error

/-!
# Journals

A journal holds the messages of one direction in ascending order of their numbers, and the number
that the direction goes on with. It only grows at its end.

- `Journal.append`: keeps a message whose number is above all others, or refuses it.
- `Journal.range`: the messages with numbers in a range.
- `Journal.entries_append`, `Journal.append_eq_error_iff`: what an append adds, and when it fails.
-/

namespace FixProtocol

/-- The messages of one direction. Numbers ascend, and the first is above zero. -/
structure Journal where
  entries : List (SeqNum × Bytes)
  nextSeq : SeqNum
  ascending : (0 :: entries.map Prod.fst).Pairwise (· < ·)

namespace Journal

instance : DecidableEq Journal := fun a b =>
  decidable_of_iff (a.entries = b.entries ∧ a.nextSeq = b.nextSeq) <| by
    obtain ⟨_, _, _⟩ := a
    obtain ⟨_, _, _⟩ := b
    simp

/-- A journal without messages that goes on with the given number. -/
def startingAt (n : SeqNum) : Journal where
  entries := []
  nextSeq := n
  ascending := by simp

/-- The number of the last message, or zero. -/
def last (j : Journal) : SeqNum :=
  ((0 : SeqNum) :: j.entries.map Prod.fst).getLast (List.cons_ne_nil _ _)

/-- How many messages there are. -/
def size (j : Journal) : Nat :=
  j.entries.length

/-- Is there a message with this number? -/
def contains (j : Journal) (n : SeqNum) : Bool :=
  j.entries.any (·.1 = n)

/-- The messages with numbers from `first` to `last`, in ascending order. -/
def range (j : Journal) (first last : SeqNum) : List (SeqNum × Bytes) :=
  j.entries.filter fun e => first ≤ e.1 && e.1 ≤ last

/-- Sets the number that the direction goes on with. -/
def setNextSeq (j : Journal) (n : SeqNum) : Journal :=
  { j with nextSeq := n }

/-- In an ascending list everything is at most the last element. -/
theorem le_getLast_of_ascending {ns : List SeqNum} (h : ns.Pairwise (· < ·)) (hne : ns ≠ [])
    {m : SeqNum} (hm : m ∈ ns) : m ≤ ns.getLast hne := by
  rw [← List.dropLast_concat_getLast hne] at h hm
  rcases List.mem_append.mp hm with hm | hm
  · have := (List.pairwise_append.mp h).2.2 m hm _ (List.mem_singleton_self _)
    grind
  · rw [List.mem_singleton.mp hm]
    grind

/-- A number above the last one can be added at the end. -/
theorem ascending_concat {j : Journal} {n : SeqNum} (h : j.last < n) (bs : Bytes) :
    (0 :: (j.entries ++ [(n, bs)]).map Prod.fst).Pairwise (· < ·) := by
  rw [List.map_append, ← List.cons_append, List.pairwise_append]
  refine ⟨j.ascending, by simp, fun m hm k hk => ?_⟩
  have hk : k = n := by simpa using hk
  have := le_getLast_of_ascending j.ascending (List.cons_ne_nil _ _) hm
  rw [last] at h
  grind

/-- Keeps a message under a number above all others, and raises the number to go on with to the one
after it. -/
def append (j : Journal) (n : SeqNum) (bs : Bytes) : Except StoreError Journal :=
  if h : j.last < n then
    .ok
      { entries := j.entries ++ [(n, bs)]
        nextSeq := max j.nextSeq n.next
        ascending := ascending_concat h bs }
  else .error (.notMonotonic n j.last)

theorem append_eq_error_iff {j : Journal} {n : SeqNum} {bs : Bytes} {e : StoreError} :
    j.append n bs = .error e ↔ n ≤ j.last ∧ e = .notMonotonic n j.last := by
  unfold append
  split
  · next h => simp only [reduceCtorEq, false_iff, not_and]; intro hle; grind
  · next h =>
    rw [Except.error.injEq]
    exact ⟨fun he => ⟨by grind, he.symm⟩, fun he => he.2.symm⟩

theorem entries_append {j j' : Journal} {n : SeqNum} {bs : Bytes} (h : j.append n bs = .ok j') :
    j'.entries = j.entries ++ [(n, bs)] := by
  unfold append at h
  split at h
  · rw [← Except.ok.inj h]
  · simp at h

theorem nextSeq_append {j j' : Journal} {n : SeqNum} {bs : Bytes} (h : j.append n bs = .ok j') :
    j'.nextSeq = max j.nextSeq n.next := by
  unfold append at h
  split at h
  · rw [← Except.ok.inj h]
  · simp at h

theorem mem_range_iff {j : Journal} {first last : SeqNum} {e : SeqNum × Bytes} :
    e ∈ j.range first last ↔ e ∈ j.entries ∧ first ≤ e.1 ∧ e.1 ≤ last := by
  simp [range]

theorem last_append {j j' : Journal} {n : SeqNum} {bs : Bytes} (h : j.append n bs = .ok j') :
    j.last < n ∧ j'.last = n := by
  unfold append at h
  split at h
  · next hlt =>
    rw [← Except.ok.inj h]
    refine ⟨hlt, ?_⟩
    show ((0 :: (j.entries ++ [(n, bs)]).map Prod.fst)).getLast (List.cons_ne_nil _ _) = n
    simp only [List.map_append, List.map_cons, List.map_nil, ← List.cons_append,
      List.getLast_concat]
  · cases h

/-- Everything in a journal is at most its last number. -/
theorem le_last {j : Journal} {e : SeqNum × Bytes} (h : e ∈ j.entries) : e.1 ≤ j.last :=
  le_getLast_of_ascending j.ascending _ (List.mem_cons_of_mem _ (List.mem_map_of_mem h))

/-- Everything in a journal is below a number when its last number is. -/
theorem last_lt_iff {j : Journal} {n : SeqNum} (hn : .first ≤ n) :
    j.last < n ↔ ∀ e ∈ j.entries, e.1 < n := by
  constructor
  · intro h e he
    exact UInt64.lt_of_le_of_lt (le_last he) h
  · intro h
    have hmem : j.last ∈ (0 : SeqNum) :: j.entries.map Prod.fst := List.getLast_mem _
    rcases List.mem_cons.mp hmem with hzero | hmem
    · rw [hzero]
      exact UInt64.lt_of_lt_of_le (by decide) hn
    · obtain ⟨e, he, heq⟩ := List.mem_map.mp hmem
      rw [← heq]
      exact h e he

theorem ascending_range (j : Journal) (first last : SeqNum) :
    ((j.range first last).map Prod.fst).Pairwise (· < ·) :=
  (List.pairwise_cons.mp j.ascending).2.sublist (List.filter_sublist.map Prod.fst)

end Journal

end FixProtocol
