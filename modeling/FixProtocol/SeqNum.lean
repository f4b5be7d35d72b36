/-!
# Sequence numbers

Each direction of a session numbers its messages. A number is a 64-bit word; zero and the greatest
word number no message, so the number after the last usable one still fits.

- `SeqNum.next`: the following number, staying at the greatest word.
- `SeqNum.succWrapping`: the following word, which is zero after the greatest.
- `SeqNum.toNat_next`: away from the end of the range the next number is one more.
- `SeqNum.isValid_of_lt`, `SeqNum.isValid_succ`: which numbers messages have.
-/

namespace FixProtocol

/-- The number of a message within one direction of a session. -/
abbrev SeqNum := UInt64

namespace SeqNum

/-- The number of the first message. -/
abbrev first : SeqNum := 1

/-- The greatest word; it numbers no message. -/
abbrev top : SeqNum := 18446744073709551615

/-- The greatest number a message may have. -/
abbrev greatest : SeqNum := 18446744073709551614

/-- The following number; the greatest word is its own successor. -/
def next (n : SeqNum) : SeqNum :=
  if n = top then top else n + 1

/-- The number before; zero is its own predecessor. -/
def previous (n : SeqNum) : SeqNum :=
  if n = 0 then 0 else n - 1

/-- The following word; after the greatest comes zero. -/
def succWrapping (n : SeqNum) : SeqNum :=
  n + 1

/-- May a message have this number? -/
def isValid (n : SeqNum) : Bool :=
  n ≠ 0 && n ≤ greatest

theorem isValid_iff {n : SeqNum} : n.isValid = true ↔ 1 ≤ n ∧ n < top := by
  simp only [isValid, Bool.and_eq_true, decide_eq_true_eq]
  grind

theorem lt_next {n : SeqNum} (h : n ≠ top) : n < n.next := by
  simp only [next, h, if_false]
  grind

theorem toNat_succ {n : SeqNum} (h : n ≠ top) : (n + 1).toNat = n.toNat + 1 := by
  have hlt : n.toNat ≠ 18446744073709551615 := fun e => h (UInt64.toNat_inj.mp e)
  have := n.toNat_lt
  simp only [UInt64.toNat_add, UInt64.reduceToNat]
  omega

theorem toNat_next {n : SeqNum} (h : n ≠ top) : n.next.toNat = n.toNat + 1 := by
  rw [next, if_neg h, toNat_succ h]

/-! ## Comparing numbers -/

theorem lt_trichotomy (a b : SeqNum) : a < b ∨ a = b ∨ b < a := by
  grind

theorem le_max_right (a b : SeqNum) : b ≤ max a b := by
  show b ≤ if a ≤ b then b else a
  split <;> grind

theorem le_max_left (a b : SeqNum) : a ≤ max a b := by
  show a ≤ if a ≤ b then b else a
  split <;> grind

theorem lt_max_left {a c : SeqNum} (b : SeqNum) (h : c < a) : c < max a b := by
  show c < if a ≤ b then b else a
  split <;> grind

theorem max_first_of_le {n : SeqNum} (h : first ≤ n) : max n first = n := by
  show (if n ≤ first then first else n) = n
  split <;> grind

theorem le_sub_one {a b : SeqNum} (h : a < b) : a ≤ b - 1 := by
  grind

theorem sub_one_add_one (n : SeqNum) : n - 1 + 1 = n := by
  grind

theorem succ_le_of_lt {a b : SeqNum} (h : a < b) : a + 1 ≤ b := by
  grind

theorem lt_top_of_ne {n : SeqNum} (h : n ≠ top) : n < top := by
  grind

theorem le_succ_of_lt_top {n : SeqNum} (h : n < top) : n ≤ n + 1 := by
  grind

theorem succ_le_succ {a b : SeqNum} (h : a ≤ b) (hb : b < top) : a + 1 ≤ b + 1 := by
  grind

/-- A number below one that is at most the next is at most this one. -/
theorem le_of_lt_of_le_succ {k m n : SeqNum} (hk : k < m) (hm : m ≤ n + 1) : k ≤ n := by
  grind

theorem previous_of_ne_zero {n : SeqNum} (h : n ≠ 0) : n.previous = n - 1 :=
  if_neg h

theorem ne_top_of_le_previous {m n : SeqNum} (h : m ≤ n.previous) : m ≠ top := by
  unfold previous at h
  split at h <;> grind

theorem toNat_previous (n : SeqNum) : n.previous.toNat = n.toNat - 1 := by
  unfold previous
  split
  · next h =>
    rw [h]
    rfl
  · next h =>
    have hpos : (1 : SeqNum) ≤ n := by grind
    rw [UInt64.toNat_sub_of_le _ _ hpos]
    rfl

theorem toNat_min (a b : SeqNum) : (min a b).toNat = min a.toNat b.toNat := by
  show (if a ≤ b then a else b).toNat = _
  split
  · next h => exact (Nat.min_eq_left (UInt64.le_iff_toNat_le.mp h)).symm
  · next h =>
    have hlt : b.toNat < a.toNat := UInt64.lt_iff_toNat_lt.mp (UInt64.not_le.mp h)
    exact (Nat.min_eq_right (Nat.le_of_lt hlt)).symm

theorem toNat_max (a b : SeqNum) : (max a b).toNat = max a.toNat b.toNat := by
  show (if a ≤ b then b else a).toNat = _
  split
  · next h => exact (Nat.max_eq_right (UInt64.le_iff_toNat_le.mp h)).symm
  · next h =>
    have hlt : b.toNat < a.toNat := UInt64.lt_iff_toNat_lt.mp (UInt64.not_le.mp h)
    exact (Nat.max_eq_left (Nat.le_of_lt hlt)).symm

/-- Below a number are exactly those up to the one before it, unless it is the least. -/
theorem lt_of_le_previous {k last n : SeqNum} (hpos : first ≤ last) (hlast : last ≤ n.previous)
    (hk : k ≤ last) : k < n := by
  have hn : n ≠ 0 := by
    rintro rfl
    exact absurd (UInt64.le_trans hpos hlast) (by decide)
  rw [previous_of_ne_zero hn] at hlast
  grind

/-! ## Numbers that messages have -/

section
variable {n : SeqNum} (h : n.isValid = true)
include h

theorem ne_top_of_isValid : n ≠ top := by
  have := (isValid_iff.mp h).2
  grind

theorem lt_succ_of_isValid : n < n + 1 := by
  have := (isValid_iff.mp h).2
  grind

theorem le_succ_of_isValid : n ≤ n + 1 :=
  UInt64.le_of_lt (lt_succ_of_isValid h)

theorem sub_one_lt_of_isValid : n - 1 < n := by
  have := (isValid_iff.mp h).1
  grind

theorem sub_one_ne_top_of_isValid : n - 1 ≠ top := by
  have := sub_one_lt_of_isValid h
  grind

end

/-- A number below another is one that messages have. -/
theorem isValid_of_lt {n m : SeqNum} (hfirst : first ≤ n) (h : n < m) : n.isValid = true :=
  isValid_iff.mpr ⟨hfirst, by grind⟩

/-- Before the greatest number there is another one. -/
theorem isValid_succ {n : SeqNum} (h : n < greatest) : (n + 1).isValid = true :=
  isValid_iff.mpr ⟨by grind, by grind⟩

end SeqNum

end FixProtocol
