/-!
# Byte strings

Everything on the wire is a list of bytes, cut into fields by two delimiters.

- `Bytes`: a byte string.
- `Bytes.cut b bs`: what stands before the first `b` and what stands after it.
- `Bytes.cut_eq_some_iff`: a cut takes the string apart at the first `b`, and nothing is lost.
- `Bytes.atLeast n bs`: whether the string is `n` bytes long or longer.
-/

namespace FixProtocol

/-- A byte string, first byte first. -/
abbrev Bytes := List UInt8

namespace Bytes

/-- The delimiter that ends every field (SOH). -/
abbrev soh : UInt8 := 1

/-- The delimiter between a tag and its value. -/
abbrev equalsSign : UInt8 := 61

/-- The bytes before the first `b` and those after it, or `none` if `b` does not occur. -/
def cut (b : UInt8) (bs : Bytes) : Option (Bytes × Bytes) :=
  match bs.dropWhile (· != b) with
  | [] => none
  | _ :: rest => some (bs.takeWhile (· != b), rest)

theorem cut_append {b : UInt8} {front : Bytes} (h : b ∉ front) (rest : Bytes) :
    cut b (front ++ b :: rest) = some (front, rest) := by
  induction front with
  | nil => simp [cut]
  | cons c front ih =>
    have hc : (c != b) = true := by
      simp only [List.mem_cons, not_or] at h
      simpa using fun e => h.1 e.symm
    have ih := ih fun hb => h (List.mem_cons_of_mem _ hb)
    simp only [cut, List.cons_append, List.dropWhile_cons, List.takeWhile_cons, hc, if_true] at ih ⊢
    split at ih <;> simp_all

theorem cut_eq_some_iff {b : UInt8} {bs front rest : Bytes} :
    cut b bs = some (front, rest) ↔ b ∉ front ∧ bs = front ++ b :: rest := by
  constructor
  · induction bs generalizing front with
    | nil => simp [cut]
    | cons c bs ih =>
      intro h
      by_cases hc : c = b
      · subst hc
        simp only [cut, List.dropWhile_cons, List.takeWhile_cons, bne_self_eq_false] at h
        obtain ⟨rfl, rfl⟩ := Prod.mk.inj (Option.some.inj h)
        simp
      · have hne : (c != b) = true := by simpa using hc
        simp only [cut, List.dropWhile_cons, List.takeWhile_cons, hne, if_true] at h
        split at h
        · simp at h
        · next d tail hd =>
          obtain ⟨rfl, rfl⟩ := Prod.mk.inj (Option.some.inj h)
          obtain ⟨hfront, heq⟩ := @ih (bs.takeWhile (· != b)) (by simp [cut, hd])
          refine ⟨?_, by rw [List.cons_append, ← heq]⟩
          simp only [List.mem_cons, not_or]
          exact ⟨fun e => hc e.symm, hfront⟩
  · rintro ⟨h, rfl⟩
    exact cut_append h rest

theorem cut_eq_none_iff {b : UInt8} {bs : Bytes} : cut b bs = none ↔ b ∉ bs := by
  constructor
  · intro h hb
    obtain ⟨front, rest, rfl, hfront⟩ := List.append_of_mem hb |>.elim fun s ⟨t, e⟩ =>
      (List.eq_append_cons_of_mem hb)
    rw [cut_append hfront] at h
    cases h
  · intro h
    cases hc : cut b bs with
    | none => rfl
    | some p =>
      obtain ⟨front, rest⟩ := p
      have := (cut_eq_some_iff.mp hc).2
      exact absurd (this ▸ List.mem_append_right front (List.mem_cons_self ..)) h

/-- What follows a cut is shorter than what was cut. -/
theorem length_of_cut {b : UInt8} {bs front rest : Bytes} (h : cut b bs = some (front, rest)) :
    bs.length = front.length + 1 + rest.length := by
  rw [(cut_eq_some_iff.mp h).2]
  simp only [List.length_append, List.length_cons]
  omega

/-- Are there at least `n` bytes? No more than `n` are looked at. -/
def atLeast (n : Nat) (bs : Bytes) : Bool :=
  (bs.take n).length = n

@[simp] theorem atLeast_iff {n : Nat} {bs : Bytes} : bs.atLeast n = true ↔ n ≤ bs.length := by
  rw [atLeast, decide_eq_true_eq, List.length_take]
  omega

end Bytes

end FixProtocol
