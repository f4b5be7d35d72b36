import FixProtocol.Bytes

/-!
# Decimal numerals

Tags, lengths, sequence numbers and clock readings are written in decimal.

- `Numeral.ofNat n`: the shortest numeral of `n`.
- `Numeral.natural? bs`: the number that a string of digits denotes; leading zeros are allowed.
- `Numeral.naturalUpTo?`: the same, for numbers up to a greatest one.
- `Numeral.unsigned?`, `Numeral.integer?`: numerals with an optional sign and a greatest value.
- `Numeral.natural?_ofNat`: reading a written numeral gives the number back.
-/

namespace FixProtocol.Numeral

/-- The byte that writes the digit `d`. -/
def digit (d : Nat) : UInt8 :=
  UInt8.ofNat (48 + d % 10)

/-- Is this byte a decimal digit? -/
def isDigit (b : UInt8) : Bool :=
  48 ≤ b && b ≤ 57

/-- The value of a digit. -/
def digitValue (b : UInt8) : Nat :=
  b.toNat - 48

/-- The shortest numeral of `n`. -/
def ofNat (n : Nat) : Bytes :=
  (Nat.toDigits 10 n).map Char.toUInt8

/-- The numeral of `n` with zeros in front up to `width` digits. -/
def padded (width n : Nat) : Bytes :=
  let ds := ofNat n
  List.replicate (width - ds.length) (digit 0) ++ ds

/-- The number that a string of digits denotes. -/
def value (ds : Bytes) : Nat :=
  ds.foldl (fun n d => 10 * n + digitValue d) 0

/-- The number denoted by a non-empty string of digits; `none` for any other string. -/
def natural? (bs : Bytes) : Option Nat :=
  if bs ≠ [] ∧ bs.all isDigit then some (value bs) else none

/-- The same, for a number of at most `greatest`; no digit is read beyond that. -/
def naturalUpTo? (greatest : Nat) (bs : Bytes) : Option Nat :=
  if bs ≠ [] ∧ bs.all isDigit then
    bs.foldlM (fun n d => some (10 * n + digitValue d) |>.filter (· ≤ greatest)) 0
  else none

/-- The number, at most `greatest`, denoted by digits after an optional plus sign. -/
def unsigned? (greatest : Nat) (bs : Bytes) : Option Nat :=
  naturalUpTo? greatest <| match bs with
    | 43 :: rest => rest
    | _ => bs

/-- The number of `bits` bits in two's complement that is denoted by digits after an optional
sign. -/
def integer? (bits : Nat) (bs : Bytes) : Option Int :=
  match bs with
  | 45 :: rest => (naturalUpTo? (Nat.pow 2 (bits - 1)) rest).map fun n => -(n : Int)
  | _ => (unsigned? (Nat.pow 2 (bits - 1) - 1) bs).map Int.ofNat

/-! ## Writing and reading back -/

theorem toUInt8_digitChar {d : Nat} (h : d < 10) : (Nat.digitChar d).toUInt8 = digit d := by
  revert h
  revert d
  decide

theorem ofNat_of_lt {n : Nat} (h : n < 10) : ofNat n = [digit n] := by
  simp [ofNat, Nat.toDigits_of_lt_base h, toUInt8_digitChar h]

theorem ofNat_of_le {n : Nat} (h : 10 ≤ n) : ofNat n = ofNat (n / 10) ++ [digit (n % 10)] := by
  simp [ofNat, Nat.toDigits_of_base_le (by decide) h, toUInt8_digitChar (Nat.mod_lt n (by decide))]

theorem ofNat_ne_nil (n : Nat) : ofNat n ≠ [] := by
  simp [ofNat, Nat.toDigits_ne_nil]

theorem digitValue_digit (d : Nat) : digitValue (digit d) = d % 10 := by
  have : ∀ r < 10, digitValue (UInt8.ofNat (48 + r)) = r := by decide
  exact this _ (Nat.mod_lt d (by decide))

theorem isDigit_digit (d : Nat) : isDigit (digit d) = true := by
  have : ∀ r < 10, isDigit (UInt8.ofNat (48 + r)) = true := by decide
  exact this _ (Nat.mod_lt d (by decide))

theorem isDigit_of_mem_ofNat {n : Nat} {b : UInt8} (h : b ∈ ofNat n) : isDigit b = true := by
  induction n using Nat.strongRecOn with
  | ind n ih =>
    by_cases hn : n < 10
    · rw [ofNat_of_lt hn, List.mem_singleton] at h
      exact h ▸ isDigit_digit n
    · rw [ofNat_of_le (by omega), List.mem_append, List.mem_singleton] at h
      rcases h with h | rfl
      · exact ih (n / 10) (by omega) h
      · exact isDigit_digit _

theorem value_append_digit (ds : Bytes) (d : UInt8) :
    value (ds ++ [d]) = 10 * value ds + digitValue d := by
  simp [value]

theorem value_ofNat (n : Nat) : value (ofNat n) = n := by
  induction n using Nat.strongRecOn with
  | ind n ih =>
    by_cases hn : n < 10
    · rw [ofNat_of_lt hn]
      simp [value, digitValue_digit, Nat.mod_eq_of_lt hn]
    · rw [ofNat_of_le (by omega), value_append_digit, ih (n / 10) (by omega),
        digitValue_digit]
      omega

/-- Reading a written numeral gives the number back. -/
theorem natural?_ofNat (n : Nat) : natural? (ofNat n) = some n := by
  have hall : (ofNat n).all isDigit = true :=
    List.all_eq_true.mpr fun _ h => isDigit_of_mem_ofNat h
  simp [natural?, ofNat_ne_nil n, hall, value_ofNat]

theorem le_foldl_digits (ds : Bytes) (n : Nat) :
    n ≤ ds.foldl (fun n d => 10 * n + digitValue d) n := by
  induction ds generalizing n with
  | nil => simp
  | cons d ds ih =>
    have := ih (10 * n + digitValue d)
    rw [List.foldl_cons]
    omega

/-- Reading up to a greatest number and reading all are the same for the numbers in range. -/
theorem naturalUpTo?_eq (greatest : Nat) (bs : Bytes) :
    naturalUpTo? greatest bs = (natural? bs).filter (· ≤ greatest) := by
  have hfold (ds : Bytes) (n : Nat) (h : n ≤ greatest) :
      ds.foldlM (fun n d => some (10 * n + digitValue d) |>.filter (· ≤ greatest)) n =
        (some (ds.foldl (fun n d => 10 * n + digitValue d) n)).filter (· ≤ greatest) := by
    induction ds generalizing n with
    | nil => simp [Option.filter, h]
    | cons d ds ih =>
      rw [List.foldlM_cons, List.foldl_cons]
      by_cases hd : 10 * n + digitValue d ≤ greatest
      · simp only [Option.filter_some, hd, decide_true, if_true, Option.bind_eq_bind,
          Option.bind_some]
        exact ih _ hd
      · have := le_foldl_digits ds (10 * n + digitValue d)
        have hall : ¬ ds.foldl (fun n d => 10 * n + digitValue d) (10 * n + digitValue d) ≤
            greatest := by omega
        simp [Option.filter_some, hd, hall]
  unfold naturalUpTo? natural?
  split
  · exact hfold bs 0 (Nat.zero_le _)
  · rfl

/-- Digits are neither of the two delimiters. -/
theorem not_mem_of_all_isDigit {bs : Bytes} (h : bs.all isDigit = true) :
    Bytes.soh ∉ bs ∧ Bytes.equalsSign ∉ bs := by
  rw [List.all_eq_true] at h
  exact ⟨fun hm => absurd (h _ hm) (by decide), fun hm => absurd (h _ hm) (by decide)⟩

end FixProtocol.Numeral
