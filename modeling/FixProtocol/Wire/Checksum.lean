import FixProtocol.Numeral

/-!
# Checksums

The last field of a message holds the sum of all bytes before it, modulo 256, in three digits.

- `Checksum.sum bs`: the sum.
- `Checksum.text`, `Checksum.parse?`: the three digits; `Checksum.parse?_text` reads them back.
-/

namespace FixProtocol.Checksum

/-- The sum of all bytes modulo 256. -/
def sum (bs : Bytes) : UInt8 :=
  bs.foldl (· + ·) 0

/-- The three digits of a sum. -/
def text (s : UInt8) : Bytes :=
  [Numeral.digit (s.toNat / 100), Numeral.digit (s.toNat / 10), Numeral.digit s.toNat]

/-- The sum that exactly three digits denote, if it is below 256. -/
def parse? (bs : Bytes) : Option UInt8 :=
  if bs.length = 3 then
    (Numeral.natural? bs).bind fun n => if n < 256 then some (UInt8.ofNat n) else none
  else none

theorem foldl_add (bs : Bytes) (s : UInt8) : bs.foldl (· + ·) s = s + sum bs := by
  induction bs generalizing s with
  | nil => simp [sum]
  | cons b bs ih =>
    rw [sum, List.foldl_cons, List.foldl_cons, ih, ih (0 + b), UInt8.zero_add, UInt8.add_assoc]

theorem sum_cons (b : UInt8) (bs : Bytes) : sum (b :: bs) = b + sum bs := by
  rw [sum, List.foldl_cons, foldl_add, UInt8.zero_add]

theorem sum_append (xs ys : Bytes) : sum (xs ++ ys) = sum xs + sum ys := by
  rw [sum, List.foldl_append, foldl_add]
  rfl

/-- Reading the digits of a sum gives the sum back. -/
theorem parse?_text (s : UInt8) : parse? (text s) = some s := by
  have hs := s.toNat_lt
  have hvalue : Numeral.value (text s) = s.toNat := by
    simp only [text, Numeral.value, List.foldl_cons, List.foldl_nil, Numeral.digitValue_digit]
    omega
  have hdigits : text s ≠ [] ∧ (text s).all Numeral.isDigit = true := by
    simp [text, Numeral.isDigit_digit]
  have hlen : (text s).length = 3 := rfl
  rw [parse?, if_pos hlen, Numeral.natural?, if_pos hdigits, Option.bind_some, hvalue, if_pos hs,
    UInt8.ofNat_toNat]

end FixProtocol.Checksum
