import FixProtocol.Text.Utf8

/-!
# UTF-8 reads back

What a text is written as is read as that text again, and so two texts that are written alike are
one.

- `Utf8.foldl_next_bytesOfChar`: the bytes of one character add that character to what was read.
- `Utf8.text?_bytes`, `Utf8.bytes_injective`: the result for whole texts.
- `Utf8.text?_of_ascii`, `Utf8.le_toNat_of_mem_bytesOfChar`: bytes below 128 are a character each.
-/

namespace FixProtocol.Utf8

theorem toNat_ofNat_of_le {n : Nat} (h : n ≤ 255) : (UInt8.ofNat n).toNat = n :=
  UInt8.toNat_ofNat_of_lt' (Nat.lt_succ_of_le h)

section
variable {p : Prop} [Decidable p] {x y : UInt8} {n : Nat}

theorem toNat_ite_le (hx : p → x.toNat ≤ n) (hy : y.toNat ≤ n) :
    (if p then x else y).toNat ≤ n := by
  split
  · next h => exact hx h
  · exact hy

theorem le_toNat_ite (hx : p → n ≤ x.toNat) (hy : n ≤ y.toNat) :
    n ≤ (if p then x else y).toNat := by
  split
  · next h => exact hx h
  · exact hy

end

/-- A byte in the range that is owed belongs to the character that was begun. -/
theorem owed_of_tail {low high : UInt8} {n : Nat} (hlow : low.toNat ≤ 128 + n % 64)
    (hhigh : 128 + n % 64 ≤ high.toNat) :
    (UInt8.ofNat (128 + n % 64)).toNat - 128 = n % 64 ∧
      low ≤ UInt8.ofNat (128 + n % 64) ∧ UInt8.ofNat (128 + n % 64) ≤ high := by
  rw [UInt8.le_iff_toNat_le, UInt8.le_iff_toNat_le, toNat_ofNat_of_le (by omega)]
  exact ⟨by omega, hlow, hhigh⟩

/-- The last byte that is owed completes the character. -/
theorem next_last {us : List (Option Char)} {low high : UInt8} {value n : Nat}
    (hlow : low.toNat ≤ 128 + n % 64) (hhigh : 128 + n % 64 ≤ high.toNat) :
    Reading.next ⟨some ⟨1, low, high, value⟩, us⟩ (UInt8.ofNat (128 + n % 64)) =
      ⟨none, some (Char.ofNat (value * 64 + n % 64)) :: us⟩ := by
  obtain ⟨hvalue, hin⟩ := owed_of_tail hlow hhigh
  show (if _ then _ else _) = _
  rw [if_pos hin]
  dsimp only
  rw [if_pos rfl, hvalue]

/-- Any other byte that is owed leaves one fewer to come. -/
theorem next_more {us : List (Option Char)} {low high : UInt8} {owed value n : Nat}
    (hlow : low.toNat ≤ 128 + n % 64) (hhigh : 128 + n % 64 ≤ high.toNat) :
    Reading.next ⟨some ⟨owed + 2, low, high, value⟩, us⟩ (UInt8.ofNat (128 + n % 64)) =
      ⟨some ⟨owed + 1, 128, 191, value * 64 + n % 64⟩, us⟩ := by
  obtain ⟨hvalue, hin⟩ := owed_of_tail hlow hhigh
  show (if _ then _ else _) = _
  rw [if_pos hin]
  dsimp only
  rw [if_neg (by omega), hvalue]
  rfl

/-- A byte below 128 is a character of its own. -/
theorem start_one {us : List (Option Char)} {n : Nat} (h : n < 128) :
    Reading.start us (UInt8.ofNat n) = ⟨none, some (Char.ofNat n) :: us⟩ := by
  unfold Reading.start
  rw [toNat_ofNat_of_le (by omega)]
  dsimp only
  rw [if_pos h]

/-- The first byte of a character of two. -/
theorem start_two {us : List (Option Char)} {k : Nat} (hlow : 2 ≤ k) (hhigh : k < 32) :
    Reading.start us (UInt8.ofNat (192 + k)) = ⟨some ⟨1, 128, 191, k⟩, us⟩ := by
  unfold Reading.start
  rw [toNat_ofNat_of_le (by omega)]
  dsimp only
  rw [if_neg (by omega), if_neg (by omega), if_pos (by omega), Nat.add_sub_cancel_left]

/-- The first byte of a character of three. Two of them narrow the range of the second. -/
theorem start_three {us : List (Option Char)} {k : Nat} (h : k < 16) :
    Reading.start us (UInt8.ofNat (224 + k)) =
      ⟨some ⟨2, if k = 0 then 160 else 128, if k = 13 then 159 else 191, k⟩, us⟩ := by
  unfold Reading.start
  rw [toNat_ofNat_of_le (by omega)]
  dsimp only
  rw [if_neg (by omega), if_neg (by omega), if_neg (by omega)]
  by_cases h0 : k = 0
  · subst h0
    rfl
  by_cases h13 : k = 13
  · subst h13
    rfl
  rw [if_neg (by omega), if_neg (by omega), if_pos (by omega), if_neg h0, if_neg h13,
    Nat.add_sub_cancel_left]

/-- The first byte of a character of four. -/
theorem start_four {us : List (Option Char)} {k : Nat} (h : k < 5) :
    Reading.start us (UInt8.ofNat (240 + k)) =
      ⟨some ⟨3, if k = 0 then 144 else 128, if k = 4 then 143 else 191, k⟩, us⟩ := by
  unfold Reading.start
  rw [toNat_ofNat_of_le (by omega)]
  dsimp only
  rw [if_neg (by omega), if_neg (by omega), if_neg (by omega), if_neg (by omega),
    if_neg (by omega), if_neg (by omega)]
  by_cases h0 : k = 0
  · subst h0
    rfl
  by_cases h4 : k = 4
  · subst h4
    rfl
  rw [if_neg (by omega), if_pos (by omega), if_neg h0, if_neg h4, Nat.add_sub_cancel_left]

/-- Reading the bytes of a character adds the character, whatever was read before. -/
theorem foldl_next_bytesOfChar (us : List (Option Char)) (c : Char) :
    (bytesOfChar c).foldl Reading.next ⟨none, us⟩ = ⟨none, some c :: us⟩ := by
  have hvalid : c.toNat < 0xD800 ∨ (0xDFFF < c.toNat ∧ c.toNat < 0x110000) := c.valid
  have hc : Char.ofNat c.toNat = c := Char.ofNat_toNat c
  unfold bytesOfChar
  dsimp only
  generalize hv : c.toNat = v at hvalid hc ⊢
  by_cases h1 : v < 128
  · rw [if_pos h1]
    show Reading.start us (UInt8.ofNat v) = _
    rw [start_one h1, hc]
  rw [if_neg h1]
  by_cases h2 : v < 2048
  · rw [if_pos h2]
    show Reading.next (Reading.start us _) _ = _
    rw [start_two (by omega) (by omega), next_last (by simp) (by simp; omega),
      show v / 64 * 64 + v % 64 = v by omega, hc]
  rw [if_neg h2]
  by_cases h3 : v < 65536
  · rw [if_pos h3]
    show Reading.next (Reading.next (Reading.start us _) _) _ = _
    -- The first byte may narrow the range of the second: 160 keeps out what fits into two bytes, 159
    -- keeps out the surrogates.
    have hlow : (if v / 4096 = 0 then (160 : UInt8) else 128).toNat ≤ 128 + v / 64 % 64 :=
      toNat_ite_le (fun h => show 160 ≤ _ by omega) (Nat.le_add_right 128 _)
    have hhigh : 128 + v / 64 % 64 ≤ (if v / 4096 = 13 then (159 : UInt8) else 191).toNat :=
      le_toNat_ite (fun h => show _ ≤ 159 by omega) (show _ ≤ 191 by omega)
    rw [start_three (by omega), next_more hlow hhigh, next_last (by simp) (by simp; omega),
      show (v / 4096 * 64 + v / 64 % 64) * 64 + v % 64 = v by omega, hc]
  · rw [if_neg h3]
    show Reading.next (Reading.next (Reading.next (Reading.start us _) _) _) _ = _
    -- Here 144 keeps out what fits into three bytes, and 143 what is no character any more.
    have hlow : (if v / 262144 = 0 then (144 : UInt8) else 128).toNat ≤ 128 + v / 4096 % 64 :=
      toNat_ite_le (fun h => show 144 ≤ _ by omega) (Nat.le_add_right 128 _)
    have hhigh : 128 + v / 4096 % 64 ≤ (if v / 262144 = 4 then (143 : UInt8) else 191).toNat :=
      le_toNat_ite (fun h => show _ ≤ 143 by omega) (show _ ≤ 191 by omega)
    rw [start_four (by omega), next_more hlow hhigh, next_more (by simp) (by simp; omega),
      next_last (by simp) (by simp; omega),
      show ((v / 262144 * 64 + v / 4096 % 64) * 64 + v / 64 % 64) * 64 + v % 64 = v by omega, hc]

theorem foldl_next_flatMap (cs : List Char) (us : List (Option Char)) :
    (cs.flatMap bytesOfChar).foldl Reading.next ⟨none, us⟩ =
      ⟨none, (cs.map some).reverse ++ us⟩ := by
  induction cs generalizing us with
  | nil => rfl
  | cons c cs ih =>
    rw [List.flatMap_cons, List.foldl_append, foldl_next_bytesOfChar, ih, List.map_cons,
      List.reverse_cons, List.append_assoc, List.singleton_append]

theorem units_bytes (s : String) : units (bytes s) = s.toList.map some := by
  rw [units, bytes, foldl_next_flatMap, List.append_nil]
  show (s.toList.map some).reverse.reverse = _
  rw [List.reverse_reverse]

/-- A text reads back. -/
theorem text?_bytes (s : String) : text? (bytes s) = some s := by
  unfold text?
  rw [units_bytes]
  have hall : (s.toList.map some).all Option.isSome = true := by simp
  rw [if_pos hall, List.filterMap_map]
  simp

/-- Bytes below 128 are a text. -/
theorem text?_of_ascii {bs : Bytes} (h : ∀ b ∈ bs, b < 128) :
    text? bs = some (String.ofList (bs.map fun b => Char.ofNat b.toNat)) := by
  have hbytes : bs = bytes (String.ofList (bs.map fun b => Char.ofNat b.toNat)) := by
    rw [bytes, String.toList_ofList, List.flatMap_map]
    induction bs with
    | nil => rfl
    | cons b bs ih =>
      have hb : b.toNat < 128 := UInt8.lt_iff_toNat_lt.mp (h b (List.mem_cons_self ..))
      -- There are so few of these bytes that all of them can be tried.
      have hchar : bytesOfChar (Char.ofNat b.toNat) = [b] := by
        have hsmall : ∀ n < 128, bytesOfChar (Char.ofNat n) = [UInt8.ofNat n] := by decide
        rw [hsmall _ hb, UInt8.ofNat_toNat]
      rw [List.flatMap_cons, hchar, List.singleton_append,
        ← ih fun c hc => h c (List.mem_cons_of_mem _ hc)]
  rw [hbytes, text?_bytes, ← hbytes]

/-- No byte of a character is below it, as far as bytes are characters of their own. -/
theorem le_toNat_of_mem_bytesOfChar {c : Char} {b : UInt8} {k : Nat} (hk : k ≤ 128)
    (hc : k ≤ c.toNat) (h : b ∈ bytesOfChar c) : k ≤ b.toNat := by
  have hvalid : c.toNat < 0xD800 ∨ (0xDFFF < c.toNat ∧ c.toNat < 0x110000) := c.valid
  have hbyte {n : Nat} (hle : k ≤ n) (hn : n ≤ 255) : k ≤ (UInt8.ofNat n).toNat := by
    rw [toNat_ofNat_of_le hn]
    exact hle
  unfold bytesOfChar at h
  dsimp only at h
  split at h
  · rw [List.mem_singleton.mp h]
    exact hbyte hc (by omega)
  · split at h
    · simp only [List.mem_cons, List.not_mem_nil, or_false] at h
      rcases h with rfl | rfl
      all_goals exact hbyte (by omega) (by omega)
    · split at h
      · simp only [List.mem_cons, List.not_mem_nil, or_false] at h
        rcases h with rfl | rfl | rfl
        all_goals exact hbyte (by omega) (by omega)
      · simp only [List.mem_cons, List.not_mem_nil, or_false] at h
        rcases h with rfl | rfl | rfl | rfl
        all_goals exact hbyte (by omega) (by omega)

theorem bytes_injective {s t : String} (h : bytes s = bytes t) : s = t :=
  Option.some.inj <| by rw [← text?_bytes, h, text?_bytes]

end FixProtocol.Utf8
