import FixProtocol.Proofs.Clock.Written
import FixProtocol.Proofs.Wire.RoundTrip

/-!
# Times on the wire

A time is written with digits and four other characters, so it can stand in a field, and its length
is bounded whatever the time is.
-/

namespace FixProtocol

namespace Timestamp

theorem text_ne_nil (t : Timestamp) : t.text ≠ [] :=
  List.ne_nil_of_length_pos (by rw [length_text]; decide)

/-- A time is written with digits, dash, colons and a point. -/
theorem soh_not_mem_text (t : Timestamp) : Bytes.soh ∉ t.text := by
  intro h
  rw [text_eq_pattern] at h
  rcases mem_of_hasPicture t.hasPicture_pattern h with hdigit | hmark
  · exact absurd hdigit (by decide)
  · exact absurd hmark (by decide)

/-- The length is bounded, whatever the time is. -/
theorem length_text_le (t : Timestamp) : t.text.length ≤ 64 := by
  rw [length_text]
  decide

end Timestamp

namespace Field

theorem value_ofTimestamp (tag : Tag) (t : Timestamp) : (ofTimestamp tag t).value = t.text := by
  unfold ofTimestamp
  rfl

theorem writable_ofTimestamp {tag : Tag} (htag : tag ≠ 0) (t : Timestamp) :
    Writable (ofTimestamp tag t) where
  tag_ne_zero := htag
  value_ne_nil := by
    rw [value_ofTimestamp]
    exact t.text_ne_nil
  soh_not_mem := by
    rw [value_ofTimestamp]
    exact t.soh_not_mem_text

theorem length_ofTimestamp_le (tag : Tag) (t : Timestamp) :
    (ofTimestamp tag t).value.length ≤ 64 := by
  rw [value_ofTimestamp]
  exact t.length_text_le

end Field

namespace Moment

/-- The characters of an identifier are printable. -/
theorem le_toNat_of_mem_testReqId {now : Moment} {c : Char} (h : c ∈ now.testReqId.toList) :
    45 ≤ c.toNat := by
  have hdigit (n : Nat) (hc : c ∈ (toString n).toList) : 45 ≤ c.toNat := by
    have hc : c ∈ (String.ofList (Nat.toDigits 10 n)).toList := hc
    rw [String.toList_ofList] at hc
    have hbounds := Nat.isDigit_of_mem_toDigits (by decide) (by decide) hc
    simp only [Char.isDigit, Bool.and_eq_true, decide_eq_true_eq, ge_iff_le] at hbounds
    have hlow : (48 : Nat) ≤ c.toNat := UInt32.le_iff_toNat_le.mp hbounds.1
    omega
  have htext (text : String) (hall : text.toList.all (fun c => decide (45 ≤ c.toNat)) = true)
      (hc : c ∈ text.toList) : 45 ≤ c.toNat :=
    of_decide_eq_true (List.all_eq_true.mp hall c hc)
  simp only [testReqId, String.toList_append, List.mem_append] at h
  rcases h with ((h | h) | h) | h
  · exact htext "TEST" (by decide) h
  · exact hdigit _ h
  · exact htext "-" (by decide) h
  · exact hdigit _ h

/-- An identifier can stand in a field. -/
theorem writable_testReqId (now : Moment) :
    Field.Writable (.ofText .testReqId now.testReqId) where
  tag_ne_zero := show Tag.testReqId ≠ 0 by decide
  value_ne_nil := by
    intro h
    have hid : now.testReqId = "" := Utf8.bytes_injective h
    have hchar : 'T' ∈ now.testReqId.toList := by
      simp only [testReqId, String.toList_append, List.mem_append]
      exact .inl (.inl (.inl (by decide)))
    rw [hid] at hchar
    cases hchar
  soh_not_mem := by
    intro h
    obtain ⟨c, hc, hsoh⟩ := List.mem_flatMap.mp h
    have hle := Utf8.le_toNat_of_mem_bytesOfChar (by decide) (le_toNat_of_mem_testReqId hc) hsoh
    exact absurd hle (by decide)

end Moment

end FixProtocol
