import FixProtocol.Proofs.Wire.Spelling

/-!
# A corrupted byte is detected

When one byte of an encoded message is altered, the message is refused, wherever the byte stands and
whatever it becomes. The altered bytes may well fall apart into other fields; the checksum decides
none the less.

The argument compares two layouts whose bytes differ in one place. The checksum field is digits, an
equals sign, three digits and a delimiter, and what stands before it ends with a field of its own.
So the checksum field has to start at the same place in both. Then the altered byte is either one
that the checksum adds up, and the sum is another, or one of the checksum field, and that field
denotes the same number in the same number of digits.

- `Checksum.set_eq_of_sum_eq`: a sum tells one byte from another.
- `Wire.Layout.Ordered.length_summed_le`: where the checksum field starts.
- `Wire.Layout.Ordered.bytes_eq_of_set`: layouts that differ in at most one byte do not differ.
- `Wire.encode_detects_corruption`: the decoder reads what was encoded and refuses it once a byte is
  altered.
-/

namespace FixProtocol

/-- What follows the last `b`, or less, lies behind every `b`. -/
theorem Bytes.suffix_of_not_mem {b : UInt8} {front rest before line : Bytes}
    (h : front ++ b :: rest = before ++ line) (hline : b ∉ line) : line <:+ rest := by
  have hrest : b :: rest <:+ before ++ line := ⟨front, h⟩
  rcases List.suffix_or_suffix_of_suffix (List.suffix_append before line) hrest with hline' | hrest
  · rcases List.suffix_cons_iff.mp hline' with rfl | hline'
    · exact absurd List.mem_cons_self hline
    · exact hline'
  · exact absurd (hrest.subset List.mem_cons_self) hline

namespace Checksum

/-- A byte string with one byte altered has another sum. -/
theorem set_eq_of_sum_eq {bs : Bytes} {i : Nat} {b : UInt8} (h : sum (bs.set i b) = sum bs) :
    bs.set i b = bs := by
  by_cases hi : i < bs.length
  · have hbs : bs = bs.take i ++ bs[i] :: bs.drop (i + 1) := by
      rw [List.getElem_cons_drop, List.take_append_drop]
    have hset : bs.set i b = bs.take i ++ b :: bs.drop (i + 1) := by
      rw [List.set_eq_take_append_cons_drop, if_pos hi]
    have hsum : sum (bs.take i ++ b :: bs.drop (i + 1)) =
        sum (bs.take i ++ bs[i] :: bs.drop (i + 1)) := by
      rw [← hset, ← hbs, h]
    rw [sum_append, sum_append, sum_cons, sum_cons, UInt8.add_right_inj,
      UInt8.add_left_inj] at hsum
    rw [hsum, List.set_getElem_self]
  · exact List.set_eq_of_length_le (Nat.le_of_not_lt hi)

end Checksum

namespace Wire

/-- Requiring a version only refuses more. -/
theorem decode_of_decode {expected : Option Bytes} {bs : Bytes} {m : Message}
    (h : decode expected bs = .ok m) : decode none bs = .ok m := by
  unfold decode at h ⊢
  obtain ⟨⟨begun, afterVersion⟩, hbegun, h⟩ := exists_of_bind_eq_ok h
  obtain ⟨_, _, h⟩ := exists_of_bind_eq_ok h
  rw [hbegun]
  exact h

/-- Strings that differ in one place at most, and do differ behind `front` and `front'`, do not
differ before. -/
theorem eq_of_set {front front' rest rest' : Bytes} {c c' : UInt8} {i : Nat} {b : UInt8}
    (h : front' ++ c' :: rest' = (front ++ c :: rest).set i b)
    (hlength : front'.length = front.length) (hne : c ≠ c') : front' = front := by
  have hi : i = front.length := by
    by_contra hi
    have hc : (front ++ c :: rest)[front.length]? = some c := by simp
    have hc' : (front' ++ c' :: rest')[front.length]? = some c' := by simp [← hlength]
    rw [h, List.getElem?_set_ne hi, hc] at hc'
    exact hne (Option.some.inj hc')
  rw [hi, List.set_append_right _ _ (Nat.le_refl _)] at h
  exact List.append_inj_left h hlength

namespace Layout

variable {l l' : Layout} {n n' i : Nat} {b : UInt8}

/-- Behind what it adds up, the checksum field takes five bytes and the digits of its tag. -/
theorem Sums.length_bytes (h : l.Sums n) :
    l.bytes.length = l.summed.length + (l.checkSum.digits.length + 5) := by
  simp only [bytes_eq_summed, Item.bytes, List.length_append, List.length_cons, List.length_nil,
    h.length]

/-- What the checksum adds up ends with an item, and so with a delimiter. -/
theorem Ordered.exists_summed (h : l.Ordered) :
    ∃ before line, l.summed = before ++ line ++ [Bytes.soh] ∧ Bytes.soh ∉ line ∧
      Bytes.equalsSign ∈ line := by
  obtain ⟨front, last, hitems⟩ :=
    (List.eq_nil_or_concat (l.version :: l.length :: l.type :: l.body)).resolve_left
      (List.cons_ne_nil _ _)
  have hlast : last.Valid := by
    refine h.valid last ?_
    have hmem : last ∈ l.version :: l.length :: l.type :: l.body := by simp [hitems]
    exact List.mem_append_left [l.checkSum] hmem
  refine ⟨itemBytes front, last.digits ++ Bytes.equalsSign :: last.value, ?_, ?_, by simp⟩
  · rw [summed, hitems, List.concat_eq_append, itemBytes_append]
    simp [itemBytes, Item.bytes]
  · have hne : Bytes.soh ≠ Bytes.equalsSign := by decide
    simp [hlast.soh_not_mem_digits, hne, hlast.soh_not_mem]

/-- When the bytes differ in one place, the checksum field of `l` does not start after that of `l'`.
Else the delimiter in front of it stands where `l'` has a digit of its checksum tag, and is what
differs. So the item before it, which has an equals sign, would be made of digits of that tag. -/
theorem Ordered.length_summed_le (h : l.Ordered) (h' : l'.Ordered) (hs : l.Sums n)
    (hs' : l'.Sums n') (hset : l'.bytes = l.bytes.set i b) :
    l.summed.length ≤ l'.summed.length := by
  by_contra hlt
  obtain ⟨before, line, hsummed, hsoh, hequals⟩ := h.exists_summed
  obtain ⟨before', line', hsummed', _, _⟩ := h'.exists_summed
  have hpos : 0 < l.checkSum.digits.length :=
    List.length_pos_iff.mpr h.valid_checkSum.digits_ne_nil
  have hlengths := congrArg List.length hset
  rw [List.length_set, hs.length_bytes, hs'.length_bytes] at hlengths
  have hfront : (before ++ line).length + 1 = l.summed.length := by
    simp only [hsummed, List.length_append, List.length_singleton]
  -- The place of the delimiter is one of the digits of the other checksum field.
  obtain ⟨ds, d, ds', hdigits, hplace⟩ : ∃ ds d ds', l'.checkSum.digits = ds ++ d :: ds' ∧
      l'.summed.length + ds.length = (before ++ line).length := by
    obtain ⟨k, hk⟩ := Nat.le.dest (show l'.summed.length ≤ (before ++ line).length by omega)
    have hkt : k < l'.checkSum.digits.length := by omega
    refine ⟨l'.checkSum.digits.take k, l'.checkSum.digits[k], l'.checkSum.digits.drop (k + 1),
      ?_, ?_⟩
    · rw [List.getElem_cons_drop, List.take_append_drop]
    · rw [List.length_take, Nat.min_eq_left (Nat.le_of_lt hkt), hk]
  have hdigit : Bytes.soh ≠ d := by
    rintro rfl
    exact h'.valid_checkSum.soh_not_mem_digits (by simp [hdigits])
  have hsame : l'.summed ++ ds = before ++ line := by
    have hset : l'.summed ++ ds ++ d :: (ds' ++ Bytes.equalsSign :: (l'.checkSum.value ++
        [Bytes.soh])) = (before ++ line ++ Bytes.soh :: l.checkSum.bytes).set i b := by
      rw [bytes_eq_summed, bytes_eq_summed, hsummed, Item.bytes, hdigits] at hset
      simpa using hset
    refine eq_of_set hset ?_ hdigit
    rw [List.length_append, hplace]
  have hdelimiter : before' ++ line' ++ Bytes.soh :: ds = before ++ line := by
    rw [← hsame, hsummed']
    simp
  have hline : line <:+ ds := Bytes.suffix_of_not_mem hdelimiter hsoh
  refine h'.valid_checkSum.equalsSign_not_mem ?_
  rw [hdigits]
  exact List.mem_append_left _ (hline.subset hequals)

/-- Messages with right checksums that differ in one byte at most do not differ. -/
theorem Ordered.bytes_eq_of_set (h : l.Ordered) (h' : l'.Ordered) (hs : l.Sums l.sum)
    (hs' : l'.Sums l'.sum) (hset : l'.bytes = l.bytes.set i b) (hi : i < l.bytes.length) :
    l'.bytes = l.bytes := by
  have hback : l.bytes = l'.bytes.set i l.bytes[i] := by
    rw [hset, List.set_set, List.set_getElem_self]
  have hlength : l'.summed.length = l.summed.length :=
    Nat.le_antisymm (h'.length_summed_le h hs' hs hback) (h.length_summed_le h' hs hs' hset)
  have hlast := h.valid_checkSum
  have hlast' := h'.valid_checkSum
  have hlengths := congrArg List.length hset
  rw [List.length_set, hs.length_bytes, hs'.length_bytes, hlength] at hlengths
  rw [bytes_eq_summed, bytes_eq_summed] at hset ⊢
  by_cases hplace : i < l.summed.length
  · -- The checksum field is the same, and so is the sum that it declares.
    rw [List.set_append_left _ _ hplace] at hset
    obtain ⟨hsummed, hbytes⟩ := List.append_inj hset (by rw [hlength, List.length_set])
    have hcheckSum : l'.checkSum = l.checkSum :=
      (hlast'.bytes_append_inj hlast (congrArg (· ++ []) hbytes)).1
    have hsum : Checksum.sum l'.summed = Checksum.sum l.summed := by
      rw [← UInt8.toNat_inj, toNat_sum, toNat_sum, ← hs.value, ← hs'.value, hcheckSum]
    rw [hsummed] at hsum
    rw [hsummed, hbytes, Checksum.set_eq_of_sum_eq hsum]
  · -- The sum is the same, and it is declared in as many digits behind a tag of as many digits.
    rw [List.set_append_right _ _ (Nat.le_of_not_lt hplace)] at hset
    have hsummed : l'.summed = l.summed := List.append_inj_left hset hlength
    have hvalue : l'.checkSum.value = l.checkSum.value := by
      refine Numeral.eq_of_value_eq hs'.isDigit hs.isDigit (hs'.length.trans hs.length.symm) ?_
      rw [hs.value, hs'.value, sum, sum, hsummed]
    have hdigits : l'.checkSum.digits = l.checkSum.digits :=
      Numeral.eq_of_value_eq hlast'.isDigit hlast.isDigit (by omega)
        (h'.checkSum.trans h.checkSum.symm)
    rw [hsummed, Item.bytes, Item.bytes, hvalue, hdigits]

end Layout

/-- What the decoder accepts, it refuses with one byte altered. -/
theorem decode_set_ne_ok {l : Layout} (h : l.Ordered) (hs : l.Sums l.sum) {i : Nat}
    (hi : i < l.bytes.length) {b : UInt8} (hb : b ≠ l.bytes[i]) (expected : Option Bytes) :
    ∃ e, decode expected (l.bytes.set i b) = .error e := by
  cases hdecode : decode expected (l.bytes.set i b) with
  | error e => exact ⟨e, rfl⟩
  | ok m =>
    obtain ⟨l', hbytes, h', _, hs', _⟩ := decode_eq_ok_iff.mp (decode_of_decode hdecode)
    have hsame : l.bytes.set i b = l.bytes := hbytes ▸ h.bytes_eq_of_set h' hs hs' hbytes hi
    refine absurd ?_ hb
    rw [← List.getElem_set_self (a := b) (by rwa [List.length_set]), List.getElem_of_eq hsame]

/-- A message that was encoded is read, also when its version is required, and refused as soon as
one of its bytes is another one, whether a version is required or not. Only messages that no memory
holds are too long to be read. -/
theorem encode_detects_corruption {fs : List Field} {frame : Bytes}
    (h : encode fs = .ok frame) :
    (frame.length < 2 ^ 64 → ∃ m, decode none frame = .ok m ∧
        ∀ version, ⟨.beginString, Utf8.bytes version⟩ ∈ fs →
          Message.decode version frame = .ok m) ∧
      ∀ (i : Nat) (hi : i < frame.length) (b : UInt8), b ≠ frame[i] →
        (∃ e, decode none (frame.set i b) = .error e) ∧
          ∀ version, ∃ e, Message.decode version (frame.set i b) = .error e := by
  obtain ⟨version, type, hversion, _, hcanonical, hencode⟩ :=
    (wellFormed_of_encode h).exists_canonical
  obtain rfl := Except.ok.inj (hencode.symm.trans h)
  constructor
  · intro hlength
    have hwords := Nat.lt_of_le_of_lt (length_le_length_frame version _) hlength
    have hdecode (expected : Option Bytes) (hexpected : ∀ v ∈ expected, version = v) :=
      (decode_encode_iff (encode_of_canonical hcanonical)).mpr ⟨hexpected, hwords, rfl⟩
    refine ⟨_, hdecode none nofun, fun required hmem => hdecode (some (Utf8.bytes required)) ?_⟩
    have hfound : ⟨.beginString, Utf8.bytes required⟩ ∈ fs.filter (·.tag = .beginString) :=
      List.mem_filter.mpr ⟨hmem, decide_eq_true rfl⟩
    rw [hversion, List.mem_singleton, Field.mk.injEq] at hfound
    rintro v hv
    rw [← Option.mem_some_iff.mp hv, hfound.2]
  · rw [← Layout.bytes_written]
    intro i hi b hb
    have hrefused := decode_set_ne_ok (Layout.ordered_written hcanonical) Layout.sums_written hi hb
    exact ⟨hrefused none, fun required => hrefused (some (Utf8.bytes required))⟩

/-- An order whose text reads like a checksum field once the space in it becomes a delimiter. -/
def withChecksumInText : List Field :=
  [.ofText .msgType "D", .ofText .beginString "FIX.4.4", .ofText 58 "a 10=047"]

theorem encode_detects_corruption_delimiter :
    ∃ frame, encode withChecksumInText = .ok frame ∧ frame[24]? = some 32 ∧
      (∃ m, decode none frame = .ok m ∧ Message.decode "FIX.4.4" frame = .ok m) ∧
      (∃ e, decode none (frame.set 24 Bytes.soh) = .error e) ∧
        ∃ e, Message.decode "FIX.4.4" (frame.set 24 Bytes.soh) = .error e := by
  have hbytes : (encode withChecksumInText).toOption.map (fun bs => (bs.length, bs[24]?)) =
      some (39, some 32) := by decide +kernel
  obtain ⟨frame, hframe, hbytes⟩ := Option.map_eq_some_iff.mp hbytes
  obtain ⟨hlength, hspace⟩ := Prod.mk.inj hbytes
  have hframe : encode withChecksumInText = .ok frame := eq_ok_of_toOption hframe
  obtain ⟨hread, haltered⟩ := encode_detects_corruption hframe
  obtain ⟨m, hdecode, hrequired⟩ := hread (by rw [hlength]; decide)
  obtain ⟨hi, hbyte⟩ := List.getElem?_eq_some_iff.mp hspace
  obtain ⟨hrefused, hrefusedToo⟩ := haltered 24 hi Bytes.soh (by rw [hbyte]; decide)
  exact ⟨frame, hframe, hspace, ⟨m, hdecode, hrequired _ (by decide +kernel)⟩, hrefused,
    hrefusedToo _⟩

end Wire

end FixProtocol
