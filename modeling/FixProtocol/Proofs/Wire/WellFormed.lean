import FixProtocol.Proofs.Wire.RoundTrip

/-!
# Which field lists have a wire form

A field list is encoded exactly when it holds one version, one type, and only fields that can be
written. Decoding then gives the same fields back, the version first and the type second.

- `Wire.WellFormed`: the field lists that have a wire form, said without the encoder.
- `Wire.canonicalOrder`: the version, then the type, then all other fields as they stand.
- `Wire.encode_iff_decode_inverts`: the encoder accepts exactly the well-formed lists, and the
  decoder undoes it.
-/

namespace FixProtocol.Wire

variable {fs : List Field} {tag : Tag}

/-- A field list that has a wire form. -/
structure WellFormed (fs : List Field) : Prop where
  one_version : (fs.map Field.tag).count .beginString = 1
  one_type : (fs.map Field.tag).count .msgType = 1
  tags : ∀ f ∈ fs, f.tag ≠ 0 ∧ f.tag ≠ .bodyLength ∧ f.tag ≠ .checkSum
  values : ∀ f ∈ fs, f.value ≠ [] ∧ Bytes.soh ∉ f.value

instance : Decidable (WellFormed fs) :=
  decidable_of_iff
    ((fs.map Field.tag).count .beginString = 1 ∧ (fs.map Field.tag).count .msgType = 1 ∧
      (∀ f ∈ fs, f.tag ≠ 0 ∧ f.tag ≠ .bodyLength ∧ f.tag ≠ .checkSum) ∧
      ∀ f ∈ fs, f.value ≠ [] ∧ Bytes.soh ∉ f.value)
    ⟨fun ⟨hversion, htype, htags, hvalues⟩ => ⟨hversion, htype, htags, hvalues⟩,
      fun h => ⟨h.one_version, h.one_type, h.tags, h.values⟩⟩

/-- The fields of a list with the version first and the type second. -/
def canonicalOrder (fs : List Field) : List Field :=
  fs.filter (·.tag = .beginString) ++ fs.filter (·.tag = .msgType) ++ fs.filter (!isHeader ·)

/-! ## Header fields -/

theorem count_tag (fs : List Field) (tag : Tag) :
    (fs.map Field.tag).count tag = (fs.filter (·.tag = tag)).length := by
  rw [List.count, List.countP_map, List.countP_eq_length_filter]
  rfl

/-- Among the header fields a version, and a type, occurs as often as among all fields. -/
theorem count_tag_headers (htag : tag = .beginString ∨ tag = .msgType) :
    ((fs.filter isHeader).map Field.tag).count tag = (fs.map Field.tag).count tag := by
  rw [count_tag, count_tag, List.filter_filter]
  congr 1
  refine List.filter_congr fun f _ => ?_
  by_cases hf : f.tag = tag
  · have hheader : isHeader f = true := isHeader_iff.mpr (hf ▸ htag)
    rw [hheader, Bool.and_true]
  · rw [decide_eq_false hf, Bool.false_and]

/-- The header fields differ in their tags when there is at most one version and one type. -/
theorem nodup_headers_iff :
    ((fs.filter isHeader).map Field.tag).Nodup ↔
      (fs.map Field.tag).count .beginString ≤ 1 ∧ (fs.map Field.tag).count .msgType ≤ 1 := by
  rw [List.nodup_iff_count]
  constructor
  · intro h
    rw [← count_tag_headers (.inl rfl), ← count_tag_headers (.inr rfl)]
    exact ⟨h _, h _⟩
  · rintro ⟨hversion, htype⟩ tag
    by_cases htag : tag = .beginString ∨ tag = .msgType
    · rw [count_tag_headers htag]
      rcases htag with rfl | rfl
      · exact hversion
      · exact htype
    · have hnone : tag ∉ (fs.filter isHeader).map Field.tag := by
        intro hmem
        obtain ⟨f, hf, rfl⟩ := List.mem_map.mp hmem
        exact htag (isHeader_iff.mp (List.mem_filter.mp hf).2)
      rw [List.count_eq_zero_of_not_mem hnone]
      exact Nat.zero_le 1

/-- A tag that occurs once is found, and nothing else has it. -/
theorem exists_filter_tag (h : (fs.map Field.tag).count tag = 1) :
    ∃ value, fs.filter (·.tag = tag) = [⟨tag, value⟩] := by
  rw [count_tag] at h
  obtain ⟨⟨t, value⟩, hf⟩ := List.length_eq_one_iff.mp h
  have hmem : (⟨t, value⟩ : Field) ∈ fs.filter (·.tag = tag) := hf ▸ List.mem_singleton_self _
  obtain rfl : t = tag := of_decide_eq_true (List.mem_filter.mp hmem).2
  exact ⟨value, hf⟩

theorem find?_of_filter_tag {f : Field} (h : fs.filter (·.tag = tag) = [f]) :
    fs.find? (·.tag = tag) = some f := by
  rw [← List.head?_filter, h]
  rfl

theorem one_le_count_of_find? {f : Field} (h : fs.find? (·.tag = tag) = some f) :
    1 ≤ (fs.map Field.tag).count tag := by
  rw [count_tag]
  have htag : f.tag = tag := by simpa using List.find?_some h
  have hmem : f ∈ fs.filter (·.tag = tag) :=
    List.mem_filter.mpr ⟨List.mem_of_find?_eq_some h, decide_eq_true htag⟩
  exact List.length_pos_of_mem hmem

/-! ## The encoder accepts exactly the well-formed lists -/

/-- A list that encodes is well-formed. -/
theorem wellFormed_of_encode {frame : Bytes} (h : encode fs = .ok frame) : WellFormed fs := by
  obtain ⟨hcheck, version, type, hversion, htype, _⟩ := encode_eq_ok_iff.mp h
  obtain ⟨hfields, hnodup, _⟩ := checkFields_eq_ok_iff.mp hcheck
  obtain ⟨hversions, htypes⟩ := nodup_headers_iff.mp hnodup
  refine ⟨Nat.le_antisymm hversions (one_le_count_of_find? hversion),
    Nat.le_antisymm htypes (one_le_count_of_find? htype), fun f hf => ?_, fun f hf => ?_⟩
  · obtain ⟨hwritable, hlength, hsum⟩ := checkField_eq_ok_iff.mp (hfields f hf)
    exact ⟨hwritable.tag_ne_zero, hlength, hsum⟩
  · have hwritable := (checkField_eq_ok_iff.mp (hfields f hf)).1
    exact ⟨hwritable.value_ne_nil, hwritable.soh_not_mem⟩

/-- What a well-formed list is made of, and the frame that it encodes to. -/
theorem WellFormed.exists_canonical (h : WellFormed fs) :
    ∃ version type, fs.filter (·.tag = .beginString) = [⟨.beginString, version⟩] ∧
      canonicalOrder fs = listed version type (fs.filter (!isHeader ·)) ∧
      Canonical version type (fs.filter (!isHeader ·)) ∧
      encode fs =
        .ok (frame version (fieldBytes (⟨.msgType, type⟩ :: fs.filter (!isHeader ·)))) := by
  obtain ⟨version, hversion⟩ := exists_filter_tag h.one_version
  obtain ⟨type, htype⟩ := exists_filter_tag h.one_type
  have hcheck (f : Field) (hf : f ∈ fs) : checkField f = .ok () := by
    obtain ⟨hzero, hlength, hsum⟩ := h.tags f hf
    obtain ⟨hempty, hsoh⟩ := h.values f hf
    exact checkField_eq_ok_iff.mpr ⟨⟨hzero, hempty, hsoh⟩, hlength, hsum⟩
  -- What is found under a tag is one of the fields, so it can be written as they can.
  have hwritable {f : Field} {tag : Tag} (hf : fs.filter (·.tag = tag) = [f]) : f.Writable := by
    have hmem : f ∈ fs.filter (·.tag = tag) := hf ▸ List.mem_singleton_self f
    exact (checkField_eq_ok_iff.mp (hcheck f (List.mem_filter.mp hmem).1)).1
  refine ⟨version, type, hversion, ?_, ⟨hwritable hversion, hwritable htype, ?_⟩, ?_⟩
  · rw [canonicalOrder, hversion, htype]
    rfl
  · intro f hf
    obtain ⟨hf, hheader⟩ := List.mem_filter.mp hf
    exact isBody_of_checkField (hcheck f hf) (Bool.not_eq_true' _ ▸ hheader)
  · refine encode_eq_ok_iff.mpr ⟨?_, version, type, find?_of_filter_tag hversion,
      find?_of_filter_tag htype, rfl⟩
    have hnodup := nodup_headers_iff.mpr ⟨Nat.le_of_eq h.one_version, Nat.le_of_eq h.one_type⟩
    exact checkFields_eq_ok_iff.mpr ⟨hcheck, hnodup, fun _ _ _ => List.not_mem_nil⟩

/-- The encoder accepts exactly the field lists with one version, one type, and no field that cannot
be written. What it writes is read as the same fields, the version first, the type second and all
others in their order; when a version is required, exactly if it is the one that was written. The
bound on the length holds of every byte string in memory. -/
theorem encode_iff_decode_inverts (fs : List Field) :
    ((∃ frame, encode fs = .ok frame) ↔ WellFormed fs) ∧
      ∀ frame, encode fs = .ok frame → frame.length < 2 ^ 64 →
        decode none frame = .ok ⟨canonicalOrder fs⟩ ∧
          ∀ version m, Message.decode version frame = .ok m ↔
            ⟨.beginString, Utf8.bytes version⟩ ∈ fs ∧ m = ⟨canonicalOrder fs⟩ := by
  constructor
  · constructor
    · rintro ⟨frame, h⟩
      exact wellFormed_of_encode h
    · intro h
      obtain ⟨_, _, _, _, _, hencode⟩ := h.exists_canonical
      exact ⟨_, hencode⟩
  · intro frame hframe hlength
    obtain ⟨version, type, hversion, hordered, hcanonical, hencode⟩ :=
      (wellFormed_of_encode hframe).exists_canonical
    obtain rfl := Except.ok.inj (hencode.symm.trans hframe)
    have hdecode (expected : Option Bytes) (m : Message) := @decode_frame_iff expected _ _ _ m
      hcanonical.version_writable hcanonical.type_writable hcanonical.rest_isBody
    have hbody : (fieldBytes (⟨.msgType, type⟩ :: fs.filter (!isHeader ·))).length < 2 ^ 64 :=
      Nat.lt_of_le_of_lt (length_le_length_frame ..) hlength
    have hmem (value : Bytes) : ⟨.beginString, value⟩ ∈ fs ↔ version = value := by
      have hfilter : ⟨.beginString, value⟩ ∈ fs.filter (·.tag = .beginString) ↔
          ⟨.beginString, value⟩ ∈ fs := by
        rw [List.mem_filter, decide_eq_true_iff]
        exact and_iff_left rfl
      rw [← hfilter, hversion, List.mem_singleton, Field.mk.injEq, eq_comm (a := value)]
      exact and_iff_right rfl
    rw [hordered]
    refine ⟨(hdecode none _).mpr ⟨nofun, hbody, rfl⟩, fun expected m => ?_⟩
    rw [Message.decode, hdecode, hmem]
    constructor
    · rintro ⟨hv, _, hm⟩
      exact ⟨hv _ rfl, hm⟩
    · rintro ⟨hv, hm⟩
      exact ⟨fun v hv' => hv.trans (Option.mem_some_iff.mp hv'), hbody, hm⟩

/-- An order whose type and version do not come first, and with values that look like delimiters and
checksums. -/
def unordered : List Field :=
  [.ofText 55 "10=000", .ofText .msgType "D", .ofText 55 "a=b=", .ofText .beginString "FIX.4.2"]

theorem encode_iff_decode_inverts_unordered :
    ∃ frame, encode unordered = .ok frame ∧ frame.length < 2 ^ 64 ∧
      decode none frame = .ok ⟨[.ofText .beginString "FIX.4.2", .ofText .msgType "D",
        .ofText 55 "10=000", .ofText 55 "a=b="]⟩ ∧
      ∀ m, Message.decode "FIX.4.4" frame ≠ .ok m := by
  obtain ⟨hiff, hinverts⟩ := encode_iff_decode_inverts unordered
  obtain ⟨frame, hframe⟩ := hiff.mpr (by decide +kernel)
  have hlength : (encode unordered).toOption.map List.length = some 45 := by decide +kernel
  rw [hframe] at hlength
  have hshort : frame.length < 2 ^ 64 := by
    rw [show frame.length = 45 from Option.some.inj hlength]
    decide
  obtain ⟨hdecode, hrequired⟩ := hinverts frame hframe hshort
  refine ⟨frame, hframe, hshort, hdecode, fun m hm => ?_⟩
  exact absurd ((hrequired _ _).mp hm).1 (by decide +kernel)

end FixProtocol.Wire
