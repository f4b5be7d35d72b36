import FixProtocol.Proofs.Text.Utf8
import Mathlib.Algebra.Group.Nat.Defs
import FixProtocol.Wire.Decode

/-!
# What is encoded decodes

A field list that encodes is a version, a type and a body. The frame that it encodes to is taken
apart into the same three again, and nothing else can be read from it.

- `Field.Writable`, `Wire.IsBody`: the fields that can stand on the wire, and those that can stand
  between the type and the checksum.
- `Wire.takeField_bytes`, `Wire.takeBody_fieldBytes`: one written field and a written body are read
  back.
- `Wire.decode_frame_iff`: exactly one message can be read from a frame, and it is read when the
  version is the expected one and a word holds the length.
- `Wire.encode_eq_ok_iff`: which field lists encode, and to what.
- `Wire.Canonical`: field lists with the version first and the type second, as decoding gives them.
- `Wire.canonical_of_decode`, `Wire.encode_of_canonical`, `Wire.decode_encode_iff`: decoding gives
  canonical lists, and these encode and are read back as they are.
-/

namespace FixProtocol

/-- A chain that succeeds has a first step that succeeds. -/
theorem exists_of_bind_eq_ok {ε α β : Type} {x : Except ε α} {f : α → Except ε β} {b : β}
    (h : (x >>= f) = .ok b) : ∃ a, x = .ok a ∧ f a = .ok b := by
  cases x with
  | error e => cases h
  | ok a => exact ⟨a, rfl, h⟩

/-- A computation that is seen to succeed does so. -/
theorem eq_ok_of_toOption {ε α : Type} {x : Except ε α} {a : α} (h : x.toOption = some a) :
    x = .ok a := by
  cases x with
  | ok b => exact congrArg _ (Option.some.inj h)
  | error e => cases h

namespace Numeral

theorem naturalUpTo?_ofNat {greatest n : Nat} (h : n ≤ greatest) :
    naturalUpTo? greatest (ofNat n) = some n := by
  rw [naturalUpTo?_eq, natural?_ofNat, Option.filter_some, if_pos (by simpa using h)]

theorem naturalUpTo?_ofNat_eq_none {greatest n : Nat} (h : greatest < n) :
    naturalUpTo? greatest (ofNat n) = none := by
  rw [naturalUpTo?_eq, natural?_ofNat, Option.filter_some, if_neg (by simpa using h)]

/-- A numeral has no sign in front. -/
theorem unsigned?_ofNat {greatest n : Nat} (h : n ≤ greatest) :
    unsigned? greatest (ofNat n) = some n := by
  unfold unsigned?
  split
  · next rest heq =>
    have hd : isDigit 43 = true := isDigit_of_mem_ofNat (heq ▸ List.mem_cons_self ..)
    exact absurd hd (by decide)
  · exact naturalUpTo?_ofNat h

theorem length_ofNat_le {n e : Nat} (he : 0 < e) (h : n < 10 ^ e) : (ofNat n).length ≤ e := by
  rw [ofNat, List.length_map]
  exact (Nat.length_toDigits_le_iff (by decide) he).mpr h

theorem soh_not_mem_ofNat (n : Nat) : Bytes.soh ∉ ofNat n :=
  (not_mem_of_all_isDigit (List.all_eq_true.mpr fun _ h => isDigit_of_mem_ofNat h)).1

theorem equalsSign_not_mem_ofNat (n : Nat) : Bytes.equalsSign ∉ ofNat n :=
  (not_mem_of_all_isDigit (List.all_eq_true.mpr fun _ h => isDigit_of_mem_ofNat h)).2

end Numeral

/-- A field that can stand on the wire: its tag exists, and its value is neither empty nor holds the
delimiter. -/
structure Field.Writable (f : Field) : Prop where
  tag_ne_zero : f.tag ≠ 0
  value_ne_nil : f.value ≠ []
  soh_not_mem : Bytes.soh ∉ f.value

namespace Wire

theorem parseTag?_ofNat {tag : Tag} (h : tag ≠ 0) :
    parseTag? (Numeral.ofNat tag.toNat) = some tag := by
  have hlt := tag.toNat_lt
  have hpos : 0 < tag.toNat := by
    rcases Nat.eq_zero_or_pos tag.toNat with h0 | h0
    · exact absurd (UInt32.toNat_inj.mp h0) h
    · exact h0
  have hlen : (Numeral.ofNat tag.toNat).length ≤ 10 :=
    Numeral.length_ofNat_le (by decide) (by omega)
  rw [parseTag?, if_pos hlen, Numeral.natural?_ofNat, Option.bind_some, if_pos ⟨hpos, hlt⟩,
    UInt32.ofNat_toNat]

/-- A tag, an equals sign and a value are read up to the delimiter, whatever follows it. -/
theorem takeField_append {digits value : Bytes} {tag : Tag} (hdigits : Bytes.equalsSign ∉ digits)
    (htag : parseTag? digits = some tag) (hvalue : value ≠ []) (hsoh : Bytes.soh ∉ value)
    (rest : Bytes) :
    takeField (digits ++ Bytes.equalsSign :: (value ++ Bytes.soh :: rest)) =
      .ok (some (⟨tag, value⟩, rest)) := by
  have hne : digits ++ Bytes.equalsSign :: (value ++ Bytes.soh :: rest) ≠ [] := by simp
  rw [takeField, if_neg hne, Bytes.cut_append hdigits]
  dsimp only
  rw [htag]
  dsimp only
  rw [Bytes.cut_append hsoh]
  dsimp only
  rw [if_neg hvalue]

/-- A written field is read back, whatever follows it. -/
theorem takeField_bytes {f : Field} (h : f.Writable) (rest : Bytes) :
    takeField (f.bytes ++ rest) = .ok (some (f, rest)) := by
  have hsplit : f.bytes ++ rest =
      Numeral.ofNat f.tag.toNat ++ Bytes.equalsSign :: (f.value ++ Bytes.soh :: rest) := by
    simp [Field.bytes]
  rw [hsplit]
  exact takeField_append (Numeral.equalsSign_not_mem_ofNat _) (parseTag?_ofNat h.tag_ne_zero)
    h.value_ne_nil h.soh_not_mem rest

theorem expectField_bytes {f : Field} (h : f.Writable) (reason : String) (rest : Bytes) :
    expectField f.tag reason (f.bytes ++ rest) = .ok (f, rest) := by
  rw [expectField, takeField_bytes h]
  dsimp only
  rw [if_pos rfl]

/-- A field that may stand between the type and the checksum. -/
structure IsBody (f : Field) : Prop extends f.Writable where
  tag_ne_beginString : f.tag ≠ .beginString
  tag_ne_bodyLength : f.tag ≠ .bodyLength
  tag_ne_msgType : f.tag ≠ .msgType
  tag_ne_checkSum : f.tag ≠ .checkSum

/-- What becomes of the first field of a body depends on its tag. -/
theorem takeBody_of_takeField {f : Field} {bs rest : Bytes}
    (h : takeField bs = .ok (some (f, rest))) :
    takeBody bs =
      if f.tag = .checkSum then .ok ⟨[], f.value, bs, rest⟩
      else if f.tag = .beginString ∨ f.tag = .bodyLength ∨ f.tag = .msgType then
        .error (.malformedField f.tag "header field repeated")
      else (takeBody rest).map fun body => { body with fields := f :: body.fields } := by
  rw [takeBody]
  split
  · next heq => rw [h] at heq; cases heq
  · next heq => rw [h] at heq; cases heq
  · next heq =>
    rw [h] at heq
    cases heq
    cases takeBody rest <;> rfl

theorem takeBody_of_checkSum {f : Field} {bs rest : Bytes}
    (h : takeField bs = .ok (some (f, rest))) (hf : f.tag = .checkSum) :
    takeBody bs = .ok ⟨[], f.value, bs, rest⟩ := by
  rw [takeBody_of_takeField h, if_pos hf]

theorem takeBody_of_isBody {f : Field} {bs rest : Bytes}
    (h : takeField bs = .ok (some (f, rest))) (hf : IsBody f) :
    takeBody bs = (takeBody rest).map fun body => { body with fields := f :: body.fields } := by
  rw [takeBody_of_takeField h, if_neg hf.tag_ne_checkSum, if_neg]
  rintro (e | e | e)
  · exact hf.tag_ne_beginString e
  · exact hf.tag_ne_bodyLength e
  · exact hf.tag_ne_msgType e

/-- The fields of a body are read back up to the checksum. -/
theorem takeBody_fieldBytes {fs : List Field} {last : Field} (hfs : ∀ f ∈ fs, IsBody f)
    (hlast : last.Writable) (htag : last.tag = .checkSum) :
    takeBody (fieldBytes fs ++ last.bytes) = .ok ⟨fs, last.value, last.bytes, []⟩ := by
  induction fs with
  | nil =>
    have h := takeField_bytes hlast []
    rw [List.append_nil] at h
    exact takeBody_of_checkSum h htag
  | cons f fs ih =>
    have hf := hfs f (List.mem_cons_self ..)
    have hcons : fieldBytes (f :: fs) ++ last.bytes = f.bytes ++ (fieldBytes fs ++ last.bytes) := by
      simp [fieldBytes]
    rw [hcons, takeBody_of_isBody (takeField_bytes hf.toWritable _) hf,
      ih fun g hg => hfs g (List.mem_cons_of_mem _ hg)]
    rfl

/-- The bytes of a checksum field. -/
theorem writable_checkSum (sum : UInt8) : Field.Writable ⟨.checkSum, Checksum.text sum⟩ where
  tag_ne_zero := show Tag.checkSum ≠ 0 by decide
  value_ne_nil := by simp [Checksum.text]
  soh_not_mem := by
    have hall : (Checksum.text sum).all Numeral.isDigit = true := by
      simp [Checksum.text, Numeral.isDigit_digit]
    exact (Numeral.not_mem_of_all_isDigit hall).1

theorem writable_bodyLength (n : Nat) : Field.Writable (.ofNat .bodyLength n) where
  tag_ne_zero := show Tag.bodyLength ≠ 0 by decide
  value_ne_nil := Numeral.ofNat_ne_nil n
  soh_not_mem := Numeral.soh_not_mem_ofNat n

theorem checkVersion_eq_ok_iff {expected : Option Bytes} {found : Bytes} :
    checkVersion expected found = .ok () ↔ ∀ version ∈ expected, found = version := by
  unfold checkVersion
  cases expected with
  | none => simp
  | some version =>
    dsimp only
    split
    · next h => simp [h]
    · next h => simp [h]

theorem declaredLength_ofNat_eq_ok_iff {n m : Nat} :
    declaredLength (Numeral.ofNat n) = .ok m ↔ n < 2 ^ 64 ∧ m = n := by
  unfold declaredLength parseLength?
  by_cases h : n < 2 ^ 64
  · have hle : n ≤ UInt64.size - 1 := Nat.le_sub_one_of_lt h
    rw [Numeral.naturalUpTo?_ofNat hle]
    exact ⟨fun hm => ⟨h, (Except.ok.inj hm).symm⟩, fun hm => congrArg Except.ok hm.2.symm⟩
  · have hlt : UInt64.size - 1 < n := Nat.not_le.mp fun hle => h (Nat.lt_succ_of_le hle)
    rw [Numeral.naturalUpTo?_ofNat_eq_none hlt]
    exact ⟨nofun, fun hm => absurd hm.1 h⟩

/-- Once the three first fields and the body are taken off, the checks remain. -/
theorem decode_of_fields {expected : Option Bytes} {bs afterVersion afterLength afterType : Bytes}
    {begun length type : Field} {body : Body}
    (hbegun : expectField .beginString "BeginString must be first" bs = .ok (begun, afterVersion))
    (hlength : expectField .bodyLength "BodyLength must be second" afterVersion =
      .ok (length, afterLength))
    (htype : expectField .msgType "MsgType must be third" afterLength = .ok (type, afterType))
    (hbody : takeBody afterType = .ok body) :
    decode expected bs = do
      checkVersion expected begun.value
      let declared ← declaredLength length.value
      checkEnd body.rest
      checkLength declared (afterLength.length - body.trailer.length)
      checkChecksum (Checksum.sum (bs.take (bs.length - body.trailer.length))) body.checksum
      return ⟨begun :: type :: body.fields⟩ := by
  unfold decode
  simp only [hbegun, hlength, htype, hbody, bind, Except.bind]

/-- One message, and no other, can be read from a frame. It is read when the version is the expected
one and a word holds the length of the body. -/
theorem decode_frame_iff {expected : Option Bytes} {version type : Bytes} {fs : List Field}
    {m : Message} (hversion : Field.Writable ⟨.beginString, version⟩)
    (htype : Field.Writable ⟨.msgType, type⟩) (hfs : ∀ f ∈ fs, IsBody f) :
    decode expected (frame version (fieldBytes (⟨.msgType, type⟩ :: fs))) = .ok m ↔
      (∀ v ∈ expected, version = v) ∧ (fieldBytes (⟨.msgType, type⟩ :: fs)).length < 2 ^ 64 ∧
        m = ⟨⟨.beginString, version⟩ :: ⟨.msgType, type⟩ :: fs⟩ := by
  -- The frame is read piece by piece, so its pieces get names; what they are made of does not
  -- matter before the checks at the end.
  generalize hbody : fieldBytes (⟨.msgType, type⟩ :: fs) = body
  generalize hlengthField : Field.ofNat .bodyLength body.length = lengthField
  generalize hfront : Field.bytes ⟨.beginString, version⟩ ++ lengthField.bytes ++ body = front
  generalize hlast : (⟨.checkSum, Checksum.text (Checksum.sum front)⟩ : Field) = last
  have hframe : frame version body = front ++ last.bytes := by
    rw [frame, withChecksum, hlengthField, hfront, hlast]
  have hcons : body ++ last.bytes =
      Field.bytes ⟨.msgType, type⟩ ++ (fieldBytes fs ++ last.bytes) := by
    rw [← hbody]
    simp [fieldBytes]
  have hbegun : expectField .beginString "BeginString must be first" (frame version body) =
      .ok (⟨.beginString, version⟩, lengthField.bytes ++ (body ++ last.bytes)) := by
    rw [hframe, ← hfront, List.append_assoc, List.append_assoc]
    exact expectField_bytes hversion _ _
  have hlength : expectField .bodyLength "BodyLength must be second"
      (lengthField.bytes ++ (body ++ last.bytes)) = .ok (lengthField, body ++ last.bytes) := by
    rw [← hlengthField]
    exact expectField_bytes (writable_bodyLength _) _ _
  have hmsgType : expectField .msgType "MsgType must be third" (body ++ last.bytes) =
      .ok (⟨.msgType, type⟩, fieldBytes fs ++ last.bytes) := by
    rw [hcons]
    exact expectField_bytes htype _ _
  have htaken : takeBody (fieldBytes fs ++ last.bytes) = .ok ⟨fs, last.value, last.bytes, []⟩ := by
    rw [← hlast]
    exact takeBody_fieldBytes hfs (writable_checkSum _) rfl
  rw [decode_of_fields hbegun hlength hmsgType htaken]
  -- The length and the checksum are counted back from the end of the frame.
  have hactual : (body ++ last.bytes).length - last.bytes.length = body.length := by
    rw [List.length_append, Nat.add_sub_cancel]
  have hsummed : (frame version body).take ((frame version body).length - last.bytes.length) =
      front := by
    rw [hframe, List.length_append, Nat.add_sub_cancel, List.take_left]
  have hchecksum : checkChecksum (Checksum.sum front) last.value = .ok () := by
    rw [checkChecksum, ← hlast, Checksum.parse?_text]
    exact if_pos rfl
  have hend : checkEnd [] = .ok () := rfl
  dsimp only
  rw [hactual, hsummed, hchecksum, hend]
  rw [← hlengthField]
  constructor
  · intro h
    -- Of all the checks only those of the version and of the length can fail.
    obtain ⟨_, hv, h⟩ := exists_of_bind_eq_ok h
    obtain ⟨n, hd, h⟩ := exists_of_bind_eq_ok h
    obtain ⟨hn, rfl⟩ := declaredLength_ofNat_eq_ok_iff.mp hd
    obtain ⟨-, -, h⟩ := exists_of_bind_eq_ok h
    obtain ⟨-, -, h⟩ := exists_of_bind_eq_ok h
    obtain ⟨-, -, h⟩ := exists_of_bind_eq_ok h
    exact ⟨checkVersion_eq_ok_iff.mp hv, hn, (Except.ok.inj h).symm⟩
  · rintro ⟨hv, hn, rfl⟩
    have hlen : checkLength body.length body.length = .ok () := if_pos rfl
    rw [checkVersion_eq_ok_iff.mpr hv, Field.ofNat, declaredLength_ofNat_eq_ok_iff.mpr ⟨hn, rfl⟩]
    show (checkLength body.length body.length >>= _) = _
    rw [hlen]
    rfl

/-! ## Which field lists encode -/

theorem checkField_eq_ok_iff {f : Field} :
    checkField f = .ok () ↔ f.Writable ∧ f.tag ≠ .bodyLength ∧ f.tag ≠ .checkSum := by
  unfold checkField
  constructor
  · intro h
    split at h
    · cases h
    · next h0 =>
      split at h
      · cases h
      · next hreserved =>
        split at h
        · cases h
        · next hempty =>
          split at h
          · cases h
          · next hsoh =>
            exact ⟨⟨h0, hempty, hsoh⟩, fun e => hreserved (.inl e), fun e => hreserved (.inr e)⟩
  · rintro ⟨⟨h0, hempty, hsoh⟩, hlength, hsum⟩
    rw [if_neg h0, if_neg (by rintro (e | e) <;> contradiction), if_neg hempty, if_neg hsoh]

theorem isHeader_iff {f : Field} :
    isHeader f = true ↔ f.tag = .beginString ∨ f.tag = .msgType := by
  simp [isHeader]

/-- The first field passes when it passes its own check and is no header field that was seen. -/
theorem checkFields_cons {seen : List Tag} {f : Field} {fs : List Field} :
    checkFields seen (f :: fs) = .ok () ↔
      checkField f = .ok () ∧ (isHeader f = true → f.tag ∉ seen) ∧
        checkFields (if isHeader f then f.tag :: seen else seen) fs = .ok () := by
  rw [checkFields]
  cases hf : checkField f with
  | error e => exact iff_of_false nofun (fun h => nomatch h.1)
  | ok =>
    show (if isHeader f = true then _ else _) = _ ↔ _
    by_cases hh : isHeader f = true
    · rw [if_pos hh, if_pos hh]
      by_cases hm : f.tag ∈ seen
      · rw [if_pos hm]
        exact iff_of_false nofun (fun h => h.2.1 hh hm)
      · rw [if_neg hm]
        exact ⟨fun h => ⟨rfl, fun _ => hm, h⟩, fun h => h.2.2⟩
    · rw [if_neg hh, if_neg hh]
      exact ⟨fun h => ⟨rfl, fun h => absurd h hh, h⟩, fun h => h.2.2⟩

/-- The checks of single fields pass when each field passes its own and no header field comes twice,
or after `seen`. -/
theorem checkFields_eq_ok_iff {seen : List Tag} {fs : List Field} :
    checkFields seen fs = .ok () ↔
      (∀ f ∈ fs, checkField f = .ok ()) ∧ ((fs.filter isHeader).map Field.tag).Nodup ∧
        ∀ f ∈ fs, isHeader f = true → f.tag ∉ seen := by
  induction fs generalizing seen with
  | nil => simp [checkFields]
  | cons f fs ih =>
    rw [checkFields_cons, ih, List.forall_mem_cons, List.forall_mem_cons, List.filter_cons]
    by_cases hh : isHeader f = true
    · rw [if_pos hh, if_pos hh, List.map_cons, List.nodup_cons]
      -- A header field must not come again: it is seen, or its tag stands before the others.
      have hfresh : f.tag ∉ (fs.filter isHeader).map Field.tag ↔
          ∀ g ∈ fs, isHeader g = true → g.tag ≠ f.tag := by
        simp only [List.mem_map, List.mem_filter, not_exists, not_and, and_imp, ne_eq]
      simp only [hfresh, List.mem_cons, not_or]
      constructor
      · rintro ⟨hf, hseen, hall, hnodup, hrest⟩
        exact ⟨⟨hf, hall⟩, ⟨fun g hg hgh => (hrest g hg hgh).1, hnodup⟩, hseen,
          fun g hg hgh => (hrest g hg hgh).2⟩
      · rintro ⟨⟨hf, hall⟩, ⟨hfresh, hnodup⟩, hseen, hrest⟩
        exact ⟨hf, hseen, hall, hnodup, fun g hg hgh => ⟨hfresh g hg hgh, hrest g hg hgh⟩⟩
    · rw [if_neg hh, if_neg hh]
      constructor
      · rintro ⟨hf, hseen, hall, hnodup, hrest⟩
        exact ⟨⟨hf, hall⟩, hnodup, hseen, hrest⟩
      · rintro ⟨⟨hf, hall⟩, hnodup, hseen, hrest⟩
        exact ⟨hf, hseen, hall, hnodup, hrest⟩

theorem requireValue_eq_ok_iff {fs : List Field} {tag : Tag} {value : Bytes} :
    requireValue fs tag = .ok value ↔ fs.find? (·.tag = tag) = some ⟨tag, value⟩ := by
  unfold requireValue
  split
  · next f hf =>
    have htag : f.tag = tag := by simpa using List.find?_some hf
    rw [hf]
    obtain ⟨t, v⟩ := f
    simp only at htag
    subst htag
    simp
  · next hf => simp [hf]

/-- A field list that encodes holds one version and one type, and all its fields pass their
checks. -/
theorem encode_eq_ok_iff {fs : List Field} {frame : Bytes} :
    encode fs = .ok frame ↔
      checkFields [] fs = .ok () ∧ ∃ version type,
        fs.find? (·.tag = .beginString) = some ⟨.beginString, version⟩ ∧
        fs.find? (·.tag = .msgType) = some ⟨.msgType, type⟩ ∧
        frame = Wire.frame version (fieldBytes (⟨.msgType, type⟩ :: fs.filter (!isHeader ·))) := by
  unfold encode
  constructor
  · intro h
    obtain ⟨_, hc, h⟩ := exists_of_bind_eq_ok h
    obtain ⟨version, hv, h⟩ := exists_of_bind_eq_ok h
    obtain ⟨type, ht, h⟩ := exists_of_bind_eq_ok h
    exact ⟨hc, version, type, requireValue_eq_ok_iff.mp hv, requireValue_eq_ok_iff.mp ht,
      (Except.ok.inj h).symm⟩
  · rintro ⟨hc, version, type, hv, ht, rfl⟩
    rw [hc, requireValue_eq_ok_iff.mpr hv, requireValue_eq_ok_iff.mpr ht]
    rfl

/-! ## Canonical field lists -/

/-- A version, a type, and fields that may stand in a body. -/
structure Canonical (version type : Bytes) (rest : List Field) : Prop where
  version_writable : Field.Writable ⟨.beginString, version⟩
  type_writable : Field.Writable ⟨.msgType, type⟩
  rest_isBody : ∀ f ∈ rest, IsBody f

/-- The fields of a version, a type and a body. -/
abbrev listed (version type : Bytes) (rest : List Field) : List Field :=
  ⟨.beginString, version⟩ :: ⟨.msgType, type⟩ :: rest

theorem not_isHeader_of_isBody {f : Field} (h : IsBody f) : isHeader f = false := by
  rw [Bool.eq_false_iff, Ne, isHeader_iff]
  rintro (e | e)
  · exact h.tag_ne_beginString e
  · exact h.tag_ne_msgType e

theorem isBody_of_checkField {f : Field} (h : checkField f = .ok ()) (hh : isHeader f = false) :
    IsBody f := by
  obtain ⟨hw, hlength, hsum⟩ := checkField_eq_ok_iff.mp h
  rw [Bool.eq_false_iff, Ne, isHeader_iff, not_or] at hh
  exact { hw with
    tag_ne_beginString := hh.1
    tag_ne_bodyLength := hlength
    tag_ne_msgType := hh.2
    tag_ne_checkSum := hsum }

theorem checkField_of_isBody {f : Field} (h : IsBody f) : checkField f = .ok () :=
  checkField_eq_ok_iff.mpr ⟨h.toWritable, h.tag_ne_bodyLength, h.tag_ne_checkSum⟩

/-- A list that starts with a version and a type encodes exactly when it is canonical. -/
theorem encode_listed_iff {version type : Bytes} {rest : List Field} {frame : Bytes} :
    encode (listed version type rest) = .ok frame ↔
      Canonical version type rest ∧
        frame = Wire.frame version (fieldBytes (⟨.msgType, type⟩ :: rest)) := by
  rw [encode_eq_ok_iff, checkFields_eq_ok_iff]
  have hfilter (h : ∀ f ∈ rest, isHeader f = false) :
      (listed version type rest).filter (!isHeader ·) = rest := by
    rw [List.filter_cons_of_neg (by simp [isHeader]), List.filter_cons_of_neg (by simp [isHeader]),
      List.filter_eq_self]
    intro f hf
    rw [h f hf]
    rfl
  have hne : Tag.beginString ≠ Tag.msgType := by decide
  have hnone (h : ∀ f ∈ rest, isHeader f = false) : rest.filter isHeader = [] := by
    rw [List.filter_eq_nil_iff]
    intro f hf
    rw [h f hf]
    exact Bool.false_ne_true
  constructor
  · rintro ⟨⟨hall, hnodup, -⟩, v, t, hv, ht, rfl⟩
    obtain rfl : version = v := by simpa using hv
    obtain rfl : type = t := by simpa [hne] using ht
    have hheader : ∀ f ∈ rest, isHeader f = false := by
      intro f hf
      rw [Bool.eq_false_iff]
      intro hh
      -- A second version or type would repeat the tag of the first.
      rw [List.filter_cons_of_pos (by simp [isHeader]),
        List.filter_cons_of_pos (by simp [isHeader]), List.map_cons, List.map_cons,
        List.nodup_cons, List.nodup_cons] at hnodup
      have hmem : f.tag ∈ (rest.filter isHeader).map Field.tag :=
        List.mem_map_of_mem (List.mem_filter.mpr ⟨hf, hh⟩)
      rcases isHeader_iff.mp hh with e | e
      · exact hnodup.1 (List.mem_cons_of_mem _ (e ▸ hmem))
      · exact hnodup.2.1 (e ▸ hmem)
    refine ⟨⟨?_, ?_, ?_⟩, by rw [hfilter hheader]⟩
    · exact (checkField_eq_ok_iff.mp (hall _ (by simp))).1
    · exact (checkField_eq_ok_iff.mp (hall _ (by simp))).1
    · exact fun f hf => isBody_of_checkField (hall f (by simp [hf])) (hheader f hf)
  · rintro ⟨h, rfl⟩
    have hheader : ∀ f ∈ rest, isHeader f = false :=
      fun f hf => not_isHeader_of_isBody (h.rest_isBody f hf)
    refine ⟨⟨?_, ?_, by simp⟩, version, type, by simp, by simp [hne], by rw [hfilter hheader]⟩
    · intro f hf
      rcases List.mem_cons.mp hf with rfl | hf
      · exact checkField_eq_ok_iff.mpr ⟨h.version_writable,
          show Tag.beginString ≠ Tag.bodyLength by decide,
          show Tag.beginString ≠ Tag.checkSum by decide⟩
      · rcases List.mem_cons.mp hf with rfl | hf
        · exact checkField_eq_ok_iff.mpr ⟨h.type_writable,
            show Tag.msgType ≠ Tag.bodyLength by decide,
            show Tag.msgType ≠ Tag.checkSum by decide⟩
        · exact checkField_of_isBody (h.rest_isBody f hf)
    · rw [List.filter_cons_of_pos (by simp [isHeader]),
        List.filter_cons_of_pos (by simp [isHeader]), hnone hheader]
      simp [hne]

/-- What is read from an encoded canonical list is the list. It is read when the version is the
expected one and a word holds the length. -/
theorem decode_encode_iff {expected : Option Bytes} {version type frame : Bytes}
    {rest : List Field} {m : Message} (h : encode (listed version type rest) = .ok frame) :
    decode expected frame = .ok m ↔
      (∀ v ∈ expected, version = v) ∧
        (fieldBytes (⟨.msgType, type⟩ :: rest)).length < 2 ^ 64 ∧
        m = ⟨listed version type rest⟩ := by
  obtain ⟨hc, rfl⟩ := encode_listed_iff.mp h
  exact decode_frame_iff hc.version_writable hc.type_writable hc.rest_isBody

/-! ## What decoding gives -/

theorem writable_of_takeField {bs rest : Bytes} {f : Field}
    (h : takeField bs = .ok (some (f, rest))) : f.Writable := by
  unfold takeField at h
  split at h
  · cases h
  · split at h
    · cases h
    · split at h
      · cases h
      · next tag htag =>
        split at h
        · cases h
        · next value rest' hcut =>
          split at h
          · cases h
          · next hempty =>
            simp only [Except.ok.injEq, Option.some.injEq, Prod.mk.injEq] at h
            obtain ⟨rfl, rfl⟩ := h
            refine ⟨?_, hempty, (Bytes.cut_eq_some_iff.mp hcut).1⟩
            -- A tag of zero would have been refused where the digits are read.
            rintro rfl
            unfold parseTag? at htag
            split at htag
            · obtain ⟨n, -, hn⟩ := Option.bind_eq_some_iff.mp htag
              split at hn
              · next hlt =>
                have := congrArg UInt32.toNat (Option.some.inj hn)
                rw [UInt32.toNat_ofNat_of_lt' hlt.2] at this
                exact absurd this (by
                  show n ≠ 0
                  omega)
              · cases hn
            · cases htag

theorem expectField_eq_ok {tag : Tag} {reason : String} {bs rest : Bytes} {f : Field}
    (h : expectField tag reason bs = .ok (f, rest)) : f.Writable ∧ f.tag = tag := by
  unfold expectField at h
  split at h
  · cases h
  · cases h
  · next f' rest' htake =>
    split at h
    · next htag =>
      cases h
      exact ⟨writable_of_takeField htake, htag⟩
    · cases h

theorem isBody_of_takeBody {bs : Bytes} {body : Body} (h : takeBody bs = .ok body) :
    ∀ f ∈ body.fields, IsBody f := by
  fun_induction takeBody bs generalizing body with
  | case1 => cases h
  | case2 => cases h
  | case3 =>
    cases h
    simp
  | case4 => cases h
  | case5 bs f rest htake _ hsum hheader ih =>
    cases hb : takeBody rest with
    | error e =>
      rw [hb] at h
      cases h
    | ok b =>
      rw [hb] at h
      obtain rfl := Except.ok.inj h
      rw [not_or, not_or] at hheader
      intro g hg
      rcases List.mem_cons.mp hg with rfl | hg
      · exact { writable_of_takeField htake with
          tag_ne_beginString := hheader.1
          tag_ne_bodyLength := hheader.2.1
          tag_ne_msgType := hheader.2.2
          tag_ne_checkSum := hsum }
      · exact ih hb g hg

/-- A message that was decoded is a canonical list of the expected version. -/
theorem canonical_of_decode {expected : Option Bytes} {bs : Bytes} {m : Message}
    (h : decode expected bs = .ok m) :
    ∃ version type rest, (∀ v ∈ expected, version = v) ∧ Canonical version type rest ∧
      m = ⟨listed version type rest⟩ := by
  unfold decode at h
  obtain ⟨⟨begun, afterVersion⟩, hbegun, h⟩ := exists_of_bind_eq_ok h
  obtain ⟨_, hversion, h⟩ := exists_of_bind_eq_ok h
  obtain ⟨⟨length, afterLength⟩, -, h⟩ := exists_of_bind_eq_ok h
  obtain ⟨declared, -, h⟩ := exists_of_bind_eq_ok h
  obtain ⟨⟨type, afterType⟩, htype, h⟩ := exists_of_bind_eq_ok h
  obtain ⟨body, hbody, h⟩ := exists_of_bind_eq_ok h
  obtain ⟨-, -, h⟩ := exists_of_bind_eq_ok h
  obtain ⟨-, -, h⟩ := exists_of_bind_eq_ok h
  obtain ⟨-, -, h⟩ := exists_of_bind_eq_ok h
  obtain ⟨hbw, hbt⟩ := expectField_eq_ok hbegun
  obtain ⟨htw, htt⟩ := expectField_eq_ok htype
  obtain ⟨_, version⟩ := begun
  obtain ⟨_, typeValue⟩ := type
  simp only at hbt htt
  subst hbt htt
  exact ⟨version, typeValue, body.fields, checkVersion_eq_ok_iff.mp hversion,
    ⟨hbw, htw, isBody_of_takeBody hbody⟩, (Except.ok.inj h).symm⟩

/-- A canonical list encodes. -/
theorem encode_of_canonical {version type : Bytes} {rest : List Field}
    (h : Canonical version type rest) :
    encode (listed version type rest) =
      .ok (frame version (fieldBytes (⟨.msgType, type⟩ :: rest))) :=
  encode_listed_iff.mpr ⟨h, rfl⟩

theorem length_le_length_frame (version body : Bytes) :
    body.length ≤ (frame version body).length := by
  unfold frame withChecksum
  simp only [List.length_append]
  omega

end Wire

end FixProtocol
