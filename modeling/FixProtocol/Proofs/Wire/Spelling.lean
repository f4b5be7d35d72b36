import FixProtocol.Proofs.Wire.Grammar
import FixProtocol.Proofs.Wire.WellFormed
import Mathlib.Data.List.Basic
import Mathlib.Data.List.Induction

/-!
# How a message may be spelled

The same message can stand on the wire in more than one way: its tags and its length may have
leading zeros, and nothing else is free. The encoder gives it the spelling without them. So whatever
was read can be written again and read again, and it comes out byte for byte as it came in exactly
when it had no such zeros.

- `Numeral.LeadingZero`: a numeral with a zero too many; `Numeral.ofNat_value`: all others are the
  numerals that are written.
- `Wire.Layout.written`: the items that the encoder gives to a message.
- `Wire.Layout.Ordered.eq_of_bytes`: the bytes of a message determine its items.
- `Wire.encode_inverts_decode_iff`: what was read encodes, and to the same bytes exactly when they
  have no leading zeros.
-/

namespace FixProtocol

namespace Numeral

variable {ds es : Bytes}

/-- A numeral that starts with a zero and goes on. -/
def LeadingZero (ds : Bytes) : Prop :=
  1 < ds.length ∧ ds.head? = some (digit 0)

instance : Decidable (LeadingZero ds) :=
  inferInstanceAs (Decidable (_ ∧ _))

/-- Zero itself is written without one. -/
example : ¬ LeadingZero (ofNat 0) ∧ LeadingZero (padded 3 7) := by
  decide +kernel

theorem digit_digitValue {d : UInt8} (h : isDigit d = true) : digit (digitValue d) = d := by
  simp only [isDigit, Bool.and_eq_true, decide_eq_true_eq, UInt8.le_iff_toNat_le] at h
  have hlow : 48 ≤ d.toNat := h.1
  have hhigh : d.toNat ≤ 57 := h.2
  rw [digit, digitValue, ← UInt8.toNat_inj, UInt8.toNat_ofNat']
  omega

theorem digitValue_lt {d : UInt8} (h : isDigit d = true) : digitValue d < 10 := by
  rw [← digit_digitValue h, digitValue_digit]
  exact Nat.mod_lt _ (by decide)

/-- A numeral of `k` digits denotes a number below `10 ^ k`. The induction takes the last digit
off, as the value does. -/
theorem value_lt (h : ∀ d ∈ ds, isDigit d = true) : value ds < 10 ^ ds.length := by
  induction ds using List.reverseRecOn with
  | nil => decide
  | append_singleton ds d ih =>
    have hds := ih fun d hd => h d (List.mem_append_left _ hd)
    have hd := digitValue_lt (h d (by simp))
    rw [value_append_digit, List.length_append, List.length_singleton, Nat.pow_succ]
    omega

theorem lt_pow_length_ofNat (n : Nat) : n < 10 ^ (ofNat n).length := by
  have hlt : value (ofNat n) < 10 ^ (ofNat n).length :=
    value_lt fun _ hd => isDigit_of_mem_ofNat hd
  rwa [value_ofNat] at hlt

/-- Two numerals with the same number of digits that denote the same number are the same. -/
theorem eq_of_value_eq (hds : ∀ d ∈ ds, isDigit d = true) (hes : ∀ d ∈ es, isDigit d = true)
    (hlength : ds.length = es.length) (hvalue : value ds = value es) : ds = es := by
  induction ds using List.reverseRecOn generalizing es with
  | nil => exact (List.length_eq_zero_iff.mp hlength.symm).symm
  | append_singleton ds d ih =>
    rcases List.eq_nil_or_concat es with rfl | ⟨es, e, rfl⟩
    · simp at hlength
    · rw [List.concat_eq_append] at *
      have hd : isDigit d = true := hds d (by simp)
      have he : isDigit e = true := hes e (by simp)
      have hd' := digitValue_lt hd
      have he' := digitValue_lt he
      rw [value_append_digit, value_append_digit] at hvalue
      have hfront : ds = es := by
        refine ih (fun d hd => hds d (List.mem_append_left _ hd))
          (fun d hd => hes d (List.mem_append_left _ hd)) ?_ (by omega)
        simpa using hlength
      have hlast : d = e := by
        rw [← digit_digitValue hd, ← digit_digitValue he]
        congr 1
        omega
      rw [hfront, hlast]

/-- A written numeral is no longer than any other of its number. -/
theorem length_ofNat_value_le (hne : ds ≠ []) (h : ∀ d ∈ ds, isDigit d = true) :
    (ofNat (value ds)).length ≤ ds.length :=
  length_ofNat_le (List.length_pos_iff.mpr hne) (value_lt h)

/-- Only zero is written with a zero in front. -/
theorem head?_ofNat_ne {n : Nat} (h : 0 < n) : (ofNat n).head? ≠ some (digit 0) := by
  induction n using Nat.strongRecOn with
  | ind n ih =>
    by_cases hn : n < 10
    · rw [ofNat_of_lt hn, List.head?_cons]
      intro hzero
      have hvalue := congrArg digitValue (Option.some.inj hzero)
      rw [digitValue_digit, digitValue_digit] at hvalue
      omega
    · rw [ofNat_of_le (by omega), List.head?_append_of_ne_nil _ (ofNat_ne_nil _)]
      exact ih (n / 10) (by omega) (by omega)

theorem not_leadingZero_ofNat (n : Nat) : ¬ LeadingZero (ofNat n) := by
  rintro ⟨hlength, hzero⟩
  by_cases hn : 0 < n
  · exact head?_ofNat_ne hn hzero
  · obtain rfl : n = 0 := by omega
    exact absurd hlength (by decide)

/-- A numeral without leading zeros is the one that is written. -/
theorem ofNat_value (hne : ds ≠ []) (h : ∀ d ∈ ds, isDigit d = true) (hzero : ¬ LeadingZero ds) :
    ofNat (value ds) = ds := by
  induction ds using List.reverseRecOn with
  | nil => exact absurd rfl hne
  | append_singleton ds d ih =>
    have hd : isDigit d = true := h d (by simp)
    have hlt := digitValue_lt hd
    rw [value_append_digit]
    by_cases hds : ds = []
    · subst hds
      have hsingle : 10 * value [] + digitValue d = digitValue d := Nat.zero_add _
      rw [hsingle, ofNat_of_lt hlt, digit_digitValue hd, List.nil_append]
    · have hlong : 1 < (ds ++ [d]).length := by
        have := List.length_pos_iff.mpr hds
        simp only [List.length_append, List.length_singleton]
        omega
      have hhead : ds.head? ≠ some (digit 0) := by
        intro hhead
        exact hzero ⟨hlong, (List.head?_append_of_ne_nil _ hds).trans hhead⟩
      have hfront := ih hds (fun d hd => h d (List.mem_append_left _ hd)) fun hz => hhead hz.2
      -- What stands before the last digit is no zero, so the number has more digits than one.
      have hpos : 0 < value ds := by
        refine Nat.pos_of_ne_zero fun hvalue => ?_
        rw [hvalue] at hfront
        rw [← hfront] at hhead
        exact hhead rfl
      have hdiv : (10 * value ds + digitValue d) / 10 = value ds := by omega
      have hmod : (10 * value ds + digitValue d) % 10 = digitValue d := by omega
      rw [ofNat_of_le (by omega), hdiv, hmod, hfront, digit_digitValue hd]

end Numeral

/-- The three digits of a sum are the only ones that denote it. -/
theorem Checksum.eq_text {bs : Bytes} {s : UInt8} (hlength : bs.length = 3)
    (h : ∀ b ∈ bs, Numeral.isDigit b = true) (hvalue : Numeral.value bs = s.toNat) :
    bs = text s := by
  obtain ⟨hlength', h', hvalue'⟩ := parse?_eq_some_iff.mp (parse?_text s)
  exact Numeral.eq_of_value_eq h h' (hlength.trans hlength'.symm) (hvalue.trans hvalue'.symm)

namespace Wire

/-! ## Items that are written -/

namespace Item

variable {i j : Item}

/-- The item that writes a field. -/
def ofField (f : Field) : Item :=
  ⟨Numeral.ofNat f.tag.toNat, f.value⟩

theorem number_ofField (f : Field) : (ofField f).number = f.tag.toNat :=
  Numeral.value_ofNat _

theorem bytes_ofField (f : Field) : (ofField f).bytes = f.bytes :=
  rfl

theorem valid_ofField {f : Field} (h : f.Writable) : (ofField f).Valid := by
  obtain ⟨hne, hlength, hdigits, hpos, hle, _⟩ :=
    parseTag?_eq_some_iff.mp (parseTag?_ofNat h.tag_ne_zero)
  exact ⟨hne, hlength, hdigits, hpos, hle, h.value_ne_nil, h.soh_not_mem⟩

theorem Valid.field_eq (h : i.Valid) (tag : Tag) (htag : i.number = tag.toNat) :
    i.field = ⟨tag, i.value⟩ := by
  rw [← (h.tag_eq_iff tag).mpr htag]
  rfl

theorem Valid.toNat_tag (h : i.Valid) : i.field.tag.toNat = i.number :=
  ((h.tag_eq_iff i.field.tag).mp rfl).symm

/-- An item whose tag has no leading zeros is the one that writes its field. -/
theorem Valid.ofField_field (h : i.Valid) (hzero : ¬ Numeral.LeadingZero i.digits) :
    ofField i.field = i := by
  rw [ofField, h.toNat_tag, number, Numeral.ofNat_value h.digits_ne_nil h.isDigit hzero]
  rfl

/-- Writing the field of an item takes no more bytes than the item has. -/
theorem Valid.length_bytes_field_le (h : i.Valid) :
    i.field.bytes.length ≤ i.bytes.length := by
  have hdigits := Numeral.length_ofNat_value_le h.digits_ne_nil h.isDigit
  rw [Field.bytes, h.toNat_tag, number, Item.bytes, List.length_append, List.length_append]
  exact Nat.add_le_add_right hdigits _

/-- An item in front of other bytes can be told from them. -/
theorem Valid.bytes_append_inj (hi : i.Valid) (hj : j.Valid) {rest rest' : Bytes}
    (h : i.bytes ++ rest = j.bytes ++ rest') : i = j ∧ rest = rest' := by
  -- Both are cut at the first equals sign, and what follows at the first delimiter.
  have hequals := Bytes.cut_append hi.equalsSign_not_mem (i.value ++ Bytes.soh :: rest)
  rw [← i.bytes_append, h, j.bytes_append, Bytes.cut_append hj.equalsSign_not_mem] at hequals
  obtain ⟨hdigits, hrest⟩ := Prod.mk.inj (Option.some.inj hequals)
  have hsoh := Bytes.cut_append hi.soh_not_mem rest
  rw [← hrest, Bytes.cut_append hj.soh_not_mem] at hsoh
  obtain ⟨hvalue, hrest⟩ := Prod.mk.inj (Option.some.inj hsoh)
  exact ⟨(Item.mk.injEq ..).mpr ⟨hdigits.symm, hvalue.symm⟩, hrest.symm⟩

end Item

/-- The bytes of valid items determine them. -/
theorem eq_of_itemBytes {is js : List Item} (his : ∀ i ∈ is, i.Valid) (hjs : ∀ j ∈ js, j.Valid)
    (h : itemBytes is = itemBytes js) : is = js := by
  have hne {i : Item} {rest : Bytes} : i.bytes ++ rest ≠ [] := by simp [Item.bytes]
  induction is generalizing js with
  | nil =>
    cases js with
    | nil => rfl
    | cons j js => exact absurd (h.symm.trans (List.flatMap_nil ..)) hne
  | cons i is ih =>
    cases js with
    | nil => exact absurd (h.trans (List.flatMap_nil ..)) hne
    | cons j js =>
      obtain ⟨hi, his'⟩ := List.forall_mem_cons.mp his
      obtain ⟨hj, hjs'⟩ := List.forall_mem_cons.mp hjs
      rw [itemBytes_cons, itemBytes_cons] at h
      obtain ⟨hsame, hrest⟩ := hi.bytes_append_inj hj h
      rw [hsame, ih his' hjs' hrest]

theorem itemBytes_ofField (fs : List Field) : itemBytes (fs.map Item.ofField) = fieldBytes fs :=
  List.flatMap_map ..

/-- Items without leading zeros are the ones that write their fields. -/
theorem map_ofField_field {is : List Item} (h : ∀ i ∈ is, i.Valid)
    (hzero : ∀ i ∈ is, ¬ Numeral.LeadingZero i.digits) :
    (is.map Item.field).map Item.ofField = is := by
  induction is with
  | nil => rfl
  | cons i is ih =>
    obtain ⟨hi, his⟩ := List.forall_mem_cons.mp h
    obtain ⟨hzero, hzeros⟩ := List.forall_mem_cons.mp hzero
    rw [List.map_cons, List.map_cons, hi.ofField_field hzero, ih his hzeros]

/-- Writing the fields of items takes no more bytes than the items have. -/
theorem length_fieldBytes_field_le {is : List Item} (h : ∀ i ∈ is, i.Valid) :
    (fieldBytes (is.map Item.field)).length ≤ (itemBytes is).length := by
  induction is with
  | nil => exact Nat.le_refl _
  | cons i is ih =>
    obtain ⟨hi, his⟩ := List.forall_mem_cons.mp h
    have hfirst := hi.length_bytes_field_le
    have hrest := ih his
    rw [List.map_cons, fieldBytes, List.flatMap_cons, itemBytes_cons, List.length_append,
      List.length_append]
    exact Nat.add_le_add hfirst hrest

/-! ## Messages that are written -/

namespace Layout

variable {l l' : Layout} {version type : Bytes} {rest : List Field}

/-- The bytes of a message determine its items. -/
theorem Ordered.eq_of_bytes (h : l.Ordered) (h' : l'.Ordered) (hbytes : l.bytes = l'.bytes) :
    l = l' := by
  have hitems : l.items = l'.items := eq_of_itemBytes h.valid h'.valid hbytes
  obtain ⟨version, length, type, body, checkSum⟩ := l
  obtain ⟨version', length', type', body', checkSum'⟩ := l'
  simp only [items, List.cons.injEq] at hitems
  obtain ⟨rfl, rfl, rfl, hrest⟩ := hitems
  obtain ⟨rfl, hlast⟩ := List.append_inj' hrest rfl
  rw [List.singleton_inj.mp hlast]

/-- The items that the encoder gives to a version, a type and a body. -/
def written (version type : Bytes) (rest : List Field) : Layout :=
  let body := fieldBytes (⟨.msgType, type⟩ :: rest)
  let front := Field.bytes ⟨.beginString, version⟩ ++ Field.bytes (.ofNat .bodyLength body.length)
  { version := .ofField ⟨.beginString, version⟩
    length := .ofField (.ofNat .bodyLength body.length)
    type := .ofField ⟨.msgType, type⟩
    body := rest.map .ofField
    checkSum := .ofField ⟨.checkSum, Checksum.text (Checksum.sum (front ++ body))⟩ }

theorem counted_written :
    (written version type rest).counted = fieldBytes (⟨.msgType, type⟩ :: rest) :=
  itemBytes_ofField (⟨.msgType, type⟩ :: rest)

theorem summed_written :
    (written version type rest).summed =
      Field.bytes ⟨.beginString, version⟩ ++
        Field.bytes (.ofNat .bodyLength (fieldBytes (⟨.msgType, type⟩ :: rest)).length) ++
          fieldBytes (⟨.msgType, type⟩ :: rest) := by
  rw [summed, itemBytes_cons, itemBytes_cons, ← counted, counted_written, List.append_assoc]
  rfl

/-- The frame that the encoder makes consists of these items. -/
theorem bytes_written :
    (written version type rest).bytes = frame version (fieldBytes (⟨.msgType, type⟩ :: rest)) := by
  rw [bytes_eq_summed, summed_written]
  rfl

theorem ordered_written (h : Canonical version type rest) :
    (written version type rest).Ordered where
  valid := by
    intro i hi
    simp only [items, written, List.mem_cons, List.mem_append, List.mem_map, List.not_mem_nil,
      or_false] at hi
    rcases hi with rfl | rfl | rfl | ⟨f, hf, rfl⟩ | rfl
    · exact Item.valid_ofField h.version_writable
    · exact Item.valid_ofField (writable_bodyLength _)
    · exact Item.valid_ofField h.type_writable
    · exact Item.valid_ofField (h.rest_isBody f hf).toWritable
    · exact Item.valid_ofField (writable_checkSum _)
  version := Item.number_ofField _
  length := Item.number_ofField _
  type := Item.number_ofField _
  checkSum := Item.number_ofField _
  body := by
    intro i hi
    obtain ⟨f, hf, rfl⟩ := List.mem_map.mp hi
    have hbody := h.rest_isBody f hf
    rw [Item.number_ofField]
    have hne {tag : Tag} (h : f.tag ≠ tag) : f.tag.toNat ≠ tag.toNat := mt UInt32.toNat_inj.mp h
    exact ⟨hne hbody.tag_ne_beginString, hne hbody.tag_ne_bodyLength, hne hbody.tag_ne_checkSum,
      hne hbody.tag_ne_msgType⟩

theorem sums_written :
    (written version type rest).Sums (written version type rest).sum := by
  obtain ⟨hlength, hdigits, hvalue⟩ := Checksum.parse?_eq_some_iff.mp
    (Checksum.parse?_text (Checksum.sum (written version type rest).summed))
  rw [toNat_sum] at hvalue
  have htext : (written version type rest).checkSum.value =
      Checksum.text (Checksum.sum (written version type rest).summed) := by
    rw [summed_written]
    rfl
  rw [← htext] at hlength hdigits hvalue
  exact ⟨hlength, hdigits, hvalue, Nat.le_of_lt_succ (Nat.mod_lt _ (by decide))⟩

/-- The encoder writes no leading zeros. -/
theorem shortest_written :
    (∀ i ∈ (written version type rest).items, ¬ Numeral.LeadingZero i.digits) ∧
      ¬ Numeral.LeadingZero (written version type rest).length.value := by
  constructor
  · intro i hi
    simp only [items, written, List.mem_cons, List.mem_append, List.mem_map, List.not_mem_nil,
      or_false] at hi
    rcases hi with rfl | rfl | rfl | ⟨f, _, rfl⟩ | rfl <;> exact Numeral.not_leadingZero_ofNat _
  · exact Numeral.not_leadingZero_ofNat _

/-- The fields of a message in order. -/
theorem Ordered.message_eq (h : l.Ordered) :
    l.message = ⟨listed l.version.value l.type.value (l.body.map Item.field)⟩ := by
  have hversion := h.valid_version.field_eq .beginString h.version
  have htype := h.valid_type.field_eq .msgType h.type
  rw [message, List.map_cons, List.map_cons, hversion, htype]

/-- The fields of a message can be written. -/
theorem Ordered.canonical (h : l.Ordered) :
    Canonical l.version.value l.type.value (l.body.map Item.field) where
  version_writable := ⟨show Tag.beginString ≠ 0 by decide, h.valid_version.value_ne_nil,
    h.valid_version.soh_not_mem⟩
  type_writable := ⟨show Tag.msgType ≠ 0 by decide, h.valid_type.value_ne_nil,
    h.valid_type.soh_not_mem⟩
  rest_isBody := by
    intro f hf
    obtain ⟨i, hi, rfl⟩ := List.mem_map.mp hf
    exact (h.inBody i hi).isBody

/-- Written again, what the length counts does not get longer. -/
theorem Ordered.length_counted_le (h : l.Ordered) :
    (fieldBytes (⟨.msgType, l.type.value⟩ :: l.body.map Item.field)).length ≤
      l.counted.length := by
  have hle : (fieldBytes ((l.type :: l.body).map Item.field)).length ≤ l.counted.length :=
    length_fieldBytes_field_le fun i hi => h.valid i (by
      rcases List.mem_cons.mp hi with rfl | hi <;> simp [items, *])
  rwa [List.map_cons, h.valid_type.field_eq .msgType h.type] at hle

/-- A message without leading zeros whose length and checksum are right is written as it is. -/
theorem Ordered.written_eq (h : l.Ordered) (hn : l.Declares l.counted.length) (hs : l.Sums l.sum)
    (htags : ∀ i ∈ l.items, ¬ Numeral.LeadingZero i.digits)
    (hzero : ¬ Numeral.LeadingZero l.length.value) :
    written l.version.value l.type.value (l.body.map Item.field) = l := by
  have hspelled {i : Item} (tag : Tag) (hi : i ∈ l.items) (htag : i.number = tag.toNat) :
      Item.ofField ⟨tag, i.value⟩ = i := by
    rw [← (h.valid i hi).field_eq tag htag, (h.valid i hi).ofField_field (htags i hi)]
  have hversion := hspelled .beginString (by simp [items]) h.version
  have htype := hspelled .msgType (by simp [items]) h.type
  have hbody : (l.body.map Item.field).map Item.ofField = l.body :=
    map_ofField_field (fun i hi => (h.inBody i hi).toValid)
      fun i hi => htags i (by simp [items, hi])
  have hcounted : fieldBytes (⟨.msgType, l.type.value⟩ :: l.body.map Item.field) = l.counted := by
    rw [← itemBytes_ofField, List.map_cons, htype, hbody]
    rfl
  have hlength : Item.ofField (.ofNat .bodyLength l.counted.length) = l.length := by
    rw [Field.ofNat, ← hn.value,
      Numeral.ofNat_value h.valid_length.value_ne_nil hn.isDigit hzero]
    exact hspelled .bodyLength (by simp [items]) h.length
  have hsummed : Field.bytes ⟨.beginString, l.version.value⟩ ++
      Field.bytes (.ofNat .bodyLength l.counted.length) ++ l.counted = l.summed := by
    rw [← Item.bytes_ofField, hversion, ← Item.bytes_ofField, hlength, summed, itemBytes_cons,
      itemBytes_cons, List.append_assoc]
    rfl
  have hcheckSum : Item.ofField ⟨.checkSum, Checksum.text (Checksum.sum l.summed)⟩ =
      l.checkSum := by
    have hvalue : Numeral.value l.checkSum.value = (Checksum.sum l.summed).toNat := by
      rw [hs.value, toNat_sum]
    rw [← Checksum.eq_text hs.length hs.isDigit hvalue]
    exact hspelled .checkSum (by simp [items]) h.checkSum
  simp only [written, hcounted, hsummed, hversion, htype, hbody, hlength, hcheckSum]

end Layout

/-! ## Reading and writing again -/

/-- Whatever was read can be written, and what is written is read as the same message. The bytes are
the same as before exactly when no tag had leading zeros and neither had the length. The items of
the bytes are the only ones that they consist of. -/
theorem encode_inverts_decode_iff {bs : Bytes} {m : Message} (h : decode none bs = .ok m) :
    ∃ (frame : Bytes) (l : Layout), m.encode = .ok frame ∧ decode none frame = .ok m ∧
      (∀ l' : Layout, l'.bytes = bs ∧ l'.Ordered ↔ l' = l) ∧
      (frame = bs ↔ (∀ i ∈ l.items, ¬ Numeral.LeadingZero i.digits) ∧
        ¬ Numeral.LeadingZero l.length.value) := by
  obtain ⟨l, rfl, hordered, hn, hs, rfl⟩ := decode_eq_ok_iff.mp h
  have hcanonical := hordered.canonical
  have hencode := encode_of_canonical hcanonical
  rw [← Layout.bytes_written] at hencode
  have hwords : (fieldBytes (⟨.msgType, l.type.value⟩ :: l.body.map Item.field)).length < 2 ^ 64 :=
    Nat.lt_of_le_of_lt hordered.length_counted_le hn.lt
  let frame := (Layout.written l.version.value l.type.value (l.body.map Item.field)).bytes
  refine ⟨frame, l, ?_, ?_, ?_, ?_⟩
  · rw [hordered.message_eq]
    exact hencode
  · rw [hordered.message_eq]
    exact (decode_encode_iff hencode).mpr ⟨nofun, hwords, rfl⟩
  · intro l'
    constructor
    · rintro ⟨hbytes, hordered'⟩
      exact hordered'.eq_of_bytes hordered hbytes
    · rintro rfl
      exact ⟨rfl, hordered⟩
  · constructor
    · intro hbytes
      have hwritten := (Layout.ordered_written hcanonical).eq_of_bytes hordered hbytes
      rw [← hwritten]
      exact Layout.shortest_written
    · rintro ⟨htags, hlength⟩
      exact congrArg Layout.bytes (hordered.written_eq hn hs htags hlength)

/-- A message whose tags and length have leading zeros: it is written without them, and then stays
as it is. -/
theorem encode_inverts_decode_iff_padded :
    let padded := Utf8.bytes "08=F\x0109=006\x01035=0\x0110=047\x01"
    let m : Message := ⟨[.ofText .beginString "F", .ofText .msgType "0"]⟩
    decode none padded = .ok m ∧
      ∃ (frame : Bytes) (l l' : Layout), m.encode = .ok frame ∧ decode none frame = .ok m ∧
        frame ≠ padded ∧ l.bytes = padded ∧ l.Ordered ∧
        ¬ ((∀ i ∈ l.items, ¬ Numeral.LeadingZero i.digits) ∧
          ¬ Numeral.LeadingZero l.length.value) ∧
        l'.bytes = frame ∧ l'.Ordered ∧ (∀ i ∈ l'.items, ¬ Numeral.LeadingZero i.digits) ∧
          ¬ Numeral.LeadingZero l'.length.value := by
  intro padded m
  have hpadded : decode none padded = .ok m := eq_ok_of_toOption (by decide +kernel)
  obtain ⟨frame, l, hencode, hdecode, hl, hiff⟩ := encode_inverts_decode_iff hpadded
  have hne : frame ≠ padded := by
    intro hsame
    have hpadded : m.encode.toOption = some padded := by
      rw [hencode, hsame]
      rfl
    exact absurd hpadded (by decide +kernel)
  obtain ⟨frame', l', hencode', _, hl', hiff'⟩ := encode_inverts_decode_iff hdecode
  have hsame : frame' = frame := Except.ok.inj (hencode'.symm.trans hencode)
  obtain ⟨hbytes, hordered⟩ := (hl l).mpr rfl
  obtain ⟨hbytes', hordered'⟩ := (hl' l').mpr rfl
  exact ⟨hpadded, frame, l, l', hencode, hdecode, hne, hbytes, hordered, mt hiff.mpr hne, hbytes',
    hordered', hiff'.mp hsame⟩

end Wire

end FixProtocol
