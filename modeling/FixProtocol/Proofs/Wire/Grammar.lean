import FixProtocol.Proofs.Wire.RoundTrip
import Mathlib.Algebra.GroupWithZero.Nat

/-!
# The grammar of the wire

A message on the wire is a row of items, each a tag in digits and a value: version, length and type
come first and the checksum last. The grammar is said here without the decoder, and the decoder is
shown to accept exactly the byte strings that have it. It says that the length, or the checksum, is
wrong exactly when everything else is right.

- `Wire.Item`: a tag and a value as they stand on the wire; leading zeros are part of the tag.
- `Wire.Layout`: the items of a message, each in its place.
- `Wire.Layout.Ordered`, `Wire.Layout.Declares`, `Wire.Layout.Sums`: what the items must say.
- `Wire.decode_layout`: what the decoder makes of items that are in order.
- `Wire.decode_iff_layout`: what it accepts, and when it finds the length or the checksum wrong.
-/

namespace FixProtocol

namespace Numeral

theorem natural?_eq_some_iff {bs : Bytes} {n : Nat} :
    natural? bs = some n ↔ bs ≠ [] ∧ (∀ b ∈ bs, isDigit b = true) ∧ value bs = n := by
  rw [← List.all_eq_true]
  unfold natural?
  by_cases h : bs ≠ [] ∧ bs.all isDigit = true
  · rw [if_pos h, Option.some.injEq]
    exact ⟨fun hn => ⟨h.1, h.2, hn⟩, fun hn => hn.2.2⟩
  · rw [if_neg h]
    exact iff_of_false nofun fun hn => h ⟨hn.1, hn.2.1⟩

end Numeral

namespace Checksum

/-- The sum of all bytes, as a number. -/
theorem toNat_sum (bs : Bytes) : (sum bs).toNat = (bs.map UInt8.toNat).sum % 256 := by
  induction bs with
  | nil => rfl
  | cons b bs ih =>
    rw [sum_cons, UInt8.toNat_add, ih, List.map_cons, List.sum_cons]
    exact Nat.add_mod_mod ..

theorem parse?_eq_some_iff {bs : Bytes} {s : UInt8} :
    parse? bs = some s ↔
      bs.length = 3 ∧ (∀ b ∈ bs, Numeral.isDigit b = true) ∧ Numeral.value bs = s.toNat := by
  unfold parse?
  by_cases hlength : bs.length = 3
  · have hne : bs ≠ [] := by
      rintro rfl
      cases hlength
    rw [if_pos hlength, Option.bind_eq_some_iff]
    constructor
    · rintro ⟨n, hn, hs⟩
      obtain ⟨_, hdigits, rfl⟩ := Numeral.natural?_eq_some_iff.mp hn
      split at hs
      · next hlt =>
        rw [← Option.some.inj hs, UInt8.toNat_ofNat_of_lt' hlt]
        exact ⟨hlength, hdigits, rfl⟩
      · cases hs
    · rintro ⟨_, hdigits, hvalue⟩
      refine ⟨s.toNat, Numeral.natural?_eq_some_iff.mpr ⟨hne, hdigits, hvalue⟩, ?_⟩
      rw [if_pos s.toNat_lt, UInt8.ofNat_toNat]
  · rw [if_neg hlength]
    exact iff_of_false nofun fun h => hlength h.1

end Checksum

namespace Wire

/-! ## Items -/

/-- A tag in digits and a value, as they stand on the wire. -/
structure Item where
  digits : Bytes
  value : Bytes
deriving DecidableEq, Repr

namespace Item

/-- The number that the digits denote. -/
def number (i : Item) : Nat :=
  Numeral.value i.digits

/-- The field that the item writes. -/
def field (i : Item) : Field :=
  ⟨UInt32.ofNat i.number, i.value⟩

/-- The item on the wire. -/
def bytes (i : Item) : Bytes :=
  i.digits ++ Bytes.equalsSign :: (i.value ++ [Bytes.soh])

/-- The tag is one to ten digits that denote a number from 1 to 4294967295, and the value is neither
empty nor holds the delimiter. -/
structure Valid (i : Item) : Prop where
  digits_ne_nil : i.digits ≠ []
  length_digits : i.digits.length ≤ 10
  isDigit : ∀ d ∈ i.digits, Numeral.isDigit d = true
  number_pos : 1 ≤ i.number
  number_le : i.number ≤ 4294967295
  value_ne_nil : i.value ≠ []
  soh_not_mem : Bytes.soh ∉ i.value

end Item

theorem parseTag?_eq_some_iff {bs : Bytes} {tag : Tag} :
    parseTag? bs = some tag ↔
      bs ≠ [] ∧ bs.length ≤ 10 ∧ (∀ b ∈ bs, Numeral.isDigit b = true) ∧
        1 ≤ Numeral.value bs ∧ Numeral.value bs ≤ 4294967295 ∧
        tag = UInt32.ofNat (Numeral.value bs) := by
  unfold parseTag?
  by_cases hlength : bs.length ≤ 10
  · rw [if_pos hlength, Option.bind_eq_some_iff]
    constructor
    · rintro ⟨n, hn, htag⟩
      obtain ⟨hne, hdigits, rfl⟩ := Numeral.natural?_eq_some_iff.mp hn
      split at htag
      · next hbounds =>
        exact ⟨hne, hlength, hdigits, hbounds.1, Nat.le_of_lt_succ hbounds.2,
          (Option.some.inj htag).symm⟩
      · cases htag
    · rintro ⟨hne, _, hdigits, hpos, hle, rfl⟩
      refine ⟨_, Numeral.natural?_eq_some_iff.mpr ⟨hne, hdigits, rfl⟩, ?_⟩
      rw [if_pos ⟨hpos, Nat.lt_succ_of_le hle⟩]
  · rw [if_neg hlength]
    exact iff_of_false nofun fun h => hlength h.2.1

theorem Item.bytes_append (i : Item) (rest : Bytes) :
    i.bytes ++ rest = i.digits ++ Bytes.equalsSign :: (i.value ++ Bytes.soh :: rest) := by
  simp [Item.bytes]

theorem Item.Valid.equalsSign_not_mem {i : Item} (h : i.Valid) : Bytes.equalsSign ∉ i.digits :=
  (Numeral.not_mem_of_all_isDigit (List.all_eq_true.mpr h.isDigit)).2

theorem Item.Valid.soh_not_mem_digits {i : Item} (h : i.Valid) : Bytes.soh ∉ i.digits :=
  (Numeral.not_mem_of_all_isDigit (List.all_eq_true.mpr h.isDigit)).1

/-- An item in front is read, whatever follows it. -/
theorem takeField_item {i : Item} (h : i.Valid) (rest : Bytes) :
    takeField (i.bytes ++ rest) = .ok (some (i.field, rest)) := by
  rw [i.bytes_append]
  exact takeField_append h.equalsSign_not_mem
    (parseTag?_eq_some_iff.mpr
      ⟨h.digits_ne_nil, h.length_digits, h.isDigit, h.number_pos, h.number_le, rfl⟩)
    h.value_ne_nil h.soh_not_mem rest

/-! ## What the readers make of any bytes -/

/-- Some field is refused for its syntax or its place. -/
def Refuses {α : Type} (x : Except DecodeError α) : Prop :=
  ∃ tag reason, x = .error (.malformedField tag reason)

variable {α β : Type}

theorem Refuses.bind {x : Except DecodeError α} (h : Refuses x) (f : α → Except DecodeError β) :
    Refuses (x >>= f) := by
  obtain ⟨tag, reason, rfl⟩ := h
  exact ⟨tag, reason, rfl⟩

/-- A chain whose first step succeeds refuses when what follows does. -/
theorem Refuses.after {x : Except DecodeError α} {a : α} {f : α → Except DecodeError β}
    (hx : x = .ok a) (h : Refuses (f a)) : Refuses (x >>= f) := by
  rw [hx]
  exact h

/-- Bytes start with an item, are at an end, or are refused. -/
theorem takeField_cases (bs : Bytes) :
    Refuses (takeField bs) ∨ takeField bs = .ok none ∨
      ∃ (i : Item) (rest : Bytes), i.Valid ∧ bs = i.bytes ++ rest := by
  unfold takeField
  by_cases hnil : bs = []
  · rw [if_pos hnil]
    exact .inr (.inl rfl)
  · rw [if_neg hnil]
    cases hequals : bs.cut Bytes.equalsSign with
    | none => exact .inl ⟨_, _, rfl⟩
    | some cut =>
      obtain ⟨digits, afterEquals⟩ := cut
      dsimp only
      cases htag : parseTag? digits with
      | none => exact .inl ⟨_, _, rfl⟩
      | some tag =>
        dsimp only
        cases hsoh : afterEquals.cut Bytes.soh with
        | none => exact .inl ⟨_, _, rfl⟩
        | some cut =>
          obtain ⟨value, rest⟩ := cut
          dsimp only
          by_cases hvalue : value = []
          · rw [if_pos hvalue]
            exact .inl ⟨_, _, rfl⟩
          · obtain ⟨_, rfl⟩ := Bytes.cut_eq_some_iff.mp hequals
            obtain ⟨hfree, rfl⟩ := Bytes.cut_eq_some_iff.mp hsoh
            obtain ⟨hne, hlength, hdigits, hpos, hle, _⟩ := parseTag?_eq_some_iff.mp htag
            refine .inr (.inr ⟨⟨digits, value⟩, rest,
              ⟨hne, hlength, hdigits, hpos, hle, hvalue, hfree⟩, ?_⟩)
            simp [Item.bytes]

/-- The tag of a valid item is the number of its digits. -/
theorem Item.Valid.tag_eq_iff {i : Item} (h : i.Valid) (tag : Tag) :
    i.field.tag = tag ↔ i.number = tag.toNat := by
  have hlt : i.number < UInt32.size := Nat.lt_succ_of_le h.number_le
  rw [← UInt32.toNat_inj, show i.field.tag = UInt32.ofNat i.number from rfl,
    UInt32.toNat_ofNat_of_lt' hlt]

/-- The item with the demanded tag stands in front, or the bytes are refused. -/
theorem expectField_cases (tag : Tag) (reason : String) (bs : Bytes) :
    Refuses (expectField tag reason bs) ∨
      ∃ (i : Item) (rest : Bytes), i.Valid ∧ i.number = tag.toNat ∧ bs = i.bytes ++ rest ∧
        expectField tag reason bs = .ok (i.field, rest) := by
  unfold expectField
  rcases takeField_cases bs with ⟨_, _, hfield⟩ | hfield | ⟨i, rest, hi, rfl⟩
  · rw [hfield]
    exact .inl ⟨_, _, rfl⟩
  · rw [hfield]
    exact .inl ⟨_, _, rfl⟩
  · rw [takeField_item hi]
    dsimp only
    by_cases htag : i.field.tag = tag
    · rw [if_pos htag]
      exact .inr ⟨i, rest, hi, (hi.tag_eq_iff tag).mp htag, rfl, rfl⟩
    · rw [if_neg htag]
      exact .inl ⟨_, _, rfl⟩

/-- The item with the demanded tag is taken off the front. -/
theorem expectField_item {i : Item} (h : i.Valid) (tag : Tag) (htag : i.number = tag.toNat)
    (reason : String) (rest : Bytes) :
    expectField tag reason (i.bytes ++ rest) = .ok (i.field, rest) := by
  rw [expectField, takeField_item h]
  dsimp only
  rw [if_pos ((h.tag_eq_iff tag).mpr htag)]

/-- Items on the wire, one after the other. -/
def itemBytes (items : List Item) : Bytes :=
  items.flatMap Item.bytes

theorem itemBytes_cons (i : Item) (items : List Item) :
    itemBytes (i :: items) = i.bytes ++ itemBytes items :=
  List.flatMap_cons

theorem itemBytes_append (items more : List Item) :
    itemBytes (items ++ more) = itemBytes items ++ itemBytes more :=
  List.flatMap_append

/-- A valid item that may stand between the type and the checksum. -/
structure Item.InBody (i : Item) : Prop extends i.Valid where
  not_reserved : i.number ≠ 8 ∧ i.number ≠ 9 ∧ i.number ≠ 10 ∧ i.number ≠ 35

theorem Item.InBody.isBody {i : Item} (h : i.InBody) : IsBody i.field where
  tag_ne_zero := by
    rw [Ne, h.tag_eq_iff]
    exact Nat.ne_of_gt h.number_pos
  value_ne_nil := h.value_ne_nil
  soh_not_mem := h.soh_not_mem
  tag_ne_beginString := mt (h.tag_eq_iff _).mp h.not_reserved.1
  tag_ne_bodyLength := mt (h.tag_eq_iff _).mp h.not_reserved.2.1
  tag_ne_msgType := mt (h.tag_eq_iff _).mp h.not_reserved.2.2.2
  tag_ne_checkSum := mt (h.tag_eq_iff _).mp h.not_reserved.2.2.1

/-- The items of a body are taken up to the checksum, whatever follows it. -/
theorem takeBody_items {body : List Item} {last : Item} (hbody : ∀ i ∈ body, i.InBody)
    (hlast : last.Valid) (htag : last.number = 10) (rest : Bytes) :
    takeBody (itemBytes body ++ (last.bytes ++ rest)) =
      .ok ⟨body.map Item.field, last.value, last.bytes ++ rest, rest⟩ := by
  induction body with
  | nil => exact takeBody_of_checkSum (takeField_item hlast rest) ((hlast.tag_eq_iff _).mpr htag)
  | cons i body ih =>
    obtain ⟨hi, hbody⟩ := List.forall_mem_cons.mp hbody
    rw [itemBytes_cons, List.append_assoc,
      takeBody_of_isBody (takeField_item hi.toValid _) hi.isBody, ih hbody]
    rfl

theorem takeBody_of_refuses {bs : Bytes} (h : Refuses (takeField bs)) : Refuses (takeBody bs) := by
  obtain ⟨tag, reason, h⟩ := h
  rw [takeBody]
  split
  · next heq => exact ⟨tag, reason, congrArg _ (Except.error.inj (heq.symm.trans h))⟩
  · next heq => rw [h] at heq; cases heq
  · next heq => rw [h] at heq; cases heq

theorem takeBody_of_end {bs : Bytes} (h : takeField bs = .ok none) : Refuses (takeBody bs) := by
  rw [takeBody]
  split
  · next heq => rw [h] at heq; cases heq
  · exact ⟨_, _, rfl⟩
  · next heq => rw [h] at heq; cases heq

/-- The bytes are items up to a checksum, or they are refused. The induction is on how many bytes
there are. -/
theorem takeBody_cases (bs : Bytes) :
    Refuses (takeBody bs) ∨
      ∃ (body : List Item) (last : Item) (rest : Bytes), (∀ i ∈ body, i.InBody) ∧ last.Valid ∧
        last.number = 10 ∧ bs = itemBytes body ++ (last.bytes ++ rest) := by
  induction hlength : bs.length using Nat.strongRecOn generalizing bs with
  | ind n ih =>
    rcases takeField_cases bs with hfield | hfield | ⟨i, rest, hi, rfl⟩
    · exact .inl (takeBody_of_refuses hfield)
    · exact .inl (takeBody_of_end hfield)
    · have hfield := takeField_item hi rest
      by_cases hsum : i.number = 10
      · exact .inr ⟨[], i, rest, by simp, hi, hsum, rfl⟩
      · by_cases hheader : i.number = 8 ∨ i.number = 9 ∨ i.number = 35
        · rw [takeBody_of_takeField hfield, if_neg (mt (hi.tag_eq_iff .checkSum).mp hsum), if_pos]
          · exact .inl ⟨_, _, rfl⟩
          · rw [hi.tag_eq_iff, hi.tag_eq_iff, hi.tag_eq_iff]
            exact hheader
        · rw [not_or, not_or] at hheader
          have hbody : i.InBody := ⟨hi, ⟨hheader.1, hheader.2.1, hsum, hheader.2.2⟩⟩
          have hshorter : rest.length < n := hlength ▸ length_of_takeField hfield
          rcases ih rest.length hshorter rest rfl with
            hrest | ⟨body, last, after, h, hlast, hten, rfl⟩
          · obtain ⟨tag, reason, hrest⟩ := hrest
            rw [takeBody_of_isBody hfield hbody.isBody, hrest]
            exact .inl ⟨tag, reason, rfl⟩
          · refine .inr ⟨i :: body, last, after, List.forall_mem_cons.mpr ⟨hbody, h⟩, hlast, hten,
              ?_⟩
            rw [itemBytes_cons, List.append_assoc]

/-! ## Messages -/

/-- The items of a message, each in its place. -/
structure Layout where
  version : Item
  length : Item
  type : Item
  body : List Item
  checkSum : Item
deriving DecidableEq, Repr

namespace Layout

/-- All items in the order in which they stand. -/
def items (l : Layout) : List Item :=
  l.version :: l.length :: l.type :: (l.body ++ [l.checkSum])

/-- The message on the wire. -/
def bytes (l : Layout) : Bytes :=
  itemBytes l.items

/-- What the length counts: the bytes from the type up to the checksum. -/
def counted (l : Layout) : Bytes :=
  itemBytes (l.type :: l.body)

/-- What the checksum adds up: the bytes before it. -/
def summed (l : Layout) : Bytes :=
  itemBytes (l.version :: l.length :: l.type :: l.body)

/-- The message: all items but the length and the checksum. -/
def message (l : Layout) : Message :=
  ⟨(l.version :: l.type :: l.body).map Item.field⟩

/-- The items are valid, and each has its tag. -/
structure Ordered (l : Layout) : Prop where
  valid : ∀ i ∈ l.items, i.Valid
  version : l.version.number = 8
  length : l.length.number = 9
  type : l.type.number = 35
  checkSum : l.checkSum.number = 10
  body : ∀ i ∈ l.body, i.number ≠ 8 ∧ i.number ≠ 9 ∧ i.number ≠ 10 ∧ i.number ≠ 35

/-- The value of the length is digits that denote `n`, and a word of 64 bits holds it. -/
structure Declares (l : Layout) (n : Nat) : Prop where
  isDigit : ∀ d ∈ l.length.value, Numeral.isDigit d = true
  value : Numeral.value l.length.value = n
  lt : n < 2 ^ 64

/-- The value of the checksum is three digits that denote `n`, and a byte holds it. -/
structure Sums (l : Layout) (n : Nat) : Prop where
  length : l.checkSum.value.length = 3
  isDigit : ∀ d ∈ l.checkSum.value, Numeral.isDigit d = true
  value : Numeral.value l.checkSum.value = n
  le : n ≤ 255

/-- The sum of all bytes before the checksum, modulo 256. -/
def sum (l : Layout) : Nat :=
  (l.summed.map UInt8.toNat).sum % 256

variable {l : Layout} {n : Nat}

theorem bytes_eq (l : Layout) :
    l.bytes = l.version.bytes ++ (l.length.bytes ++ (l.type.bytes ++ (itemBytes l.body ++
      (l.checkSum.bytes ++ [])))) := by
  unfold bytes items
  rw [itemBytes_cons, itemBytes_cons, itemBytes_cons, itemBytes_append, itemBytes_cons]
  rfl

theorem bytes_eq_summed (l : Layout) : l.bytes = l.summed ++ l.checkSum.bytes := by
  unfold bytes items summed
  rw [← List.cons_append, ← List.cons_append, ← List.cons_append, itemBytes_append]
  congr 1
  exact List.append_nil _

theorem toNat_sum (l : Layout) : (Checksum.sum l.summed).toNat = l.sum :=
  Checksum.toNat_sum l.summed

theorem Ordered.valid_version (h : l.Ordered) : l.version.Valid :=
  h.valid l.version (by simp [items])

theorem Ordered.valid_length (h : l.Ordered) : l.length.Valid :=
  h.valid l.length (by simp [items])

theorem Ordered.valid_type (h : l.Ordered) : l.type.Valid :=
  h.valid l.type (by simp [items])

theorem Ordered.valid_checkSum (h : l.Ordered) : l.checkSum.Valid :=
  h.valid l.checkSum (by simp [items])

theorem Ordered.inBody (h : l.Ordered) : ∀ i ∈ l.body, i.InBody := by
  intro i hi
  have hmem : i ∈ l.items := by simp [items, hi]
  exact ⟨h.valid i hmem, h.body i hi⟩

end Layout

/-! ## Decoding -/

theorem declaredLength_eq_ok_iff {value : Bytes} {n : Nat} :
    declaredLength value = .ok n ↔
      value ≠ [] ∧ (∀ d ∈ value, Numeral.isDigit d = true) ∧ Numeral.value value = n ∧
        n < 2 ^ 64 := by
  have hparse : parseLength? value = some n ↔ Numeral.natural? value = some n ∧ n < 2 ^ 64 := by
    rw [parseLength?, Numeral.naturalUpTo?_eq, Option.filter_eq_some_iff, decide_eq_true_iff]
    exact and_congr_right fun _ => (Nat.lt_iff_le_pred (by decide)).symm
  have hdeclared : declaredLength value = .ok n ↔ parseLength? value = some n := by
    unfold declaredLength
    cases parseLength? value with
    | none => exact iff_of_false nofun nofun
    | some m =>
      exact ⟨fun h => congrArg some (Except.ok.inj h), fun h => congrArg _ (Option.some.inj h)⟩
  rw [hdeclared, hparse, Numeral.natural?_eq_some_iff, and_assoc, and_assoc]

theorem declaredLength_cases (value : Bytes) :
    Refuses (declaredLength value) ∨ ∃ n, declaredLength value = .ok n := by
  unfold declaredLength
  cases parseLength? value with
  | none => exact .inl ⟨_, _, rfl⟩
  | some n => exact .inr ⟨n, rfl⟩

/-- Of items that are in order and declare a length, only the length and the checksum are checked,
the length first. -/
theorem decode_layout {l : Layout} {n : Nat} (h : l.Ordered) (hn : l.Declares n) :
    decode none l.bytes = do
      checkLength n l.counted.length
      checkChecksum (Checksum.sum l.summed) l.checkSum.value
      return l.message := by
  rw [l.bytes_eq, decode_of_fields
    (expectField_item h.valid_version .beginString h.version _ _)
    (expectField_item h.valid_length .bodyLength h.length _ _)
    (expectField_item h.valid_type .msgType h.type _ _)
    (takeBody_items h.inBody h.valid_checkSum h.checkSum [])]
  have hdeclared : declaredLength l.length.field.value = .ok n :=
    declaredLength_eq_ok_iff.mpr ⟨h.valid_length.value_ne_nil, hn.isDigit, hn.value, hn.lt⟩
  rw [hdeclared]
  dsimp only
  have hcounted : (l.type.bytes ++ (itemBytes l.body ++ (l.checkSum.bytes ++ []))).length -
      (l.checkSum.bytes ++ []).length = l.counted.length := by
    rw [← List.append_assoc, List.length_append, Nat.add_sub_cancel, Layout.counted, itemBytes_cons]
  have hsummed : (l.bytes.take (l.bytes.length - (l.checkSum.bytes ++ []).length)) = l.summed := by
    rw [List.append_nil, l.bytes_eq_summed, List.length_append, Nat.add_sub_cancel, List.take_left]
  rw [hcounted, ← l.bytes_eq, hsummed]
  rfl

/-- The bytes are items in order that declare a length, or they are refused. -/
theorem decode_cases (bs : Bytes) :
    Refuses (decode none bs) ∨
      ∃ (l : Layout) (n : Nat), l.bytes = bs ∧ l.Ordered ∧ l.Declares n := by
  unfold decode
  rcases expectField_cases .beginString "BeginString must be first" bs with
    h₁ | ⟨version, afterVersion, hversion, hversionTag, rfl, h₁⟩
  · exact .inl (h₁.bind _)
  rcases expectField_cases .bodyLength "BodyLength must be second" afterVersion with
    h₂ | ⟨length, afterLength, hlength, hlengthTag, rfl, h₂⟩
  · exact .inl (.after h₁ (.after rfl (h₂.bind _)))
  rcases declaredLength_cases length.value with h₃ | ⟨n, h₃⟩
  · exact .inl (.after h₁ (.after rfl (.after h₂ (h₃.bind _))))
  rcases expectField_cases .msgType "MsgType must be third" afterLength with
    h₄ | ⟨type, afterType, htype, htypeTag, rfl, h₄⟩
  · exact .inl (.after h₁ (.after rfl (.after h₂ (.after h₃ (h₄.bind _)))))
  rcases takeBody_cases afterType with h₅ | ⟨body, last, rest, hbody, hlast, hlastTag, rfl⟩
  · exact .inl (.after h₁ (.after rfl (.after h₂ (.after h₃ (.after h₄ (h₅.bind _))))))
  by_cases hrest : rest = []
  · subst hrest
    obtain ⟨_, hdigits, hvalue, hlt⟩ := declaredLength_eq_ok_iff.mp h₃
    refine .inr ⟨⟨version, length, type, body, last⟩, n, Layout.bytes_eq _, ?_,
      ⟨hdigits, hvalue, hlt⟩⟩
    refine ⟨?_, hversionTag, hlengthTag, htypeTag, hlastTag, fun i hi => (hbody i hi).not_reserved⟩
    intro i hi
    simp only [Layout.items, List.mem_cons, List.mem_append, List.not_mem_nil, or_false] at hi
    rcases hi with rfl | rfl | rfl | hi | rfl
    · exact hversion
    · exact hlength
    · exact htype
    · exact (hbody i hi).toValid
    · exact hlast
  · have hend : Refuses (checkEnd rest) := by
      rw [checkEnd, if_neg hrest]
      exact ⟨_, _, rfl⟩
    have h₅ := takeBody_items hbody hlast hlastTag rest
    exact .inl (.after h₁ (.after rfl (.after h₂ (.after h₃ (.after h₄
      (.after h₅ (hend.bind _)))))))

/-- A length that is wrong is reported as such, whatever the checksum says. -/
theorem decode_layout_of_length_ne {l : Layout} {n : Nat} (h : l.Ordered) (hn : l.Declares n)
    (hlength : l.counted.length ≠ n) :
    decode none l.bytes = .error (.bodyLengthMismatch n l.counted.length) := by
  rw [decode_layout h hn, checkLength, if_neg hlength]
  rfl

/-- When the length is right, a checksum that is a number of three digits decides. -/
theorem decode_layout_of_sums {l : Layout} {s : UInt8} (h : l.Ordered)
    (hn : l.Declares l.counted.length) (hs : l.Sums s.toNat) :
    decode none l.bytes =
      if Checksum.sum l.summed = s then .ok l.message
      else .error (.checksumMismatch (Checksum.sum l.summed) s) := by
  have hparse : Checksum.parse? l.checkSum.value = some s :=
    Checksum.parse?_eq_some_iff.mpr ⟨hs.length, hs.isDigit, hs.value⟩
  rw [decode_layout h hn, checkLength, if_pos rfl, checkChecksum, hparse]
  dsimp only
  by_cases hsum : Checksum.sum l.summed = s
  · rw [if_pos hsum, if_pos hsum]
    rfl
  · rw [if_neg hsum, if_neg hsum]
    rfl

/-- What the decoder answers on items that are in order: the length is wrong, the checksum is no
number of three digits, or the checksum decides. -/
theorem decode_layout_cases {l : Layout} {n : Nat} (h : l.Ordered) (hn : l.Declares n) :
    (l.counted.length ≠ n ∧
        decode none l.bytes = .error (.bodyLengthMismatch n l.counted.length)) ∨
      Refuses (decode none l.bytes) ∨ l.counted.length = n ∧ ∃ s : UInt8, l.Sums s.toNat := by
  by_cases hlength : l.counted.length = n
  · cases hparse : Checksum.parse? l.checkSum.value with
    | none =>
      refine .inr (.inl ?_)
      rw [decode_layout h hn, checkLength, if_pos hlength, checkChecksum, hparse]
      exact ⟨_, _, rfl⟩
    | some s =>
      obtain ⟨hthree, hdigits, hvalue⟩ := Checksum.parse?_eq_some_iff.mp hparse
      exact .inr (.inr ⟨hlength, s, hthree, hdigits, hvalue, Nat.le_of_lt_succ s.toNat_lt⟩)
  · exact .inl ⟨hlength, decode_layout_of_length_ne h hn hlength⟩

/-- An answer other than a refusal is about items in order, whose length and checksum decide. -/
theorem exists_layout {bs : Bytes} {answer : Except DecodeError Message}
    (hanswer : decode none bs = answer) (hrefused : ¬ Refuses answer) :
    ∃ (l : Layout) (n : Nat), l.bytes = bs ∧ l.Ordered ∧ l.Declares n ∧
      ((l.counted.length ≠ n ∧ answer = .error (.bodyLengthMismatch n l.counted.length)) ∨
        l.counted.length = n ∧ ∃ s : UInt8, l.Sums s.toNat ∧
          answer = if Checksum.sum l.summed = s then .ok l.message
            else .error (.checksumMismatch (Checksum.sum l.summed) s)) := by
  subst hanswer
  rcases decode_cases bs with hbs | ⟨l, n, rfl, hordered, hn⟩
  · exact absurd hbs hrefused
  · refine ⟨l, n, rfl, hordered, hn, ?_⟩
    rcases decode_layout_cases hordered hn with hlength | hbs | ⟨rfl, s, hs⟩
    · exact .inl hlength
    · exact absurd hbs hrefused
    · exact .inr ⟨rfl, s, hs, decode_layout_of_sums hordered hn hs⟩

theorem decode_eq_ok_iff {bs : Bytes} {m : Message} :
    decode none bs = .ok m ↔
      ∃ l : Layout, l.bytes = bs ∧ l.Ordered ∧ l.Declares l.counted.length ∧ l.Sums l.sum ∧
        m = l.message := by
  constructor
  · intro h
    obtain ⟨l, n, hbytes, hordered, hn, ⟨_, hl⟩ | ⟨rfl, s, hs, hl⟩⟩ := exists_layout h nofun
    · cases hl
    · split at hl
      · next heq =>
        cases hl
        rw [← heq, l.toNat_sum] at hs
        exact ⟨l, hbytes, hordered, hn, hs, rfl⟩
      · cases hl
  · rintro ⟨l, rfl, hordered, hn, hs, rfl⟩
    rw [← l.toNat_sum] at hs
    rw [decode_layout_of_sums hordered hn hs, if_pos rfl]

theorem decode_eq_bodyLengthMismatch_iff {bs : Bytes} {declared actual : Nat} :
    decode none bs = .error (.bodyLengthMismatch declared actual) ↔
      ∃ l : Layout, l.bytes = bs ∧ l.Ordered ∧ l.Declares declared ∧
        actual = l.counted.length ∧ actual ≠ declared := by
  constructor
  · intro h
    obtain ⟨l, n, hbytes, hordered, hn, ⟨hlength, hl⟩ | ⟨rfl, s, hs, hl⟩⟩ := exists_layout h nofun
    · cases hl
      exact ⟨l, hbytes, hordered, hn, rfl, hlength⟩
    · split at hl
      · cases hl
      · cases hl
  · rintro ⟨l, rfl, hordered, hn, rfl, hlength⟩
    exact decode_layout_of_length_ne hordered hn hlength

theorem decode_eq_checksumMismatch_iff {bs : Bytes} {calculated declared : UInt8} :
    decode none bs = .error (.checksumMismatch calculated declared) ↔
      ∃ l : Layout, l.bytes = bs ∧ l.Ordered ∧ l.Declares l.counted.length ∧
        l.Sums declared.toNat ∧ calculated.toNat = l.sum ∧ calculated ≠ declared := by
  constructor
  · intro h
    obtain ⟨l, n, hbytes, hordered, hn, ⟨_, hl⟩ | ⟨rfl, s, hs, hl⟩⟩ := exists_layout h nofun
    · cases hl
    · split at hl
      · cases hl
      · next hne =>
        cases hl
        exact ⟨l, hbytes, hordered, hn, hs, l.toNat_sum, hne⟩
  · rintro ⟨l, rfl, hordered, hn, hs, hcalculated, hne⟩
    obtain rfl : calculated = Checksum.sum l.summed :=
      UInt8.toNat_inj.mp (hcalculated.trans l.toNat_sum.symm)
    rw [decode_layout_of_sums hordered hn hs, if_neg hne]

/-- The decoder accepts exactly the byte strings that are items in order with the right length and
the right checksum, and gives the items without these two. It finds the length wrong exactly when
the items are in order and declare another one, whatever the checksum says, and the checksum wrong
exactly when all else is right and it is another number of three digits. -/
theorem decode_iff_layout (bs : Bytes) :
    (∀ m, decode none bs = .ok m ↔
        ∃ l : Layout, l.bytes = bs ∧ l.Ordered ∧ l.Declares l.counted.length ∧ l.Sums l.sum ∧
          m = l.message) ∧
      (∀ declared actual, decode none bs = .error (.bodyLengthMismatch declared actual) ↔
        ∃ l : Layout, l.bytes = bs ∧ l.Ordered ∧ l.Declares declared ∧
          actual = l.counted.length ∧ actual ≠ declared) ∧
      ∀ calculated declared, decode none bs = .error (.checksumMismatch calculated declared) ↔
        ∃ l : Layout, l.bytes = bs ∧ l.Ordered ∧ l.Declares l.counted.length ∧
          l.Sums declared.toNat ∧ calculated.toNat = l.sum ∧ calculated ≠ declared :=
  ⟨fun _ => decode_eq_ok_iff, fun _ _ => decode_eq_bodyLengthMismatch_iff,
    fun _ _ => decode_eq_checksumMismatch_iff⟩

/-- Tags and the length may have leading zeros. -/
example : (decode none (Utf8.bytes "08=F\x0109=006\x01035=0\x0110=047\x01")).toOption =
    some ⟨[.ofText .beginString "F", .ofText .msgType "0"]⟩ := by
  decide +kernel

end Wire

end FixProtocol
