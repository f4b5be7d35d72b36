import FixProtocol.Wire.Encode

/-!
# Decoding

Decoding takes a byte string apart into fields, checks their order, and then the length and the
checksum.

- `Wire.takeField`: the first field of a byte string and what follows it.
- `Wire.fields?`: the fields of a byte string that consists of fields.
- `Wire.decode`: the message that a byte string writes, or why it writes none.
- `FieldReader`: reads the fields of a byte string one by one and knows how far it came.
-/

namespace FixProtocol

namespace Wire

/-- The number that a tag of one to ten digits denotes, if it is a tag. -/
def parseTag? (bs : Bytes) : Option Tag :=
  if bs.length ≤ 10 then
    (Numeral.natural? bs).bind fun n =>
      if 0 < n ∧ n < UInt32.size then some (UInt32.ofNat n) else none
  else none

/-- The number that a length denotes, if a 64-bit word holds it. -/
def parseLength? (bs : Bytes) : Option Nat :=
  Numeral.naturalUpTo? (UInt64.size - 1) bs

/-- The first field and what follows it; `none` at the end of the input. -/
def takeField (bs : Bytes) : Except DecodeError (Option (Field × Bytes)) :=
  if bs = [] then .ok none
  else
    match bs.cut Bytes.equalsSign with
    | none => .error (.malformedField 0 "field without '=' separator")
    | some (digits, rest) =>
      match parseTag? digits with
      | none => .error (.malformedField 0 "tag is not a positive integer")
      | some tag =>
        match rest.cut Bytes.soh with
        | none => .error (.malformedField tag "value not terminated by SOH")
        | some (value, rest) =>
          if value = [] then .error (.malformedField tag "empty value")
          else .ok (some (⟨tag, value⟩, rest))

/-- A field is taken off the front together with its two delimiters. -/
theorem length_of_takeField {bs rest : Bytes} {f : Field}
    (h : takeField bs = .ok (some (f, rest))) : rest.length < bs.length := by
  unfold takeField at h
  split at h
  · simp at h
  · split at h
    · simp at h
    · next digits r₁ h₁ =>
      split at h
      · simp at h
      · split at h
        · simp at h
        · next value r₂ h₂ =>
          split at h
          · simp at h
          · have h₁ := Bytes.length_of_cut h₁
            have h₂ := Bytes.length_of_cut h₂
            simp only [Except.ok.injEq, Option.some.injEq, Prod.mk.injEq] at h
            rw [h₁, ← h.2]
            omega

/-- The fields of a byte string that consists of fields. -/
def fields? (bs : Bytes) : Option (List Field) :=
  match h : takeField bs with
  | .error _ => none
  | .ok none => some []
  | .ok (some (f, rest)) =>
    have := length_of_takeField h
    (fields? rest).map (f :: ·)
termination_by bs.length

/-- The first field, which must have the given tag, and what follows it. -/
def expectField (tag : Tag) (reason : String) (bs : Bytes) : Except DecodeError (Field × Bytes) :=
  match takeField bs with
  | .error e => .error e
  | .ok none => .error (.malformedField tag reason)
  | .ok (some (f, rest)) =>
    if f.tag = tag then .ok (f, rest) else .error (.malformedField tag reason)

/-- What stands between the type and the end of a message. -/
structure Body where
  /-- The fields before the checksum. -/
  fields : List Field
  /-- The value of the checksum field. -/
  checksum : Bytes
  /-- The bytes from the checksum field on. -/
  trailer : Bytes
  /-- The bytes after the checksum field. -/
  rest : Bytes

/-- Takes fields up to the checksum. -/
def takeBody (bs : Bytes) : Except DecodeError Body :=
  match h : takeField bs with
  | .error e => .error e
  | .ok none => .error (.malformedField .checkSum "CheckSum missing")
  | .ok (some (f, rest)) =>
    have := length_of_takeField h
    if f.tag = .checkSum then .ok ⟨[], f.value, bs, rest⟩
    else if f.tag = .beginString ∨ f.tag = .bodyLength ∨ f.tag = .msgType then
      .error (.malformedField f.tag "header field repeated")
    else do
      let body ← takeBody rest
      return { body with fields := f :: body.fields }
termination_by bs.length

/-- The version must be the expected one, if one is expected. -/
def checkVersion (expected : Option Bytes) (found : Bytes) : Except DecodeError Unit :=
  match expected with
  | none => .ok ()
  | some version =>
    if found = version then .ok ()
    else
      let wanted := Utf8.lossy version
      let shown := Utf8.lossy found
      .error (.malformedField .beginString s!"expected {wanted}, found {shown}")

/-- The length that the second field declares. -/
def declaredLength (value : Bytes) : Except DecodeError Nat :=
  match parseLength? value with
  | some n => .ok n
  | none => .error (.malformedField .bodyLength "BodyLength must be a decimal number")

/-- Nothing may follow the checksum. -/
def checkEnd (rest : Bytes) : Except DecodeError Unit :=
  if rest = [] then .ok ()
  else .error (.malformedField .checkSum "trailing bytes after CheckSum")

/-- The declared length must be the actual one. -/
def checkLength (declared actual : Nat) : Except DecodeError Unit :=
  if actual = declared then .ok () else .error (.bodyLengthMismatch declared actual)

/-- The value of the checksum field must be three digits that give the calculated sum. -/
def checkChecksum (calculated : UInt8) (value : Bytes) : Except DecodeError Unit :=
  match Checksum.parse? value with
  | none => .error (.malformedField .checkSum "CheckSum must be three digits")
  | some declared =>
    if calculated = declared then .ok () else .error (.checksumMismatch calculated declared)

/-- The message that a byte string writes. If `version` is given the message must have it. The order
of the fields is checked first, then the length, then the checksum. -/
def decode (version : Option Bytes) (bs : Bytes) : Except DecodeError Message := do
  let (begun, afterVersion) ← expectField .beginString "BeginString must be first" bs
  checkVersion version begun.value
  let (length, afterLength) ← expectField .bodyLength "BodyLength must be second" afterVersion
  let declared ← declaredLength length.value
  let (type, afterType) ← expectField .msgType "MsgType must be third" afterLength
  let body ← takeBody afterType
  -- The length counts from the type up to the checksum.
  checkEnd body.rest
  checkLength declared (afterLength.length - body.trailer.length)
  checkChecksum (Checksum.sum (bs.take (bs.length - body.trailer.length))) body.checksum
  return ⟨begun :: type :: body.fields⟩

end Wire

/-- The message of the given version that a byte string writes. -/
def Message.decode (version : String) (bs : Bytes) : Except DecodeError Message :=
  Wire.decode (some (Utf8.bytes version)) bs

/-- Reads the fields of a byte string one by one. -/
structure FieldReader where
  /-- How many bytes were read. -/
  offset : Nat
  /-- The bytes that were not read yet. -/
  rest : Bytes
deriving DecidableEq, Repr

namespace FieldReader

/-- A reader at the start of a byte string. -/
def ofBytes (bs : Bytes) : FieldReader :=
  ⟨0, bs⟩

/-- The bytes of the tag at the reader. -/
def tagText (r : FieldReader) : Bytes :=
  r.rest.takeWhile (· != Bytes.equalsSign)

/-- The next field, or `none` at the end. The reader moves on only past a field: its tag, its
value, and the two delimiters. -/
def next (r : FieldReader) : Except DecodeError (Option Field) × FieldReader :=
  match Wire.takeField r.rest with
  | .error e => (.error e, r)
  | .ok none => (.ok none, r)
  | .ok (some (f, rest)) =>
    (.ok (some f), ⟨r.offset + (r.tagText.length + 1 + f.value.length + 1), rest⟩)

end FieldReader

end FixProtocol
