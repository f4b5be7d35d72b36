import FixProtocol.Message
import FixProtocol.Wire.Checksum

/-!
# Encoding

A message goes out as version, length, type, the other fields in order, and checksum. Each field is
written `tag=value` and ended by a delimiter, so a value may not be empty and may not hold one.

- `Field.bytes`: one field on the wire.
- `Wire.frame`: the wire form of a version, a type and a body.
- `Wire.encode`: the wire form of a list of fields, or the first reason why it has none.
-/

namespace FixProtocol

/-- One field on the wire. -/
def Field.bytes (f : Field) : Bytes :=
  Numeral.ofNat f.tag.toNat ++ Bytes.equalsSign :: (f.value ++ [Bytes.soh])

namespace Wire

/-- Fields on the wire, one after the other. -/
def fieldBytes (fs : List Field) : Bytes :=
  fs.flatMap Field.bytes

/-- Ends a message with the checksum of all that stands before. -/
def withChecksum (bs : Bytes) : Bytes :=
  bs ++ Field.bytes ⟨.checkSum, Checksum.text (Checksum.sum bs)⟩

/-- The wire form of the message with the given version whose other fields, the type first, are
written as `body`. -/
def frame (version body : Bytes) : Bytes :=
  withChecksum
    (Field.bytes ⟨.beginString, version⟩ ++ Field.bytes (.ofNat .bodyLength body.length) ++ body)

/-- May this field be written? Tag zero does not exist, length and checksum are computed here, and a
value is neither empty nor holds the delimiter. -/
def checkField (f : Field) : Except EncodeError Unit :=
  if f.tag = 0 then .error (.invalidFieldValue 0 "tag numbers start at 1")
  else if f.tag = .bodyLength ∨ f.tag = .checkSum then .error (.reservedTag f.tag)
  else if f.value = [] then .error (.invalidFieldValue f.tag "empty value")
  else if Bytes.soh ∈ f.value then .error (.delimiterInValue f.tag)
  else .ok ()

/-- Is this one of the two fields that a message has exactly once? -/
def isHeader (f : Field) : Bool :=
  f.tag = .beginString || f.tag = .msgType

/-- Checks each field in order; `seen` are the header fields before it. -/
def checkFields (seen : List Tag) : List Field → Except EncodeError Unit
  | [] => .ok ()
  | f :: fs => do
    checkField f
    if isHeader f then
      if f.tag ∈ seen then throw (.invalidFieldValue f.tag "field supplied more than once")
      checkFields (f.tag :: seen) fs
    else checkFields seen fs

/-- The value of the first field with the given tag, which a message must have. -/
def requireValue (fs : List Field) (tag : Tag) : Except EncodeError Bytes :=
  match fs.find? (·.tag = tag) with
  | some f => .ok f.value
  | none => .error (.missingRequiredField tag)

/-- The wire form of a list of fields. Faults of single fields come first, in the order of the
fields; then a missing version, then a missing type. -/
def encode (fs : List Field) : Except EncodeError Bytes := do
  checkFields [] fs
  let version ← requireValue fs .beginString
  let type ← requireValue fs .msgType
  return frame version (fieldBytes (⟨.msgType, type⟩ :: fs.filter (!isHeader ·)))

end Wire

/-- The wire form of a message. -/
def Message.encode (m : Message) : Except EncodeError Bytes :=
  Wire.encode m.fields

end FixProtocol
