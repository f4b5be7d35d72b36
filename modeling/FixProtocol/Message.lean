import FixProtocol.Field
import FixProtocol.MsgType

/-!
# Messages

A message is the list of the fields that its maker controls: version, type, and body in order. The
length and the checksum are never among them; they belong to the wire.

- `Message.get?`: the first field with a tag; `Message.set`, `Message.insert`, `Message.remove`.
- `Message.msgType`, `Message.seqNum?`, …: the fields that the session layer reads.
- `Message.withHeader`: a message that starts with its version and type.
-/

namespace FixProtocol

/-- An ordered list of fields. -/
structure Message where
  fields : List Field
deriving DecidableEq, Repr

namespace Message

/-- A message of the given version and type, without a body. -/
def withHeader (beginString : String) (type : MsgType) : Message :=
  ⟨[.ofText .beginString beginString, .ofText .msgType type.code]⟩

/-- Adds a field at the end. -/
def push (m : Message) (f : Field) : Message :=
  ⟨m.fields ++ [f]⟩

/-- Adds fields at the end. -/
def append (m : Message) (fs : List Field) : Message :=
  ⟨m.fields ++ fs⟩

/-- The fields with the first one of the tag of `f` replaced by `f`. -/
def replaceFirst (f : Field) : List Field → List Field
  | [] => []
  | g :: gs => if g.tag = f.tag then f :: gs else g :: replaceFirst f gs

/-- The first field with the given tag. -/
def get? (m : Message) (tag : Tag) : Option Field :=
  m.fields.find? (·.tag = tag)

/-- Replaces the first field of the same tag, or adds the field at the end. -/
def set (m : Message) (f : Field) : Message :=
  if (m.get? f.tag).isSome then ⟨replaceFirst f m.fields⟩ else m.push f

/-- Puts a field before the field at `index`, or at the end. -/
def insert (m : Message) (index : Nat) (f : Field) : Message :=
  ⟨m.fields.take index ++ f :: m.fields.drop index⟩

/-- Removes all fields with the given tag. -/
def remove (m : Message) (tag : Tag) : Message :=
  ⟨m.fields.filter (·.tag ≠ tag)⟩

/-- The first field with the given tag, which must be there. -/
def require (m : Message) (tag : Tag) : Except DecodeError Field :=
  match m.get? tag with
  | some f => .ok f
  | none => .error (.malformedField tag "required field missing")

/-- The first value of a tag, if it can be read. -/
def read? {α : Type} (m : Message) (tag : Tag) (read : Field → Except DecodeError α) : Option α :=
  (m.get? tag).bind fun f => (read f).toOption

/-- The first value of a tag as a text. -/
def text? (m : Message) (tag : Tag) : Option String :=
  m.read? tag Field.text

/-- The first value of a tag as a number of at most 64 bits. -/
def nat64? (m : Message) (tag : Tag) : Option UInt64 :=
  m.read? tag Field.nat64

/-- The first value of a tag as a truth value. -/
def bool? (m : Message) (tag : Tag) : Option Bool :=
  m.read? tag Field.bool

/-- The first value of a tag as a decimal. -/
def decimal? (m : Message) (tag : Tag) : Option Decimal :=
  m.read? tag Field.decimal

/-- The protocol version. -/
def beginString? (m : Message) : Option String :=
  m.text? .beginString

/-- The type; a message without a readable one has the empty code. -/
def msgType (m : Message) : MsgType :=
  match m.text? .msgType with
  | some code => .ofCode code
  | none => .custom ""

/-- The sequence number. -/
def seqNum? (m : Message) : Option SeqNum :=
  m.nat64? .msgSeqNum

/-- Does the message say that it may be a duplicate? -/
def isPossDup (m : Message) : Bool :=
  (m.bool? .possDupFlag).getD false

/-- Does the message say that it stands in for messages that are not sent again? -/
def isGapFill (m : Message) : Bool :=
  (m.bool? .gapFillFlag).getD false

/-- Shows the fields with bars between them. -/
def display (m : Message) : String :=
  "|".intercalate (m.fields.map Field.display)

end Message

end FixProtocol
