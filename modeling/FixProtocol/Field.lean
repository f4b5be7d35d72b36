import FixProtocol.Clock.Timestamp
import FixProtocol.Decimal
import FixProtocol.Error
import FixProtocol.Text.Utf8

/-!
# Fields

- `Field`: a tag and a value of any bytes.
- `Field.ofText`, `Field.ofNat`, `Field.ofBool`, `Field.ofDecimal`, `Field.ofTimestamp`: values
  written.
- `Field.text`, `Field.nat64`, `Field.bool`, `Field.decimal`, …: values read, or the reason why
  not.
-/

namespace FixProtocol

/-- A tag and a value. -/
structure Field where
  tag : Tag
  value : Bytes
deriving DecidableEq, Repr

namespace Field

/-! ## Writing -/

/-- A field that holds a text. -/
def ofText (tag : Tag) (s : String) : Field :=
  ⟨tag, Utf8.bytes s⟩

/-- A field that holds a natural number. -/
def ofNat (tag : Tag) (n : Nat) : Field :=
  ⟨tag, Numeral.ofNat n⟩

/-- A field that holds a sequence number. -/
def ofSeqNum (tag : Tag) (n : SeqNum) : Field :=
  ofNat tag n.toNat

/-- A field that holds a truth value, `Y` or `N`. -/
def ofBool (tag : Tag) (b : Bool) : Field :=
  ⟨tag, [if b then 89 else 78]⟩

/-- A field that holds a decimal with as few places as it needs. -/
def ofDecimal (tag : Tag) (d : Decimal) : Field :=
  ⟨tag, d.normalize.text⟩

/-- A field that holds a time. -/
def ofTimestamp (tag : Tag) (t : Timestamp) : Field :=
  ⟨tag, t.text⟩

/-! ## Reading -/

/-- The value as a text. -/
def text (f : Field) : Except DecodeError String :=
  match Utf8.text? f.value with
  | some s => .ok s
  | none => .error (.malformedField f.tag "value is not valid utf-8")

/-- The value as something else, which an error calls `kind`. A value that is no text is refused as
such. -/
def read {α : Type} (f : Field) (kind : String) (parse? : Bytes → Option α) :
    Except DecodeError α := do
  let s ← f.text
  match parse? f.value with
  | some a => .ok a
  | none => .error (.malformedField f.tag s!"failed to parse '{s}' as {kind}")

/-- The value as a number of at most 64 bits. -/
def nat64 (f : Field) : Except DecodeError UInt64 :=
  f.read "u64" fun bs => (Numeral.unsigned? (UInt64.size - 1) bs).map UInt64.ofNat

/-- The value as a number of at most 32 bits. -/
def nat32 (f : Field) : Except DecodeError Nat :=
  f.read "u32" (Numeral.unsigned? (UInt32.size - 1))

/-- The value as a number of at most 8 bits. -/
def nat8 (f : Field) : Except DecodeError Nat :=
  f.read "u8" (Numeral.unsigned? (UInt8.size - 1))

/-- The value as a number of 64 bits with a sign. -/
def int64 (f : Field) : Except DecodeError Int :=
  f.read "i64" (Numeral.integer? 64)

/-- The value as a single character. -/
def char (f : Field) : Except DecodeError Char :=
  f.read "char" fun bs =>
    match (Utf8.text? bs).map String.toList with
    | some [c] => some c
    | _ => none

/-- The value as a decimal. -/
def decimal (f : Field) : Except DecodeError Decimal :=
  f.read "rust_decimal::decimal::Decimal" Decimal.parse?

/-- The value as a truth value. -/
def bool (f : Field) : Except DecodeError Bool :=
  match f.value with
  | [89] => .ok true
  | [78] => .ok false
  | _ => .error (.malformedField f.tag "expected 'Y' or 'N'")

/-- Shows a field as `tag=value`. -/
def display (f : Field) : String :=
  toString f.tag ++ "=" ++ Utf8.lossy f.value

end Field

end FixProtocol
