import FixProtocol.Bytes

/-!
# UTF-8

Names and reasons are text, and text travels as UTF-8. A byte string that is no UTF-8 can still be
shown: each longest run of bytes that starts a character and does not end one becomes one
replacement character.

- `Utf8.bytes s`: the bytes of a text.
- `Utf8.units bs`: the characters of a byte string, with `none` for each broken run.
- `Utf8.text? bs`, `Utf8.lossy bs`: the two readings, strict and with replacement characters.
-/

namespace FixProtocol.Utf8

/-- The bytes of one character. -/
def bytesOfChar (c : Char) : Bytes :=
  let v := c.toNat
  let tail (n : Nat) : UInt8 := UInt8.ofNat (128 + n % 64)
  if v < 128 then [UInt8.ofNat v]
  else if v < 2048 then [UInt8.ofNat (192 + v / 64), tail v]
  else if v < 65536 then [UInt8.ofNat (224 + v / 4096), tail (v / 64), tail v]
  else [UInt8.ofNat (240 + v / 262144), tail (v / 4096), tail (v / 64), tail v]

/-- The bytes of a text. -/
def bytes (s : String) : Bytes :=
  s.toList.flatMap bytesOfChar

/-- A character of which the first bytes were read: how many bytes are owed, between which two
bytes the next one must lie, and the value of the bits so far. -/
structure Begun where
  owed : Nat
  low : UInt8
  high : UInt8
  value : Nat
deriving DecidableEq

/-- What a reading has come to: the character that was begun, and the units read, last one first. -/
structure Reading where
  begun : Option Begun
  units : List (Option Char)
deriving DecidableEq

/-- Reads a byte where a character starts. A byte that starts none is a broken run of its own. -/
def Reading.start (units : List (Option Char)) (b : UInt8) : Reading :=
  let n := b.toNat
  if n < 128 then ⟨none, some (Char.ofNat n) :: units⟩
  else if n < 194 then ⟨none, none :: units⟩
  else if n < 224 then ⟨some ⟨1, 128, 191, n - 192⟩, units⟩
  else if n = 224 then ⟨some ⟨2, 160, 191, 0⟩, units⟩
  else if n = 237 then ⟨some ⟨2, 128, 159, 13⟩, units⟩
  else if n < 240 then ⟨some ⟨2, 128, 191, n - 224⟩, units⟩
  else if n = 240 then ⟨some ⟨3, 144, 191, 0⟩, units⟩
  else if n < 244 then ⟨some ⟨3, 128, 191, n - 240⟩, units⟩
  else if n = 244 then ⟨some ⟨3, 128, 143, 4⟩, units⟩
  else ⟨none, none :: units⟩

/-- Reads one byte. A byte that cannot continue what was begun breaks it off and starts anew. -/
def Reading.next (r : Reading) (b : UInt8) : Reading :=
  match r.begun with
  | none => .start r.units b
  | some p =>
    if p.low ≤ b ∧ b ≤ p.high then
      let value := p.value * 64 + (b.toNat - 128)
      if p.owed = 1 then ⟨none, some (Char.ofNat value) :: r.units⟩
      else ⟨some ⟨p.owed - 1, 128, 191, value⟩, r.units⟩
    else .start (none :: r.units) b

/-- The units at the end of the input, where a character that is still begun is broken. -/
def Reading.finish (r : Reading) : List (Option Char) :=
  match r.begun with
  | none => r.units.reverse
  | some _ => (none :: r.units).reverse

/-- The characters of a byte string, with `none` for each broken run. -/
def units (bs : Bytes) : List (Option Char) :=
  (bs.foldl Reading.next ⟨none, []⟩).finish

/-- The text that a byte string writes, if it is UTF-8 throughout. -/
def text? (bs : Bytes) : Option String :=
  let us := units bs
  if us.all Option.isSome then some (String.ofList (us.filterMap id)) else none

/-- The text that a byte string writes, with a replacement character for each broken run. -/
def lossy (bs : Bytes) : String :=
  String.ofList ((units bs).map (·.getD '\uFFFD'))

end FixProtocol.Utf8
