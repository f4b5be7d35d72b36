import FixProtocol.Bytes

/-!
# JSON values

- `Json`: a JSON value as far as the forms of this library tell values apart.
- `Json.print`: the compact text, members in the order given.
-/

namespace FixProtocol

/-- A string between quotes, as code points. A code point from the surrogate range stands for an
escape that is half of a pair; `raw` tells that a control character stood there unescaped. Neither
makes a text, but both can stand where bytes are wanted. -/
structure JsonString where
  points : List Nat
  raw : Bool
deriving DecidableEq, Repr

namespace JsonString

/-- The string that holds a text. -/
def ofText (s : String) : JsonString :=
  ⟨s.toList.map Char.toNat, false⟩

/-- Is this half of a surrogate pair? -/
def isSurrogate (n : Nat) : Bool :=
  0xD800 ≤ n && n < 0xE000

/-- The text that a string holds, if it holds one. -/
def text? (s : JsonString) : Option String :=
  if s.raw || s.points.any isSurrogate then none
  else some (String.ofList (s.points.map Char.ofNat))

/-- The bytes of one code point, which may be a surrogate. -/
def bytesOfPoint (n : Nat) : Bytes :=
  let tail (v : Nat) : UInt8 := UInt8.ofNat (128 + v % 64)
  if n < 0x80 then [UInt8.ofNat n]
  else if n < 0x800 then [UInt8.ofNat (192 + n / 64), tail n]
  else if n < 0x10000 then [UInt8.ofNat (224 + n / 4096), tail (n / 64), tail n]
  else [UInt8.ofNat (240 + n / 262144), tail (n / 4096), tail (n / 64), tail n]

/-- The bytes that a string holds. -/
def bytes (s : JsonString) : Bytes :=
  s.points.flatMap bytesOfPoint

end JsonString

/-- A JSON value. Numbers other than natural ones are told apart no further. -/
inductive Json where
  | null
  | bool (b : Bool)
  | natural (n : Nat)
  | number
  | string (s : JsonString)
  | array (elements : List Json)
  | object (members : List (JsonString × Json))

namespace Json

/-- A character as it stands in a JSON string. -/
def escape (c : Char) : String :=
  if c = '"' then "\\\""
  else if c = '\\' then "\\\\"
  else if c = '\x08' then "\\b"
  else if c = '\t' then "\\t"
  else if c = '\n' then "\\n"
  else if c = '\x0c' then "\\f"
  else if c = '\r' then "\\r"
  else if c.toNat < 32 then
    "\\u00" ++ (if c.toNat < 16 then "0" else "1") ++ (Nat.digitChar (c.toNat % 16)).toString
  else c.toString

/-- A text as a JSON string. -/
def quote (s : String) : String :=
  "\"" ++ String.join (s.toList.map escape) ++ "\""

/-- An object with the given members, whose values are printed already. -/
def printObject (members : List (String × String)) : String :=
  "\x7b" ++ ",".intercalate (members.map fun m => quote m.1 ++ ":" ++ m.2) ++ "\x7d"

/-- An array of elements that are printed already. -/
def printArray (elements : List String) : String :=
  "[" ++ ",".intercalate elements ++ "]"

end Json

end FixProtocol
