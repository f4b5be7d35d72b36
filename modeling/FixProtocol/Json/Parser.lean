import FixProtocol.Json.Basic

/-!
# Reading JSON

- `Json.parse?`: the value that a text writes, if it writes exactly one.

Each reader takes the front of a list of characters and answers with what it read and the rest.
-/

namespace FixProtocol.Json

/-- Skips blanks. -/
def skipBlanks (cs : List Char) : List Char :=
  cs.dropWhile fun c => c = ' ' || c = '\t' || c = '\n' || c = '\r'

/-! ## Numbers -/

/-- A digit run, which must not be empty. -/
def digits? (cs : List Char) : Option (List Char × List Char) :=
  match cs.span Char.isDigit with
  | ([], _) => none
  | (ds, rest) => some (ds, rest)

/-- The whole part of a number: zero, or digits that do not start with zero. -/
def whole? : List Char → Option (List Char × List Char)
  | '0' :: rest =>
    match rest with
    | c :: _ => if c.isDigit then none else some (['0'], rest)
    | [] => some (['0'], [])
  | cs => digits? cs

/-- The fraction of a number, if there is one; tells whether there was. -/
def fraction? : List Char → Option (Bool × List Char)
  | '.' :: rest => (digits? rest).map fun r => (true, r.2)
  | cs => some (false, cs)

/-- The exponent of a number, if there is one; tells whether there was. -/
def exponent? : List Char → Option (Bool × List Char)
  | c :: rest =>
    if c = 'e' ∨ c = 'E' then
      let unsigned := match rest with
        | '+' :: r => r
        | '-' :: r => r
        | r => r
      (digits? unsigned).map fun r => (true, r.2)
    else some (false, c :: rest)
  | [] => some (false, [])

/-- More digits than this are beyond every number that has a form. -/
abbrev maxDigits : Nat := 20

/-- A number. Only one without sign, fraction and exponent, and not too long, is natural. -/
def number? (cs : List Char) : Option (Json × List Char) := do
  let (negative, cs) := match cs with
    | '-' :: rest => (true, rest)
    | cs => (false, cs)
  let (ds, cs) ← whole? cs
  let (fractional, cs) ← fraction? cs
  let (scaled, cs) ← exponent? cs
  if negative || fractional || scaled || maxDigits < ds.length then return (.number, cs)
  else return (.natural (Nat.ofDigitChars 10 ds 0), cs)

/-! ## Strings -/

/-- The value of a hexadecimal digit. -/
def hexValue? (c : Char) : Option Nat :=
  if c.isDigit then some (c.toNat - 48)
  else if 'a' ≤ c ∧ c ≤ 'f' then some (c.toNat - 87)
  else if 'A' ≤ c ∧ c ≤ 'F' then some (c.toNat - 55)
  else none

/-- Four hexadecimal digits. -/
def hex4? : List Char → Option (Nat × List Char)
  | a :: b :: c :: d :: rest => do
    let a ← hexValue? a
    let b ← hexValue? b
    let c ← hexValue? c
    let d ← hexValue? d
    return (((a * 16 + b) * 16 + c) * 16 + d, rest)
  | _ => none

/-- The character that an escape of one letter stands for. -/
def shortEscape? (c : Char) : Option Nat :=
  match c with
  | '"' => some 34
  | '\\' => some 92
  | '/' => some 47
  | 'b' => some 8
  | 'f' => some 12
  | 'n' => some 10
  | 'r' => some 13
  | 't' => some 9
  | _ => none

/-- One piece of a string: a code point, and whether it was written as an escaped 16-bit unit. -/
structure Piece where
  point : Nat
  escaped : Bool

/-- The pieces of a string up to its closing quote, at most `fuel` of them. -/
def pieces? : Nat → List Char → Option (List Piece × List Char)
  | 0, _ => none
  | fuel + 1, cs =>
    match cs with
    | [] => none
    | '"' :: rest => some ([], rest)
    | '\\' :: 'u' :: rest => do
      let (unit, rest) ← hex4? rest
      let (more, rest) ← pieces? fuel rest
      return (⟨unit, true⟩ :: more, rest)
    | '\\' :: c :: rest => do
      let point ← shortEscape? c
      let (more, rest) ← pieces? fuel rest
      return (⟨point, false⟩ :: more, rest)
    | c :: rest => do
      let (more, rest) ← pieces? fuel rest
      return (⟨c.toNat, false⟩ :: more, rest)

/-- Joins two escaped units that are the halves of a pair. -/
def joinPairs : List Piece → List Nat
  | [] => []
  | [p] => [p.point]
  | p :: q :: rest =>
    if p.escaped && q.escaped && 0xD800 ≤ p.point && p.point < 0xDC00 &&
        0xDC00 ≤ q.point && q.point < 0xE000 then
      (0x10000 + (p.point - 0xD800) * 1024 + (q.point - 0xDC00)) :: joinPairs rest
    else p.point :: joinPairs (q :: rest)

/-- A string after its opening quote. -/
def string? (cs : List Char) : Option (JsonString × List Char) := do
  let (pieces, rest) ← pieces? (cs.length + 1) cs
  let written := cs.take (cs.length - rest.length)
  return (⟨joinPairs pieces, written.any fun c => c.toNat < 32⟩, rest)

/-! ## Values -/

/-- The given word. -/
def word? (word : String) (value : Json) (cs : List Char) : Option (Json × List Char) :=
  if word.toList.isPrefixOf cs then some (value, cs.drop word.length) else none

mutual

/-- A value, with at most `fuel` characters left. -/
def value? : Nat → List Char → Option (Json × List Char)
  | 0, _ => none
  | fuel + 1, cs =>
    match skipBlanks cs with
    | '"' :: rest => (string? rest).map fun r => (.string r.1, r.2)
    | '[' :: rest =>
      match skipBlanks rest with
      | ']' :: rest => some (.array [], rest)
      | rest => (elements? fuel rest).map fun r => (.array r.1, r.2)
    | '\x7b' :: rest =>
      match skipBlanks rest with
      | '\x7d' :: rest => some (.object [], rest)
      | rest => (members? fuel rest).map fun r => (.object r.1, r.2)
    | 't' :: rest => word? "true" (.bool true) ('t' :: rest)
    | 'f' :: rest => word? "false" (.bool false) ('f' :: rest)
    | 'n' :: rest => word? "null" .null ('n' :: rest)
    | rest => number? rest

/-- The elements of an array up to its closing bracket. -/
def elements? : Nat → List Char → Option (List Json × List Char)
  | 0, _ => none
  | fuel + 1, cs => do
    let (element, rest) ← value? fuel cs
    match skipBlanks rest with
    | ',' :: rest =>
      let (more, rest) ← elements? fuel rest
      return (element :: more, rest)
    | ']' :: rest => return ([element], rest)
    | _ => none

/-- The members of an object up to its closing brace. -/
def members? : Nat → List Char → Option (List (JsonString × Json) × List Char)
  | 0, _ => none
  | fuel + 1, cs =>
    match skipBlanks cs with
    | '"' :: rest => do
      let (key, rest) ← string? rest
      match skipBlanks rest with
      | ':' :: rest =>
        let (element, rest) ← value? fuel rest
        match skipBlanks rest with
        | ',' :: rest =>
          let (more, rest) ← members? fuel rest
          return ((key, element) :: more, rest)
        | '\x7d' :: rest => return ([(key, element)], rest)
        | _ => none
      | _ => none
    | _ => none

end

/-- The value that a text writes, with only blanks around it. -/
def parse? (text : String) : Option Json :=
  let cs := text.toList
  match value? (2 * cs.length + 2) cs with
  | some (value, rest) => if skipBlanks rest = [] then some value else none
  | none => none

end FixProtocol.Json
