import FixProtocol.Numeral

/-!
# Exact decimals

Prices and quantities are decimals with a coefficient of at most 96 bits and at most 28 places. A
numeral with more places than fit is rounded half up at the last place that fits.

- `Decimal.parse?`: reads a numeral, with sign, point, digit separators and exponent.
- `Decimal.normalize`: the same number with the fewest places.
- `Decimal.roundTo`: the nearest number with so many places; halves go away from zero.
- `Decimal.text`: prints all places.
-/

namespace FixProtocol

/-- The number `± coefficient / 10 ^ places`. -/
structure Decimal where
  negative : Bool
  coefficient : Nat
  places : Nat
deriving DecidableEq, Repr

namespace Decimal

/-- Coefficients stay below this bound. -/
def coefficientBound : Nat := Nat.pow 2 96

/-- The greatest number of places. -/
def maxPlaces : Nat := 28

/-- The byte that may stand between digits, an underscore. -/
abbrev separator : UInt8 := 95

/-- A decimal of the given parts; zero has no sign. -/
def ofParts (negative : Bool) (coefficient places : Nat) : Decimal :=
  ⟨negative && coefficient != 0, coefficient, places⟩

/-- Below this bound a coefficient is gathered in one word of 64 bits, and one more byte fits. -/
def wordBound : Nat := (UInt64.size - 1) / 10 - 255

/-- Ends a numeral whose next digit no longer fits: `rest` must be digits and separators. The next
digit rounds the coefficient half up, and if it grows out of range its own last digit is rounded
away too. -/
def roundOff (negative : Bool) (coefficient places : Nat) (rest : Bytes) : Option Decimal :=
  let digits := rest.filter (· ≠ separator)
  -- Separators are passed over to find that digit, but a word looks no further than one byte.
  let next? := (if coefficient / 10 < wordBound then rest else digits).head?
  let digit := ((next?.filter Numeral.isDigit).map Numeral.digitValue).getD 0
  if !digits.all Numeral.isDigit then none
  else if digit < 5 then some (ofParts negative coefficient places)
  else if coefficient + 1 < coefficientBound then
    some (ofParts negative (coefficient + 1) places)
  else if places = 0 then none
  else some (ofParts negative ((coefficient + 5) / 10) (places - 1))

/-- Reads the digits after the sign. `pointed` tells that the point was read, `started` that a digit
was. Once the places are used up, or a digit would make the coefficient too great, what is left only
rounds. -/
def digits? (negative : Bool) (pointed started : Bool) (coefficient places : Nat) :
    Bytes → Option Decimal
  | [] => if started then some (ofParts negative coefficient places) else none
  | b :: rest =>
    if pointed ∧ started ∧ maxPlaces ≤ places then roundOff negative coefficient places (b :: rest)
    else if Numeral.isDigit b then
      let grown := coefficient * 10 + Numeral.digitValue b
      if grown < coefficientBound then
        digits? negative pointed true grown (if pointed then places + 1 else places) rest
      else if pointed then roundOff negative coefficient places (b :: rest)
      else none
    else if b = 46 ∧ !pointed then digits? negative true started coefficient places rest
    else if b = separator ∧ started then
      digits? negative pointed started coefficient places rest
    else none

/-- Reads a numeral without exponent. -/
def plain? : Bytes → Option Decimal
  | 45 :: rest => digits? true false false 0 0 rest
  | 43 :: rest => digits? false false false 0 0 rest
  | bs => digits? false false false 0 0 bs

/-- Drops trailing zeros of the coefficient that are places, at most `n` of them. -/
def dropZeros : Nat → Nat → Nat → Nat × Nat
  | 0, coefficient, places => (coefficient, places)
  | n + 1, coefficient, places =>
    if places ≠ 0 ∧ coefficient % 10 = 0 then dropZeros n (coefficient / 10) (places - 1)
    else (coefficient, places)

/-- The same number with the fewest places. -/
def normalize (d : Decimal) : Decimal :=
  if d.coefficient = 0 then ⟨false, 0, 0⟩
  else
    let (coefficient, places) := dropZeros d.places d.coefficient d.places
    ⟨d.negative, coefficient, places⟩

/-- The number rounded half up, away from zero, to at most `places` places. The sign stays even if
nothing else does. -/
def roundTo (d : Decimal) (places : Nat) : Decimal :=
  if d.places ≤ places then d
  else
    let unit := Nat.pow 10 (d.places - places)
    { d with coefficient := (d.coefficient + unit / 2) / unit, places := places }

/-- Moves the point: `exponent` places to the right, or to the left if it is negative. To the left,
the places that no longer fit are rounded away first. -/
def shift? (d : Decimal) (exponent : Int) : Option Decimal :=
  let distance := exponent.natAbs
  if 0 ≤ exponent then
    if distance ≤ d.places then some { d with places := d.places - distance }
    else if maxPlaces < distance then none
    else
      let coefficient := d.coefficient * Nat.pow 10 (distance - d.places)
      if coefficient < coefficientBound then some ⟨d.negative, coefficient, 0⟩ else none
  else if maxPlaces < distance then none
  else
    let d := d.roundTo (maxPlaces - distance)
    some { d with places := d.places + distance }

/-- The exponent after the letter: an optional minus sign and an unsigned numeral of 32 bits. -/
def exponent? : Bytes → Option Int
  | 45 :: rest => (Numeral.unsigned? (UInt32.size - 1) rest).map fun n => -(n : Int)
  | bs => (Numeral.unsigned? (UInt32.size - 1) bs).map Int.ofNat

/-- Reads a numeral, with an exponent after the letter `e` or `E` if there is one. -/
def parse? (bs : Bytes) : Option Decimal :=
  match bs.span (fun b => b != 101 && b != 69) with
  | (front, []) => plain? front
  | (front, _ :: rest) => (plain? front).bind fun d => (exponent? rest).bind d.shift?

/-- Prints a decimal with all its places. -/
def text (d : Decimal) : Bytes :=
  let ds := Numeral.padded (d.places + 1) d.coefficient
  let whole := ds.take (ds.length - d.places)
  let fraction := ds.drop (ds.length - d.places)
  (if d.negative then [45] else []) ++ whole ++ (if d.places = 0 then [] else 46 :: fraction)

end Decimal

end FixProtocol
