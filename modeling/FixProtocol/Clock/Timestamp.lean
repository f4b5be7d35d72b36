import FixProtocol.Clock.Date
import FixProtocol.Numeral

/-!
# Timestamps

A timestamp is a 64-bit word of nanoseconds since 1 January 1970, UTC. Words from the upper half
stand for times before that day, as in two's complement.

- `Timestamp.ofMillis`, `Timestamp.millis`: to and from milliseconds.
- `Timestamp.pattern`: date and time of day, `YYYYMMDD-HH:MM:SS.mmm`.
- `Timestamp.text`: what the protocol writes, from a buffer with room for that many bytes.
- `Timestamp.ofUtc?`: from seconds and nanoseconds, where a leap second is allowed.
- `Moment`: what a clock tells at one call.
-/

namespace FixProtocol

/-- A point in time, UTC. -/
structure Timestamp where
  nanos : UInt64
deriving DecidableEq, Repr

namespace Timestamp

/-- The timestamp `m` milliseconds after the start of 1970. -/
def ofMillis (m : Nat) : Timestamp :=
  ⟨UInt64.ofNat (m * 1000000)⟩

/-- Whole milliseconds of the word. -/
def millis (t : Timestamp) : Nat :=
  t.nanos.toNat / 1000000

/-- Nanoseconds from the start of 1970, negative before it. -/
def signedNanos (t : Timestamp) : Int :=
  t.nanos.toInt64.toInt

/-- Whole seconds from the start of 1970, rounded down. -/
def seconds (t : Timestamp) : Int :=
  t.signedNanos / 1000000000

/-- Date and time of day with milliseconds, cut off and not rounded: `YYYYMMDD-HH:MM:SS.mmm`. -/
def pattern (t : Timestamp) : Bytes :=
  let day := Date.ofDay (t.seconds / 86400)
  let ofDay := (t.seconds % 86400).toNat
  let milli := (t.signedNanos % 1000000000).toNat / 1000000
  Numeral.padded 4 day.year.toNat ++ Numeral.padded 2 day.month ++ Numeral.padded 2 day.day ++
    [45] ++ Numeral.padded 2 (ofDay / 3600) ++ [58] ++ Numeral.padded 2 (ofDay / 60 % 60) ++ [58] ++
    Numeral.padded 2 (ofDay % 60) ++ [46] ++ Numeral.padded 3 milli

/-- The bytes that the buffer of a written time has room for. -/
def capacity : Nat := 21

/-- The time as it is written on the wire. It goes into the buffer in one piece; a piece that the
buffer has no room for is refused, which leaves the buffer empty and is not reported. -/
@[irreducible] def text (t : Timestamp) : Bytes :=
  if t.pattern.length ≤ capacity then t.pattern else []

/-- Nanoseconds in the seconds part and the rest; `none` if there is no such time. A rest of a
second or more is a leap second, allowed only in the last second of a minute, and the calendar
ends with the years -262143 and 262142. A time that the word cannot hold counts as the start of
1970. -/
def ofUtc? (seconds : Int) (nanos : Nat) : Option Timestamp :=
  let year := (Date.ofDay (seconds / 86400)).year
  if year < -262143 ∨ 262142 < year then none
  else if 2000000000 ≤ nanos then none
  else if 1000000000 ≤ nanos ∧ seconds % 60 ≠ 59 then none
  else
    let total := seconds * 1000000000 + nanos
    if -9223372036854775808 ≤ total ∧ total ≤ 9223372036854775807 then
      some ⟨(Int64.ofInt total).toUInt64⟩
    else some ⟨0⟩

end Timestamp

/-- What the surroundings tell at one call: a clock that only measures, in milliseconds from some
start; the time of day; and a ticket that makes the identifiers made at this call differ from
others. -/
structure Moment where
  elapsed : Nat
  utc : Timestamp
  ticket : Nat
deriving DecidableEq, Repr

namespace Moment

/-- The moment `ms` milliseconds later. -/
def later (m : Moment) (ms : Nat) : Moment :=
  { m with
    elapsed := m.elapsed + ms
    utc := ⟨m.utc.nanos + UInt64.ofNat (ms * 1000000)⟩ }

/-- The identifier of a test request that is made at this moment. -/
def testReqId (m : Moment) : String :=
  "TEST" ++ toString m.utc.nanos.toNat ++ "-" ++ toString m.ticket

end Moment

end FixProtocol
