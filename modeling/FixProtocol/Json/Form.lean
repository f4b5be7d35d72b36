import FixProtocol.CompId
import FixProtocol.Direction
import FixProtocol.Field
import FixProtocol.Json.Parser
import FixProtocol.MsgType
import FixProtocol.Session.State

/-!
# JSON forms

How the types of this library are written in JSON and read back. A number is a number, a choice is
the name of its case, and a record is an object with all its members; the members may also be
given as an array, in order.

- `JsonForm`: the two directions, for a type.
- `JsonForm.readText?`: reads a type from a JSON text.
-/

namespace FixProtocol

/-- How a type is written in JSON and read back. -/
class JsonForm (α : Type) where
  /-- The compact JSON text. -/
  print : α → String
  /-- The value that a JSON value stands for. -/
  read? : Json → Option α

namespace JsonForm

/-- A natural number up to a greatest one. -/
def natural? (greatest : Nat) : Json → Option Nat
  | .natural n => if n ≤ greatest then some n else none
  | _ => none

/-- A text. -/
def text? : Json → Option String
  | .string s => s.text?
  | _ => none

mutual

/-- Is this value written by the rules, where no control character stands raw in a string? -/
def isPlain : Json → Bool
  | .string s => !s.raw
  | .array elements => arePlain elements
  | .object members => areMembersPlain members
  | _ => true

/-- Are all these values written by the rules? -/
def arePlain : List Json → Bool
  | [] => true
  | e :: es => isPlain e && arePlain es

/-- Are all these members written by the rules? -/
def areMembersPlain : List (JsonString × Json) → Bool
  | [] => true
  | (key, e) :: es => !key.raw && isPlain e && areMembersPlain es

end

/-- The values of the named members of a record, each of which must be there exactly once; others
are passed over. An array gives them in order. -/
def members? (names : List String) : Json → Option (List Json)
  | .array elements => if elements.length = names.length then some elements else none
  | .object members => do
    let members ← members.mapM fun m => m.1.text?.map fun key => (key, m.2)
    let others := members.filter fun m => m.1 ∉ names
    if others.all fun m => isPlain m.2 then
      names.mapM fun name =>
        match members.filter (·.1 = name) with
        | [m] => some m.2
        | _ => none
    else none
  | _ => none

/-- The case of a choice without content: its name, or an object that gives its name with nothing.
-/
def case? : Json → Option String
  | .string s => s.text?
  | .object [(key, .null)] => key.text?
  | _ => none

/-- The value of the given type that a JSON text writes. -/
def readText? (α : Type) [JsonForm α] (text : String) : Option α :=
  (Json.parse? text).bind read?

instance : JsonForm SeqNum where
  print n := toString n
  read? j := (natural? (UInt64.size - 1) j).map UInt64.ofNat

instance : JsonForm Timestamp where
  print t := Json.printObject [("nanos_since_epoch", toString t.nanos)]
  read? j :=
    match members? ["nanos_since_epoch"] j with
    | some [n] => (natural? (UInt64.size - 1) n).map fun n => ⟨UInt64.ofNat n⟩
    | _ => none

instance : JsonForm CompId where
  print id := Json.quote id.text
  read? j := (text? j).bind CompId.ofShort?

instance : JsonForm SessionId where
  print id := Json.printObject [("begin_string", Json.quote id.beginString),
    ("sender_comp_id", print id.sender), ("target_comp_id", print id.target)]
  read? j :=
    match members? ["begin_string", "sender_comp_id", "target_comp_id"] j with
    | some [version, sender, target] => do
      return ⟨← text? version, ← read? sender, ← read? target⟩
    | _ => none

/-- A type whose values are named cases. -/
@[reducible] def ofNames {α : Type} (name : α → String) (all : List α) : JsonForm α where
  print a := Json.quote (name a)
  read? j := (case? j).bind fun text => all.find? (name · = text)

instance : JsonForm Direction :=
  ofNames Direction.name [.inbound, .outbound]

instance : JsonForm Role :=
  ofNames Role.name [.initiator, .acceptor]

/-- The name of a state in JSON. -/
def stateName : SessionState → String
  | .disconnected => "disconnected"
  | .logonSent => "logon_sent"
  | .loggedOn => "logged_on"
  | .logoutSent => "logout_sent"

instance : JsonForm SessionState :=
  ofNames stateName [.disconnected, .logonSent, .loggedOn, .logoutSent]

/-- All message types that have a name of their own. -/
def namedTypes : List MsgType :=
  [.heartbeat, .testRequest, .resendRequest, .reject, .sequenceReset, .logout, .executionReport,
    .orderCancelReject, .logon, .newOrderSingle, .orderCancelRequest, .orderCancelReplaceRequest,
    .businessMessageReject]

instance : JsonForm MsgType where
  print
    | .custom code => Json.printObject [("Custom", Json.quote code)]
    | type => Json.quote type.name
  read? j :=
    match j with
    | .object [(key, .string code)] =>
      if key.text? = some "Custom" then code.text?.map MsgType.custom else none
    | j => (case? j).bind fun text => namedTypes.find? (·.name = text)

/-- Bytes are an array of numbers, or a string. -/
def bytes? : Json → Option Bytes
  | .array elements => elements.mapM fun e => (natural? 255 e).map UInt8.ofNat
  | .string s => some s.bytes
  | _ => none

instance : JsonForm Field where
  print f := Json.printObject [("tag", toString f.tag),
    ("value", Json.printArray (f.value.map fun b => toString b))]
  read? j :=
    match members? ["tag", "value"] j with
    | some [tag, value] => do
      let tag ← natural? (UInt32.size - 1) tag
      let value ← bytes? value
      return ⟨UInt32.ofNat tag, value⟩
    | _ => none

end JsonForm

end FixProtocol
