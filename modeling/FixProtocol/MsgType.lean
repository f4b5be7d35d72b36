/-!
# Message types

- `MsgType`: the types that have a name here, and all others by their code.
- `MsgType.ofCode`, `MsgType.code`: the code on the wire; `MsgType.code_ofCode` says that every
  code survives being read. A `custom` type may hide the code of a named one, so not every type
  does.
- `MsgType.isAdmin`: the types that belong to the session itself; all others are the
  application's.
-/

namespace FixProtocol

/-- What a message is. `custom` holds the code of a type that has no name here. -/
inductive MsgType where
  | heartbeat
  | testRequest
  | resendRequest
  | reject
  | sequenceReset
  | logout
  | executionReport
  | orderCancelReject
  | logon
  | newOrderSingle
  | orderCancelRequest
  | orderCancelReplaceRequest
  | businessMessageReject
  | custom (code : String)
deriving DecidableEq, Repr

namespace MsgType

/-- The type with the given code. -/
def ofCode (code : String) : MsgType :=
  match code with
  | "0" => heartbeat
  | "1" => testRequest
  | "2" => resendRequest
  | "3" => reject
  | "4" => sequenceReset
  | "5" => logout
  | "8" => executionReport
  | "9" => orderCancelReject
  | "A" => logon
  | "D" => newOrderSingle
  | "F" => orderCancelRequest
  | "G" => orderCancelReplaceRequest
  | "j" => businessMessageReject
  | _ => custom code

/-- The code of a type. -/
def code : MsgType → String
  | heartbeat => "0"
  | testRequest => "1"
  | resendRequest => "2"
  | reject => "3"
  | sequenceReset => "4"
  | logout => "5"
  | executionReport => "8"
  | orderCancelReject => "9"
  | logon => "A"
  | newOrderSingle => "D"
  | orderCancelRequest => "F"
  | orderCancelReplaceRequest => "G"
  | businessMessageReject => "j"
  | custom code => code

/-- The name of a type; a type without one is `Custom`. -/
def name : MsgType → String
  | heartbeat => "Heartbeat"
  | testRequest => "TestRequest"
  | resendRequest => "ResendRequest"
  | reject => "Reject"
  | sequenceReset => "SequenceReset"
  | logout => "Logout"
  | executionReport => "ExecutionReport"
  | orderCancelReject => "OrderCancelReject"
  | logon => "Logon"
  | newOrderSingle => "NewOrderSingle"
  | orderCancelRequest => "OrderCancelRequest"
  | orderCancelReplaceRequest => "OrderCancelReplaceRequest"
  | businessMessageReject => "BusinessMessageReject"
  | custom _ => "Custom"

/-- Does this type belong to the session layer? -/
def isAdmin : MsgType → Bool
  | heartbeat | testRequest | resendRequest | reject | sequenceReset | logout | logon => true
  | _ => false

/-- Does this type belong to the application? -/
def isApp (t : MsgType) : Bool :=
  !t.isAdmin

/-- Reading a code keeps it. -/
theorem code_ofCode (c : String) : (ofCode c).code = c := by
  unfold ofCode
  split <;> rfl

end MsgType

end FixProtocol
