import FixProtocol.Direction
import FixProtocol.SeqNum
import FixProtocol.Tag

/-!
# Errors

One type for each layer that can refuse something, and `Error` for all of them. Each type says what
was wrong; `message` words it.

- `DecodeError`, `EncodeError`: a byte string is no message, or fields make none.
- `SequenceError`: a number came twice or too early. Only these errors can be recovered from.
- `SessionError`, `StoreError`: the session or its store refuses.
- `Action`, `Failure`: an error together with what is to be done about it.
-/

namespace FixProtocol

/-- Why a byte string is no message. -/
inductive DecodeError where
  | malformedField (tag : Tag) (reason : String)
  | bodyLengthMismatch (declared actual : Nat)
  | checksumMismatch (calculated declared : UInt8)
deriving DecidableEq, Repr

/-- The wording of a decoding error. -/
def DecodeError.message : DecodeError → String
  | malformedField tag reason => s!"malformed field (tag {tag}): {reason}"
  | bodyLengthMismatch declared actual =>
    s!"body length mismatch: declared {declared}, actual {actual}"
  | checksumMismatch calculated declared =>
    s!"checksum mismatch: calculated {calculated}, declared {declared}"

/-- Why fields make no message. -/
inductive EncodeError where
  | missingRequiredField (tag : Tag)
  | delimiterInValue (tag : Tag)
  | invalidFieldValue (tag : Tag) (reason : String)
  | reservedTag (tag : Tag)
deriving DecidableEq, Repr

/-- The wording of an encoding error. -/
def EncodeError.message : EncodeError → String
  | missingRequiredField tag => s!"missing required field: tag {tag}"
  | delimiterInValue tag => s!"value for tag {tag} contains the field delimiter"
  | invalidFieldValue tag reason => s!"invalid field value for tag {tag}: {reason}"
  | reservedTag tag => s!"tag {tag} is computed by the engine and cannot be supplied"

/-- A number that is not the expected one. -/
inductive SequenceError where
  | duplicate (expected received : SeqNum)
  | gap (expected received : SeqNum)
deriving DecidableEq, Repr

/-- The wording of a sequence error. -/
def SequenceError.message : SequenceError → String
  | duplicate expected received =>
    s!"duplicate sequence number: expected {expected}, received {received}"
  | gap expected received => s!"sequence gap detected: expected {expected}, received {received}"

/-- Why the session refuses. -/
inductive SessionError where
  | unexpectedMessageType (msgType state : String)
  | logonRejected (reason : String)
  | logonTimeout (elapsed : Nat)
  | heartbeatTimeout (elapsed : Nat)
  | resendExhausted (first last : SeqNum) (attempts : Nat)
  | invalidState (expected current : String)
  | compIdMismatch (expected received : String)
  | invalidSequenceReset (expected requested : SeqNum)
  | configuration (reason : String)
  | connection (reason : String)
deriving DecidableEq, Repr

/-- The wording of a session error. -/
def SessionError.message : SessionError → String
  | unexpectedMessageType msgType state => s!"unexpected message type {msgType} in state {state}"
  | logonRejected reason => s!"logon rejected: {reason}"
  | logonTimeout elapsed => s!"no logon response after {elapsed} milliseconds"
  | heartbeatTimeout elapsed => s!"heartbeat timeout after {elapsed} milliseconds"
  | resendExhausted first last attempts =>
    s!"resend of {first}..={last} not fulfilled after {attempts} attempts"
  | invalidState expected current =>
    s!"invalid session state: expected {expected}, current {current}"
  | compIdMismatch expected received =>
    s!"comp id mismatch: expected {expected}, received {received}"
  | invalidSequenceReset expected requested =>
    s!"sequence reset to {requested} is below expected {expected}"
  | configuration reason => s!"configuration error: {reason}"
  | connection reason => s!"connection error: {reason}"

/-- Why the store refuses. -/
inductive StoreError where
  | notMonotonic (number last : SeqNum)
  | rangeNotAvailable (first last : SeqNum)
  | io (reason : String)
deriving DecidableEq, Repr

/-- The wording of a store error. -/
def StoreError.message : StoreError → String
  | notMonotonic number last => s!"sequence {number} is not above last stored {last}"
  | rangeNotAvailable first last => s!"messages not available for range: {first}..={last}"
  | io reason => s!"store i/o error: {reason}"

/-- An error of any layer. -/
inductive Error where
  | decode (error : DecodeError)
  | encode (error : EncodeError)
  | sequence (error : SequenceError)
  | session (error : SessionError)
  | store (error : StoreError)
  | io (reason : String)
deriving DecidableEq, Repr

namespace Error

/-- The wording of an error, with its layer in front. -/
def message : Error → String
  | decode error => "decode error: " ++ error.message
  | encode error => "encode error: " ++ error.message
  | sequence error => "sequence error: " ++ error.message
  | session error => "session error: " ++ error.message
  | store error => "store error: " ++ error.message
  | io reason => "io error: " ++ reason

/-- Can the session go on after this error? -/
def isRecoverable : Error → Bool
  | sequence _ => true
  | _ => false

end Error

/-- What is to be done about a failure. -/
inductive Action where
  | ignore
  | resendRequest (first last : SeqNum)
  | disconnect
deriving DecidableEq, Repr

/-- The wording of an action. -/
def Action.text : Action → String
  | ignore => "ignore"
  | resendRequest first last => s!"resend request {first}..={last}"
  | disconnect => "disconnect"

/-- An error and what is to be done about it. -/
structure Failure where
  error : Error
  action : Action
deriving DecidableEq, Repr

namespace Failure

/-- The wording of a failure. -/
def message (f : Failure) : String :=
  f.error.message ++ " (recommended action: " ++ f.action.text ++ ")"

/-- Does this failure end the session? -/
def isFatal (f : Failure) : Bool :=
  f.action = .disconnect

end Failure

end FixProtocol
