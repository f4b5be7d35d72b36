import FixProtocol.Session.Inbound
import FixProtocol.Session.Timer

/-!
# Operations

Everything that can happen to a session, as one type, so that a run is a list.

- `Session.logon`, `Session.send`, `Session.logout`: what the owner of a session asks for.
- `Session.receive`, `Session.onTimer`: a frame arrives, time passes.
- `Session.step`, `Session.run`: one operation, and a list of them.
-/

namespace FixProtocol.Session

variable {σ : Type} [MessageStore σ]

/-- The tags that the session alone writes. -/
def ownTags : List Tag :=
  [.beginString, .bodyLength, .checkSum, .msgSeqNum, .msgType, .possDupFlag, .senderCompId,
    .sendingTime, .targetCompId, .origSendingTime]

/-- Only an initiator begins. -/
def ensureInitiator : Call σ Unit := do
  if (← get).config.role ≠ .initiator then
    throw (.session (.invalidState Role.initiator.name Role.acceptor.name))

/-- May the application send a message of this type with these fields? -/
def checkSend (type : MsgType) (fields : List Field) : Except EncodeError Unit :=
  if type.isAdmin then
    .error (.invalidFieldValue .msgType
      ("administrative type " ++ type.code ++ " is sent by the session"))
  else
    match fields.find? (·.tag ∈ ownTags) with
    | some f => .error (.reservedTag f.tag)
    | none => .ok ()

/-- Begins a session: sends a logon. -/
def logon (now : Moment) : Call σ Bytes := do
  ensureOpen
  ensureInitiator
  ensureState .disconnected
  let seconds := (← get).config.heartbeatSeconds
  let frame ← emit .logon [.ofNat .encryptMethod 0, .ofNat .heartBtInt seconds] now
  modify fun s => s.enter .logonSent now
  return frame

/-- Sends a message of the application. -/
def send (type : MsgType) (fields : List Field) (now : Moment) : Call σ Bytes := do
  ensureOpen
  ensureState .loggedOn
  Call.ofExcept .encode (checkSend type fields)
  emit type fields now

/-- Asks for the end of the session: sends a logout, with a reason if there is one. -/
def logout (text : Option String) (now : Moment) : Call σ Bytes := do
  ensureOpen
  ensureState .loggedOn
  let frame ← emit .logout (text.map (Field.ofText .text)).toList now
  modify fun s => s.enter .logoutSent now
  return frame

/-- A frame arrives. A failure ends the session. -/
def receive (s : Session σ) (frame : Bytes) (now : Moment) : Except Failure Reaction × Session σ :=
  (process frame now).settle s now

/-- Time has passed. A failure ends the session. -/
def onTimer (s : Session σ) (now : Moment) : Except Failure Reaction × Session σ :=
  (tick now).settle s now

/-- What can happen to a session. -/
inductive Operation where
  | logon (now : Moment)
  | send (type : MsgType) (fields : List Field) (now : Moment)
  | logout (text : Option String) (now : Moment)
  | receive (frame : Bytes) (now : Moment)
  | timer (now : Moment)
  | disconnect (now : Moment)

/-- What an operation answers. -/
inductive Outcome where
  /-- The frame to write, or why there is none. -/
  | sent (answer : Except Error Bytes)
  /-- What is to be done, or why the session has ended. -/
  | reacted (answer : Except Failure Reaction)
  /-- Nothing is to be done. -/
  | closed

/-- One operation: its outcome, and the session after it. -/
def step (s : Session σ) : Operation → Outcome × Session σ
  | .logon now =>
    let (answer, s') := (logon now).run s
    (.sent answer, s')
  | .send type fields now =>
    let (answer, s') := (send type fields now).run s
    (.sent answer, s')
  | .logout text now =>
    let (answer, s') := (logout text now).run s
    (.sent answer, s')
  | .receive frame now =>
    let (answer, s') := s.receive frame now
    (.reacted answer, s')
  | .timer now =>
    let (answer, s') := s.onTimer now
    (.reacted answer, s')
  | .disconnect now => (.closed, s.disconnect now)

/-- The outcomes of a list of operations, and the session after them. -/
def run (s : Session σ) : List Operation → List Outcome × Session σ
  | [] => ([], s)
  | op :: ops =>
    let (outcome, s') := s.step op
    let (outcomes, s'') := run s' ops
    (outcome :: outcomes, s'')

end FixProtocol.Session
