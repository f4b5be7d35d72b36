import FixProtocol.Engine.ReadBuffer
import FixProtocol.Session.Operation
import FixProtocol.Wire.Framing

/-!
# Session tasks

A task owns a session and its transport. It cuts the bytes it reads into frames, hands them to the
session, writes what the session puts out, and tells the application what happened. One event is
dealt with after the other.

- `SessionTask`: the session, the bytes that were read and not used, and a log of what was written
  and told.
- `SessionTask.makeRoom`: finds room for the next read.
- `SessionTask.Event`: what can happen to a task. `SessionTask.step` deals with one.
- `SessionTask.begin`: an initiator sends its logon first.
-/

namespace FixProtocol

/-- Why a task has ended, or why it refuses a command. -/
inductive TaskError where
  /-- The session refused. -/
  | refused (error : Error)
  /-- The session has ended with a failure. -/
  | failed (failure : Failure)
  /-- The task is gone. -/
  | closed
deriving DecidableEq, Repr

/-- The wording of a task error. -/
def TaskError.message : TaskError → String
  | refused error => error.message
  | failed failure => failure.message
  | closed => "session task has stopped"

/-- What the application is told. -/
inductive Callback where
  | logon
  | logout
  | message (message : Message)
  | failure (failure : Failure)
deriving DecidableEq

/-- A session with its transport and its application. -/
structure SessionTask (σ : Type) where
  session : Session σ
  /-- The bytes that were read and hold no complete frame yet. -/
  buffer : ReadBuffer
  /-- The numbers of the messages that the application was given and has not let go of. -/
  kept : List SeqNum
  /-- Was the application told of the logon and not yet of the logout? -/
  loggedOn : Bool
  /-- The state that the handles see. -/
  published : SessionState
  /-- After so many more writes all writes fail, with the given reason. -/
  writeFault : Option (Nat × String)
  /-- The frames that the transport took, in order. -/
  written : List Bytes
  /-- What the application was told, in order. -/
  callbacks : List Callback
  /-- How the task has ended, if it has. -/
  result : Option (Except TaskError Unit)

namespace SessionTask

variable {σ : Type}

/-- A task for a new session. -/
def ofSession (session : Session σ) (writeFault : Option (Nat × String)) : SessionTask σ :=
  { session, buffer := .empty, kept := [], loggedOn := false, published := .disconnected,
    writeFault, written := [], callbacks := [], result := none }

/-- Does the task still run? -/
def isRunning (t : SessionTask σ) : Bool :=
  t.result.isNone

/-- Shows the state of the session to the handles. -/
def publish (t : SessionTask σ) : SessionTask σ :=
  { t with published := t.session.state }

/-- Tells the application something. -/
def tell (t : SessionTask σ) (c : Callback) : SessionTask σ :=
  { t with callbacks := t.callbacks ++ [c] }

/-- Gives the application a message. -/
def deliver (t : SessionTask σ) (m : Message) : SessionTask σ :=
  { t with kept := m.seqNum?.toList ++ t.kept }.tell (.message m)

/-- The application lets go of the messages it was given. -/
def letGo (t : SessionTask σ) : SessionTask σ :=
  { t with kept := [] }

/-- Tells the application of the logout, if it knows of a logon. -/
def tellLogout (t : SessionTask σ) : SessionTask σ :=
  if t.loggedOn then { t with loggedOn := false }.tell .logout else t

/-- Tells the application of the logon, once. -/
def tellLogon (t : SessionTask σ) : SessionTask σ :=
  if !t.loggedOn && t.session.state = .loggedOn then { t with loggedOn := true }.tell .logon else t

/-- The task has ended. -/
def finish (t : SessionTask σ) (result : Except TaskError Unit) : SessionTask σ :=
  { t with result := some result }.publish

/-! ## Room for reading -/

/-- The session has dealt with a frame of the block, and hands on the messages in `delivered`. The
frame stays in use if its message is one of those, or is parked; one that was discarded or only
answered is done with. This is settled as soon as it is known: a discarded frame may have the bytes
of one that is in use, but in another block. -/
def noteUse (t : SessionTask σ) (frame : Bytes) (delivered : List Message) : SessionTask σ :=
  match Message.decode t.session.config.beginString frame with
  | .error _ => t
  | .ok m =>
    match m.seqNum? with
    | none => t
    | some n =>
      if m ∈ delivered ∨ t.session.recovery.find? n = some ⟨m, frame⟩ then
        { t with buffer := t.buffer.lend n }
      else t

/-- Is a message of the block still in use: parked, or kept by the application? -/
def blockInUse (t : SessionTask σ) : Bool :=
  t.buffer.lent.any fun n => (t.session.recovery.find? n).isSome || t.kept.contains n

/-- Finds room for `count` more bytes. -/
def reserve (t : SessionTask σ) (count : Nat) : SessionTask σ :=
  if count ≤ t.buffer.room then t else { t with buffer := t.buffer.grow t.blockInUse count }

/-- Finds room for the next read, which may bring any number of bytes. A block is used up before
anything is done about it. -/
def makeRoom (t : SessionTask σ) : SessionTask σ :=
  if t.buffer.room = 0 then
    { t with buffer := t.buffer.grow t.blockInUse ReadBuffer.leastRoom }
  else t

theorem room_makeRoom_pos (t : SessionTask σ) : 0 < t.makeRoom.buffer.room := by
  unfold makeRoom
  split
  · exact Nat.lt_of_lt_of_le (by decide : 0 < ReadBuffer.leastRoom) (t.buffer.le_room_grow _ _)
  · omega

/-! ## What a task does -/

/-- What a task does; when it fails the task ends, and what it did before stays done. -/
abbrev Work (σ : Type) := EStateM TaskError (SessionTask σ)

/-- A call on the session. -/
def onSession {α : Type} (f : Session σ → α × Session σ) : Work σ α :=
  modifyGet fun t =>
    let (a, session) := f t.session
    (a, { t with session })

/-- A failure of the session ends the task; the application is told. -/
def failWith {α : Type} (failure : Failure) : Work σ α := do
  modify fun t => (t.publish.tell (.failure failure)).tellLogout
  throw (.failed failure)

/-- A failure of the transport ends the session and the task. -/
def failTransport {α : Type} (error : Error) (now : Moment) : Work σ α := do
  modify fun t => { t with session := t.session.disconnect now }
  failWith ⟨error, .disconnect⟩

/-- Writes a frame to the transport. -/
def write (frame : Bytes) (now : Moment) : Work σ Unit := do
  let t ← get
  match t.writeFault with
  | some (0, reason) => failTransport (.io reason) now
  | some (n + 1, reason) =>
    set { t with written := t.written ++ [frame], writeFault := some (n, reason) }
  | none => set { t with written := t.written ++ [frame] }

/-- Writes frames one after the other. -/
def writeAll (now : Moment) : List Bytes → Work σ Unit
  | [] => return ()
  | frame :: frames => do
    write frame now
    writeAll now frames

/-- Does what a session asks for: its frames are written first, then the application is told of a
logon, of failures and of messages. -/
def settle (outcome : Except Failure Reaction) (now : Moment) : Work σ Unit :=
  match outcome with
  | .error failure => failWith failure
  | .ok reaction => do
    -- When a write fails the task ends here, and the application is told of nothing else.
    writeAll now reaction.outbound
    modify fun t =>
      let t := t.publish.tellLogon
      let t := reaction.reported.foldl (fun t f => t.tell (.failure f)) t
      reaction.delivered.foldl deliver t

variable [MessageStore σ]

/-- An initiator sends its logon. -/
def sendLogon (now : Moment) : Work σ Unit := do
  if (← get).session.config.role = .initiator then
    match ← onSession (Session.logon now).run with
    | .error e => throw (.refused e)
    | .ok frame =>
      write frame now
      modify publish

/-- Hands the frames in `bs`, the bytes of the buffer, to the session until it ends. When a frame is
not complete and its size is known, room is made for all of it. -/
def readFrames (now : Moment) (bs : Bytes) : Work σ Unit := do
  let t ← get
  if t.session.terminated then
    return ()
  else
    let limit := t.session.config.maxMessageSize
    match h : Framing.next limit bs with
    | .error e => failTransport e.toError now
    | .ok none =>
      if let .ok (some size) := Framing.frameSize limit bs then
        modify fun t => t.reserve (size - bs.length)
    | .ok (some (frame, rest)) =>
      have := Framing.length_of_next h
      modify fun t => { t with buffer := t.buffer.cut frame rest }
      let outcome ← onSession fun s => s.receive frame now
      modify fun t => t.noteUse frame ((outcome.toOption.map Reaction.delivered).getD [])
      settle outcome now
      readFrames now rest
termination_by bs.length

/-- Bytes were read. -/
def onReadable (bs : Bytes) (now : Moment) : Work σ Unit := do
  modify fun t => { t with buffer := t.buffer.append bs }
  readFrames now (← get).buffer.bytes
  modify makeRoom

/-- The peer has closed the connection. -/
def onClosed (now : Moment) : Work σ Unit := do
  let state := (← get).session.state
  failTransport (.session (.connection ("peer closed the connection in " ++ state.name))) now

/-- A tick of the timer. -/
def onTick (now : Moment) : Work σ Unit := do
  let outcome ← onSession fun s => s.onTimer now
  settle outcome now

/-- The application sends a message. A refusal is answered and changes nothing. -/
def onSend (type : MsgType) (fields : List Field) (now : Moment) :
    Work σ (Except TaskError Unit) := do
  match ← onSession (Session.send type fields now).run with
  | .error e => return .error (.refused e)
  | .ok frame =>
    write frame now
    return .ok ()

/-- The owner shuts the session down: with a logout if it is logged on, else at once. -/
def onShutdown (text : Option String) (now : Moment) : Work σ (Except TaskError Unit) := do
  if (← get).session.state = .loggedOn then
    match ← onSession (Session.logout text now).run with
    -- A logout that cannot be sent ends the task without a word to the application.
    | .error e => throw (.refused e)
    | .ok frame => write frame now
  else
    modify fun t => { t with session := t.session.disconnect now }
  modify publish
  return .ok ()

/-- What can happen to a task. -/
inductive Event where
  | received (bytes : Bytes)
  | closed
  | readFailed (reason : String)
  | tick
  | send (type : MsgType) (fields : List Field)
  | shutdown (text : Option String)

/-- What a task does about an event; a command is answered. -/
def handle (event : Event) (now : Moment) : Work σ (Except TaskError Unit) := do
  match event with
  | .received bytes => onReadable bytes now
  | .closed => onClosed now
  | .readFailed reason => failTransport (.io reason) now
  | .tick => onTick now
  | .send type fields => return ← onSend type fields now
  | .shutdown text => return ← onShutdown text now
  return .ok ()

/-- What the sender of a command is told when the task ends on it: a message was not sent, and a
shut down is complete. -/
def lastAnswer : Event → Except TaskError Unit
  | .shutdown _ => .ok ()
  | _ => .error .closed

/-- Does work that may end the task. The task also ends when its session does. -/
def perform {α : Type} (t : SessionTask σ) (work : Work σ α) (atEnd : α) : α × SessionTask σ :=
  match work t with
  | .ok a t => (a, if t.session.terminated then t.tellLogout.finish (.ok ()) else t)
  | .error e t => (atEnd, t.finish (.error e))

/-- Starts a task. -/
def begin (t : SessionTask σ) (now : Moment) : SessionTask σ :=
  (t.perform (sendLogon now) ()).2

/-- Deals with one event. A task that has ended does nothing any more. -/
def step (t : SessionTask σ) (event : Event) (now : Moment) :
    Except TaskError Unit × SessionTask σ :=
  if t.isRunning then t.perform (handle event now) (lastAnswer event)
  else (lastAnswer event, t)

end SessionTask

end FixProtocol
