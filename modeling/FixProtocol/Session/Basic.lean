import FixProtocol.Session.Config
import FixProtocol.Session.Heartbeat
import FixProtocol.Session.Recovery
import FixProtocol.Session.Sequence
import FixProtocol.Wire.Decode

/-!
# Sessions

A session is one side of a numbered conversation. It keeps every message in its store, counts both
directions, and knows where it stands between logon and logout. It never waits and never reads a
clock: each call is told the moment it happens at.

- `Session`: the state of one side. `Session.open?` makes one over a store.
- `Session.Call`: what a call does. It may fail, and what it did before that stays done.
- `Session.emit`: numbers a message, writes it, and keeps it in the store.
- `Reaction`: what a call asks the surroundings to do.
-/

namespace FixProtocol

/-- What a call asks for: frames to write, messages to hand to the application, and failures that do
not end the session. -/
structure Reaction where
  outbound : List Bytes
  delivered : List Message
  reported : List Failure
deriving DecidableEq

namespace Reaction

/-- Nothing to do. -/
def empty : Reaction :=
  ⟨[], [], []⟩

instance : Append Reaction where
  append a b := ⟨a.outbound ++ b.outbound, a.delivered ++ b.delivered, a.reported ++ b.reported⟩

/-- A frame to write. -/
def ofFrame (frame : Bytes) : Reaction :=
  ⟨[frame], [], []⟩

/-- A message for the application. -/
def ofMessage (message : Message) : Reaction :=
  ⟨[], [message], []⟩

/-- A failure that does not end the session. -/
def ofReport (failure : Failure) : Reaction :=
  ⟨[], [], [failure]⟩

/-- Is there nothing to do? -/
def isEmpty (r : Reaction) : Bool :=
  r.outbound.isEmpty && r.delivered.isEmpty && r.reported.isEmpty

@[simp] theorem outbound_append (a b : Reaction) :
    (a ++ b).outbound = a.outbound ++ b.outbound := rfl

@[simp] theorem delivered_append (a b : Reaction) :
    (a ++ b).delivered = a.delivered ++ b.delivered := rfl

@[simp] theorem reported_append (a b : Reaction) :
    (a ++ b).reported = a.reported ++ b.reported := rfl

end Reaction

/-- One side of a session, over a store with states in `σ`. -/
structure Session (σ : Type) where
  config : SessionConfig
  store : σ
  sequences : SequenceTracker
  heartbeat : HeartbeatMonitor
  recovery : GapRecovery
  state : SessionState
  /-- When the state was entered. -/
  since : Nat
  /-- A terminated session does nothing any more. -/
  terminated : Bool

namespace Session

variable {σ : Type}

/-- A session with the given settings that goes on where the store left off, or what is wrong with
the settings. -/
def open? [MessageStore σ] (config : SessionConfig) (store : σ) (now : Nat) :
    Except SessionError (Session σ) := do
  config.validate
  return {
    config, store
    sequences := .resume store
    heartbeat := .startingAt config.heartbeatInterval config.testRequestGrace now
    recovery := .empty config.maxBufferedMessages
    state := .disconnected
    since := now
    terminated := false }

/-- The identity of the session. -/
def id (s : Session σ) : SessionId :=
  s.config.sessionId

/-- Enters a state. -/
def enter (s : Session σ) (state : SessionState) (now : Moment) : Session σ :=
  { s with state, since := now.elapsed }

/-- Ends the session: nothing waits any more and nothing is requested. -/
def terminate (s : Session σ) (now : Moment) : Session σ :=
  { s with recovery := s.recovery.clear, terminated := true }.enter .disconnected now

/-- The transport is gone; a session that is still open ends. -/
def disconnect (s : Session σ) (now : Moment) : Session σ :=
  if s.terminated then s else s.terminate now

/-- The fields that start every message: version, type, both sides, number and time. -/
def header (s : Session σ) (type : MsgType) (number : SeqNum) (time : Timestamp) : List Field :=
  [.ofText .beginString s.config.beginString, .ofText .msgType type.code,
    ⟨.senderCompId, s.config.sender.bytes⟩, ⟨.targetCompId, s.config.target.bytes⟩,
    .ofSeqNum .msgSeqNum number, .ofTimestamp .sendingTime time]

/-! ## Calls -/

/-- What a call on a session does. When it fails, what it did before stays done. -/
abbrev Call (σ : Type) := EStateM Error (Session σ)

namespace Call

/-- The answer of a call and the session that it leaves behind. -/
def run {α : Type} (c : Call σ α) (s : Session σ) : Except Error α × Session σ :=
  match c s with
  | .ok a s' => (.ok a, s')
  | .error e s' => (.error e, s')

/-- A computation that does not touch the session; `wrap` says which layer an error is of. -/
def ofExcept {α ε : Type} (wrap : ε → Error) : Except ε α → Call σ α
  | .ok a => pure a
  | .error e => throw (wrap e)

/-- A call on the store. The store that it leaves behind is kept, also when it fails. -/
def onStore {α : Type} (f : σ → Except StoreError α × σ) : Call σ α := fun s =>
  match f s.store with
  | (.ok a, store) => .ok a { s with store }
  | (.error e, store) => .error (.store e) { s with store }

/-- The answer of a call that ends the session when it fails. -/
def settle (c : Call σ Reaction) (s : Session σ) (now : Moment) :
    Except Failure Reaction × Session σ :=
  match c s with
  | .ok r s' => (.ok r, s')
  | .error e s' => (.error ⟨e, .disconnect⟩, s'.terminate now)

end Call

/-- A terminated session refuses. -/
def ensureOpen : Call σ Unit := do
  if (← get).terminated then
    throw (.session (.invalidState "open session" "terminated"))

/-- A session in another state refuses. -/
def ensureState (expected : SessionState) : Call σ Unit := do
  let s ← get
  if s.state ≠ expected then
    throw (.session (.invalidState expected.name s.state.name))

/-- Keeps a message in the store. -/
def append [MessageStore σ] (d : Direction) (number : SeqNum) (frame : Bytes) : Call σ Unit :=
  Call.onStore fun store => MessageStore.append store d number frame

/-- Sends a message of the session under the next number: it is written, kept in the store, and only
then counted. -/
def emit [MessageStore σ] (type : MsgType) (body : List Field) (now : Moment) : Call σ Bytes := do
  let s ← get
  let number := s.sequences.nextOutgoing
  let frame ← Call.ofExcept .encode (Wire.encode (s.header type number now.utc ++ body))
  append .outbound number frame
  -- A message that was refused has used up no number.
  modify fun s => { s with
    sequences := s.sequences.allocate
    heartbeat := s.heartbeat.onSent now.elapsed }
  return frame

/-- Tells what a received number means, and counts it if it is the expected one. -/
def observe (number : SeqNum) : Call σ SequenceOutcome :=
  modifyGet fun s =>
    let (outcome, sequences) := s.sequences.observe number
    (outcome, { s with sequences })

/-- Parks a message until the gap before it is filled. -/
def park (number : SeqNum) (p : Parked) : Call σ Unit := do
  let s ← get
  let recovery ← Call.ofExcept .session (s.recovery.park number p)
  set { s with recovery }

/-- Asks for the messages from `first` to `last`, and reports the gap. -/
def requestResend [MessageStore σ] (first last : SeqNum) (now : Moment) : Call σ Reaction := do
  let frame ← emit .resendRequest [.ofSeqNum .beginSeqNo first, .ofSeqNum .endSeqNo last] now
  modify fun s => { s with recovery := s.recovery.start first last now.elapsed }
  return {
    outbound := [frame]
    delivered := []
    reported := [⟨.sequence (.gap first (last + 1)), .resendRequest first last⟩] }

end Session

end FixProtocol
