import FixProtocol.Session.Resend

/-!
# Receiving

A received frame is decoded, its two sides and its number are checked, and then it is taken in
order, parked behind a gap, or discarded as a duplicate.

- `Session.process`: what a session makes of a frame.
- `Session.onLogonPhase`: before logon, only a logon is understood, and by an initiator a refusal.
- `Session.dispatch`: what a message that is in order asks for.
- `Session.drain`: takes the parked messages whose turn has come.
-/

namespace FixProtocol.Session

variable {σ : Type} [MessageStore σ]

/-- The error for a message of a type that has no place in the current state. -/
def unexpected (type : MsgType) (state : SessionState) : Error :=
  .session (.unexpectedMessageType type.code state.name)

/-! ## Checks -/

/-- A message must come from the counterparty and be meant for this side. -/
def checkCompIds (s : Session σ) (m : Message) : Except SessionError Unit :=
  let sender := (m.text? .senderCompId).getD ""
  let target := (m.text? .targetCompId).getD ""
  let theirs := s.config.target.text
  let ours := s.config.sender.text
  if sender = theirs ∧ target = ours then .ok ()
  else .error (.compIdMismatch (theirs ++ "->" ++ ours) (sender ++ "->" ++ target))

/-- The number of a message, which must be one that messages have. -/
def checkNumber (m : Message) : Except DecodeError SeqNum :=
  match m.seqNum?.filter SeqNum.isValid with
  | some n => .ok n
  | none => .error (.malformedField .msgSeqNum "missing or out of range")

/-- Before logon, an acceptor waits for a logon, and an initiator for the answer to its own. -/
def checkLogon (s : Session σ) (m : Message) : Except Error Unit :=
  match s.state, m.msgType with
  | .logonSent, .logout =>
    .error (.session (.logonRejected ((m.text? .text).getD "logout in reply to logon")))
  | .logonSent, .logon => .ok ()
  | .disconnected, .logon =>
    if s.config.role = .acceptor then .ok () else .error (unexpected .logon s.state)
  | state, type => .error (unexpected type state)

/-- The heartbeat interval of a logon, in seconds. An initiator wants its own back, and an acceptor
takes any that is valid. -/
def agreeHeartbeat (s : Session σ) (logon : Message) : Except SessionError Nat :=
  match logon.nat64? .heartBtInt with
  | none => .error (.logonRejected "HeartBtInt (108) missing")
  | some declared =>
    let seconds := declared.toNat
    let ours := s.config.heartbeatSeconds
    let greatest := SessionConfig.maxHeartbeatSeconds
    match s.config.role with
    | .initiator =>
      if seconds = ours then .ok seconds
      else .error (.logonRejected s!"HeartBtInt {seconds} does not match configured {ours}")
    | .acceptor =>
      if 1 ≤ seconds ∧ seconds ≤ greatest then .ok seconds
      else .error (.logonRejected s!"HeartBtInt {seconds} outside 1..={greatest}")

/-! ## Messages in order -/

/-- Moves the expected number on to the one that a sequence reset names. -/
def applySequenceReset (m : Message) : Call σ Unit := do
  match m.nat64? .newSeqNo with
  | none => throw (.decode (.malformedField .newSeqNo "SequenceReset without NewSeqNo"))
  | some number =>
    let s ← get
    match s.sequences.advanceTo number with
    | (false, _) =>
      throw (.session (.invalidSequenceReset s.sequences.expectedIncoming number))
    | (true, sequences) =>
      set { s with sequences, store := MessageStore.setNextSeq s.store .inbound number }

/-- A logout ends the session; one that this side did not ask for is confirmed first. -/
def onLogout (now : Moment) : Call σ Reaction := do
  let s ← get
  let reaction ←
    if s.state = .logoutSent then pure Reaction.empty
    else Reaction.ofFrame <$> emit .logout [] now
  modify fun s => s.terminate now
  return reaction

/-- What a message asks for. `replaying` tells that it was parked; then a logon, which is what made
the gap known, has been dealt with already. -/
def dispatch (m : Message) (replaying : Bool) (now : Moment) : Call σ Reaction :=
  match m.msgType with
  | .heartbeat => do
    modify fun s => { s with heartbeat := s.heartbeat.onHeartbeat (m.text? .testReqId) }
    return .empty
  | .testRequest => Reaction.ofFrame <$> emit .heartbeat (m.get? .testReqId).toList now
  | .resendRequest => serveResend m now
  | .sequenceReset => do
    applySequenceReset m
    return .empty
  | .logout => onLogout now
  | .logon => do
    if replaying then return .empty
    else throw (unexpected .logon (← get).state)
  | _ => return .ofMessage m

/-- Takes a message whose number was counted: it is kept in the store, and then does what it asks
for. -/
def accept (number : SeqNum) (p : Parked) (replaying : Bool) (now : Moment) : Call σ Reaction := do
  append .inbound number p.frame
  dispatch p.message replaying now

/-- Takes up to `count` parked messages as long as the expected one is among them. -/
def replay (now : Moment) : Nat → Call σ Reaction
  | 0 => return .empty
  | count + 1 => do
    let s ← get
    if s.terminated then
      return .empty
    else
      let expected := s.sequences.expectedIncoming
      let (ready, recovery) := s.recovery.takeReady expected
      set { s with recovery }
      match ready with
      | none => return .empty
      | some p =>
        -- The number is the expected one, so this counts it.
        let _ ← observe expected
        let taken ← accept expected p true now
        let more ← replay now count
        return taken ++ more

/-- Closes a request that was fulfilled, and makes a new one if messages still wait behind a gap. -/
def closeGap (now : Moment) : Call σ Reaction := do
  modify fun s => { s with recovery := (s.recovery.onAdvanced s.sequences.expectedIncoming).2 }
  let s ← get
  let expected := s.sequences.expectedIncoming
  match s.recovery.first? with
  | none => return .empty
  | some first =>
    if s.recovery.isRequesting ∨ first ≤ expected then return .empty
    else requestResend expected (first - 1) now

/-- Takes all parked messages whose turn has come; each is taken at most once. -/
def drain (now : Moment) : Call σ Reaction := do
  let taken ← replay now (← get).recovery.size
  if (← get).terminated then
    return taken
  else
    let asked ← closeGap now
    return taken ++ asked

/-! ## Frames -/

/-- Logs on with the given heartbeat interval, in seconds; an acceptor answers. -/
def establish (seconds : Nat) (now : Moment) : Call σ Reaction := do
  let s ← get
  let reaction ←
    match s.config.role with
    | .initiator => pure Reaction.empty
    | .acceptor =>
      Reaction.ofFrame <$>
        emit .logon [.ofNat .encryptMethod 0, .ofNat .heartBtInt seconds] now
  modify fun s =>
    { s with heartbeat := s.heartbeat.reset (seconds * 1000) now.elapsed }.enter .loggedOn now
  return reaction

/-- A message that arrives before this side is logged on. -/
def onLogonPhase (number : SeqNum) (p : Parked) (now : Moment) : Call σ Reaction := do
  let s ← get
  Call.ofExcept (fun e => e) (s.checkLogon p.message)
  let seconds ← Call.ofExcept .session (s.agreeHeartbeat p.message)
  match ← observe number with
  | .duplicate expected received =>
    throw (.session (.logonRejected s!"MsgSeqNum {received} below expected {expected}"))
  | .inOrder =>
    -- The answer is numbered before the logon is kept.
    let answered ← establish seconds now
    append .inbound number p.frame
    return answered
  | .gap expected received =>
    let answered ← establish seconds now
    park number p
    let asked ← requestResend expected (received - 1) now
    return answered ++ asked

/-- A message that counts in the numbering: it is taken, discarded or parked. -/
def onNumbered (number : SeqNum) (p : Parked) (now : Moment) : Call σ Reaction := do
  match ← observe number with
  | .inOrder =>
    let taken ← accept number p false now
    let more ← drain now
    return taken ++ more
  | .duplicate expected received =>
    return .ofReport ⟨.sequence (.duplicate expected received), .ignore⟩
  | .gap expected received =>
    park number p
    -- A gap is asked for once; more messages from behind it wait with the first.
    if (← get).recovery.isRequesting then return .empty
    else requestResend expected (received - 1) now

/-- A sequence reset that is no gap fill does not count in the numbering. -/
def isPlainReset (m : Message) : Bool :=
  m.msgType = .sequenceReset && !m.isGapFill

/-- What a session makes of a frame. -/
def process (frame : Bytes) (now : Moment) : Call σ Reaction := do
  ensureOpen
  let s ← get
  let message ← Call.ofExcept .decode (Message.decode s.config.beginString frame)
  -- Whatever can be decoded is a sign of life, whoever sent it.
  modify fun s => { s with heartbeat := s.heartbeat.onReceived now.elapsed }
  Call.ofExcept .session (s.checkCompIds message)
  let number ← Call.ofExcept .decode (checkNumber message)
  match s.state with
  | .disconnected | .logonSent => onLogonPhase number ⟨message, frame⟩ now
  | .loggedOn | .logoutSent =>
    -- The number of a plain reset is not looked at: it sets the numbering anew.
    if isPlainReset message then
      applySequenceReset message
      drain now
    else onNumbered number ⟨message, frame⟩ now

end FixProtocol.Session
