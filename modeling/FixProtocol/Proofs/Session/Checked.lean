import FixProtocol.Proofs.Session.Ends

/-!
# Sessions that check their steps

Here every call of a session is made once more, with a check at each place where it relies on
something that is not looked at there: a sum or a difference of numbers must be a word, a state must
be one that may be entered, the number that was used up must be the one that the message carries, and
a parked message that is taken must be in order. A check that does not hold stops the call for good.

- `Session.Checked`: what a checked call does. `Checked.plain` is a call without checks.
- `Checked.plus`, `Checked.minus`, `Checked.ensure`: the checks.
- `Checked.emit`, `Checked.process`, `Checked.tick` and so on: each call with its checks.
- `Checked.step?`, `Checked.steps?`: an operation and a list of them, or nothing if a check does not
  hold.
-/

namespace FixProtocol.Session

/-- Why a checked call stops: the session's own error, or a check. -/
inductive Stop where
  | failed (error : Error)
  /-- A sum or a difference is not a word. -/
  | overflow
  /-- What must hold does not. -/
  | assertion

/-- What a checked call does. -/
abbrev Checked (σ : Type) := EStateM Stop (Session σ)

namespace Checked

variable {σ α β : Type}

/-- A call in which nothing is checked. -/
def plain (c : Call σ α) : Checked σ α := fun s =>
  match c s with
  | .ok a t => .ok a t
  | .error e t => .error (.failed e) t

/-! ## Checks -/

/-- A sum that must be a word. -/
def plus (a b : SeqNum) : Checked σ SeqNum :=
  if a.toNat + b.toNat < UInt64.size then pure (a + b) else throw .overflow

/-- A difference that must not be below zero. -/
def minus (a b : SeqNum) : Checked σ SeqNum :=
  if b.toNat ≤ a.toNat then pure (a - b) else throw .overflow

/-- Something that must hold. -/
def ensure (holds : Bool) : Checked σ Unit :=
  if holds then pure () else throw .assertion

/-- Enters a state, which must be one that may follow. -/
def enter (state : SessionState) (now : Moment) : Checked σ Unit := do
  ensure ((← get).state.canBecome state)
  modify fun s => s.enter state now

/-- Ends the session. -/
def terminate (now : Moment) : Checked σ Unit := do
  modify fun s => { s with recovery := s.recovery.clear, terminated := true }
  enter .disconnected now

/-- The transport is gone. -/
def disconnect (now : Moment) : Checked σ Unit := do
  if (← get).terminated then return ()
  else terminate now

variable [MessageStore σ]

/-! ## Sending -/

/-- Sends a message under the next number, which must be the one that is used up then. -/
def emit (type : MsgType) (body : List Field) (now : Moment) : Checked σ Bytes := do
  let s ← get
  let number := s.sequences.nextOutgoing
  let frame ← plain (Call.ofExcept .encode (Wire.encode (s.header type number now.utc ++ body)))
  plain (append .outbound number frame)
  let allocated := (← get).sequences.nextOutgoing
  ensure (allocated = number)
  modify fun s => { s with
    sequences := s.sequences.allocate
    heartbeat := s.heartbeat.onSent now.elapsed }
  return frame

/-- Asks for the messages from `first` to `last`, after which there must be another number. -/
def requestResend (first last : SeqNum) (now : Moment) : Checked σ Reaction := do
  let frame ← emit .resendRequest [.ofSeqNum .beginSeqNo first, .ofSeqNum .endSeqNo last] now
  modify fun s => { s with recovery := s.recovery.start first last now.elapsed }
  let received ← plus last 1
  return {
    outbound := [frame]
    delivered := []
    reported := [⟨.sequence (.gap first received), .resendRequest first last⟩] }

/-- Asks for the messages from `first` to the one before `number`, which must not be zero. -/
def requestBefore (first number : SeqNum) (now : Moment) : Checked σ Reaction := do
  let last ← minus number 1
  requestResend first last now

/-- The answers for the numbers from `next` to `last`. After each stored number, and after the last
one, there must be another. -/
def plan (last : SeqNum) (next : SeqNum) :
    List (SeqNum × Option Message) → Checked σ (List ResendItem)
  | [] => do
    let following ← plus last 1
    return Resend.fillUpTo next following
  | (number, readable) :: stored => do
    let following ← plus number 1
    match readable with
    | some message => do
      let more ← plan last following stored
      return Resend.fillUpTo next number ++ .again number message :: more
    | none => plan last next stored

/-- Answers a resend request. -/
def serveResend (request : Message) (now : Moment) : Checked σ Reaction := do
  let begun ← plain (Call.ofExcept .decode (requestedNumber request .beginSeqNo "BeginSeqNo"))
  let requested ← plain (Call.ofExcept .decode (requestedNumber request .endSeqNo "EndSeqNo"))
  let first := max begun .first
  let last := (← get).lastRequested requested
  if last < first then
    return .empty
  else
    let stored ← plain (Call.onStore fun store => MessageStore.range store .outbound first last)
    let s ← get
    let items ← plan last first
      (stored.map fun e => (e.1, Resend.resendable? s.config.beginString e.2))
    let frames ← plain (Call.ofExcept .encode
      (items.mapM fun item => (s.resendMessage now.utc item).encode))
    modify fun s => { s with heartbeat := s.heartbeat.onSent now.elapsed }
    return ⟨frames, [], []⟩

/-! ## Messages in order -/

/-- A logout ends the session. -/
def onLogout (now : Moment) : Checked σ Reaction := do
  let s ← get
  let reaction ←
    if s.state = .logoutSent then pure Reaction.empty
    else Reaction.ofFrame <$> emit .logout [] now
  terminate now
  return reaction

/-- What a message asks for. -/
def dispatch (m : Message) (replaying : Bool) (now : Moment) : Checked σ Reaction :=
  match m.msgType with
  | .heartbeat => do
    modify fun s => { s with heartbeat := s.heartbeat.onHeartbeat (m.text? .testReqId) }
    return .empty
  | .testRequest => Reaction.ofFrame <$> emit .heartbeat (m.get? .testReqId).toList now
  | .resendRequest => serveResend m now
  | .sequenceReset => do
    plain (applySequenceReset m)
    return .empty
  | .logout => onLogout now
  | .logon => do
    if replaying then return .empty
    else plain (throw (unexpected .logon (← get).state))
  | _ => return .ofMessage m

/-- Takes a message whose number was counted. -/
def accept (number : SeqNum) (p : Parked) (replaying : Bool) (now : Moment) :
    Checked σ Reaction := do
  plain (append .inbound number p.frame)
  dispatch p.message replaying now

/-- Takes up to `count` parked messages; the one that is taken must be in order. -/
def replay (now : Moment) : Nat → Checked σ Reaction
  | 0 => return .empty
  | count + 1 => do
    let s ← get
    if s.terminated then
      return .empty
    else
      let expected := s.sequences.expectedIncoming
      let (ready, recovery) := s.recovery.takeReady expected
      set { s with recovery }
      match ready with
      | none => return .empty
      | some p =>
        let outcome ← plain (observe expected)
        ensure (outcome = .inOrder)
        let taken ← accept expected p true now
        let more ← replay now count
        return taken ++ more

/-- Closes a request that was fulfilled, and makes a new one up to the number before the first parked
one. -/
def closeGap (now : Moment) : Checked σ Reaction := do
  modify fun s => { s with recovery := (s.recovery.onAdvanced s.sequences.expectedIncoming).2 }
  let s ← get
  let expected := s.sequences.expectedIncoming
  match s.recovery.first? with
  | none => return .empty
  | some first =>
    if s.recovery.isRequesting ∨ first ≤ expected then return .empty
    else requestBefore expected first now

/-- Takes all parked messages whose turn has come. -/
def drain (now : Moment) : Checked σ Reaction := do
  let taken ← replay now (← get).recovery.size
  if (← get).terminated then
    return taken
  else
    let asked ← closeGap now
    return taken ++ asked

/-! ## Frames -/

/-- Logs on, which must be possible in the state. -/
def establish (seconds : Nat) (now : Moment) : Checked σ Reaction := do
  let s ← get
  let reaction ←
    match s.config.role with
    | .initiator => pure Reaction.empty
    | .acceptor =>
      Reaction.ofFrame <$>
        emit .logon [.ofNat .encryptMethod 0, .ofNat .heartBtInt seconds] now
  modify fun s => { s with heartbeat := s.heartbeat.reset (seconds * 1000) now.elapsed }
  enter .loggedOn now
  return reaction

/-- A message that arrives before this side is logged on. -/
def onLogonPhase (number : SeqNum) (p : Parked) (now : Moment) : Checked σ Reaction := do
  let s ← get
  plain (Call.ofExcept (fun e => e) (s.checkLogon p.message))
  let seconds ← plain (Call.ofExcept .session (s.agreeHeartbeat p.message))
  match ← plain (observe number) with
  | .duplicate expected received =>
    plain (throw (.session (.logonRejected s!"MsgSeqNum {received} below expected {expected}")))
  | .inOrder =>
    let answered ← establish seconds now
    plain (append .inbound number p.frame)
    return answered
  | .gap expected received =>
    let answered ← establish seconds now
    plain (park number p)
    let asked ← requestBefore expected received now
    return answered ++ asked

/-- A message that counts in the numbering. -/
def onNumbered (number : SeqNum) (p : Parked) (now : Moment) : Checked σ Reaction := do
  match ← plain (observe number) with
  | .inOrder =>
    let taken ← accept number p false now
    let more ← drain now
    return taken ++ more
  | .duplicate expected received =>
    return .ofReport ⟨.sequence (.duplicate expected received), .ignore⟩
  | .gap expected received =>
    plain (park number p)
    if (← get).recovery.isRequesting then return .empty
    else requestBefore expected received now

/-- What a session makes of a frame. -/
def process (frame : Bytes) (now : Moment) : Checked σ Reaction := do
  plain ensureOpen
  let s ← get
  let message ← plain (Call.ofExcept .decode (Message.decode s.config.beginString frame))
  modify fun s => { s with heartbeat := s.heartbeat.onReceived now.elapsed }
  plain (Call.ofExcept .session (s.checkCompIds message))
  let number ← plain (Call.ofExcept .decode (checkNumber message))
  match s.state with
  | .disconnected | .logonSent => onLogonPhase number ⟨message, frame⟩ now
  | .loggedOn | .logoutSent =>
    if isPlainReset message then
      plain (applySequenceReset message)
      drain now
    else onNumbered number ⟨message, frame⟩ now

/-! ## Timers -/

/-- Sends the heartbeat or test request that is due. -/
def keepAlive (now : Moment) : Checked σ Reaction := do
  let s ← get
  let (due, heartbeat) := s.heartbeat.poll now
  set { s with heartbeat }
  match due with
  | some (.timedOut waited) => plain (throw (.session (.heartbeatTimeout waited)))
  | some (.sendTestRequest testReqId) =>
    Reaction.ofFrame <$> emit .testRequest [.ofText .testReqId testReqId] now
  | some .sendHeartbeat => Reaction.ofFrame <$> emit .heartbeat [] now
  | none => return .empty

/-- Repeats an unanswered resend request. -/
def retryResend (now : Moment) : Checked σ Reaction := do
  let s ← get
  let (decision, recovery) := s.recovery.pollRetry now.elapsed s.sequences.expectedIncoming
    s.config.resendTimeout s.config.resendRetryLimit
  set { s with recovery }
  match decision with
  | some (.reissue first last) =>
    Reaction.ofFrame <$>
      emit .resendRequest [.ofSeqNum .beginSeqNo first, .ofSeqNum .endSeqNo last] now
  | some (.exhausted error) => plain (throw (.session error))
  | none => return .empty

/-- What is due at a moment. -/
def tick (now : Moment) : Checked σ Reaction := do
  let s ← get
  let inState := now.elapsed - s.since
  if s.terminated then
    return .empty
  else
    match s.state with
    | .disconnected => return .empty
    | .logonSent =>
      if s.config.logonTimeout ≤ inState then plain (throw (.session (.logonTimeout inState)))
      else return .empty
    | .logoutSent =>
      if s.config.logoutTimeout ≤ inState then terminate now
      return .empty
    | .loggedOn =>
      let alive ← keepAlive now
      let retried ← retryResend now
      return alive ++ retried

/-! ## What the owner asks for -/

/-- Begins a session. -/
def logon (now : Moment) : Checked σ Bytes := do
  plain ensureOpen
  plain ensureInitiator
  plain (ensureState .disconnected)
  let seconds := (← get).config.heartbeatSeconds
  let frame ← emit .logon [.ofNat .encryptMethod 0, .ofNat .heartBtInt seconds] now
  enter .logonSent now
  return frame

/-- Sends a message of the application. -/
def send (type : MsgType) (fields : List Field) (now : Moment) : Checked σ Bytes := do
  plain ensureOpen
  plain (ensureState .loggedOn)
  plain (Call.ofExcept .encode (checkSend type fields))
  emit type fields now

/-- Asks for the end of the session. -/
def logout (text : Option String) (now : Moment) : Checked σ Bytes := do
  plain ensureOpen
  plain (ensureState .loggedOn)
  let frame ← emit .logout (text.map (Field.ofText .text)).toList now
  enter .logoutSent now
  return frame

/-! ## Operations -/

omit [MessageStore σ] in
/-- The answer of a call and the session that it leaves behind, or nothing if a check does not
hold. -/
def run? (c : Checked σ α) (s : Session σ) : Option (Except Error α × Session σ) :=
  match c s with
  | .ok a t => some (.ok a, t)
  | .error (.failed e) t => some (.error e, t)
  | .error _ _ => none

omit [MessageStore σ] in
/-- The same of a call that ends the session when it fails. -/
def settle? (c : Checked σ Reaction) (s : Session σ) (now : Moment) :
    Option (Except Failure Reaction × Session σ) := do
  match ← run? c s with
  | (.ok r, t) => return (.ok r, t)
  | (.error e, t) =>
    let (_, t) ← run? (terminate now) t
    return (.error ⟨e, .disconnect⟩, t)

/-- One operation, or nothing if a check does not hold. -/
def step? (s : Session σ) : Operation → Option (Outcome × Session σ)
  | .logon now => do
    let (answer, t) ← run? (logon now) s
    return (.sent answer, t)
  | .send type fields now => do
    let (answer, t) ← run? (send type fields now) s
    return (.sent answer, t)
  | .logout text now => do
    let (answer, t) ← run? (logout text now) s
    return (.sent answer, t)
  | .receive frame now => do
    let (answer, t) ← settle? (process frame now) s now
    return (.reacted answer, t)
  | .timer now => do
    let (answer, t) ← settle? (tick now) s now
    return (.reacted answer, t)
  | .disconnect now => do
    let (_, t) ← run? (disconnect now) s
    return (.closed, t)

/-- The outcomes of a list of operations, and the session after them, or nothing if a check does not
hold. -/
def steps? (s : Session σ) : List Operation → Option (List Outcome × Session σ)
  | [] => some ([], s)
  | op :: ops => do
    let (outcome, t) ← step? s op
    let (outcomes, u) ← steps? t ops
    return (outcome :: outcomes, u)

end Checked

end FixProtocol.Session
