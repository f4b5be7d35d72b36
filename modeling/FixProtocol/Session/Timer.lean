import FixProtocol.Session.Basic

/-!
# Timers

- `Session.tick`: what is due at a moment: an unanswered logon or logout ends the session,
  heartbeats and test requests keep it alive, and an unanswered resend request is repeated.
-/

namespace FixProtocol.Session

variable {σ : Type} [MessageStore σ]

/-- Sends the heartbeat or test request that is due, or gives up on an unanswered test request. -/
def keepAlive (now : Moment) : Call σ Reaction := do
  let s ← get
  let (due, heartbeat) := s.heartbeat.poll now
  set { s with heartbeat }
  match due with
  | some (.timedOut waited) => throw (.session (.heartbeatTimeout waited))
  | some (.sendTestRequest testReqId) =>
    Reaction.ofFrame <$> emit .testRequest [.ofText .testReqId testReqId] now
  | some .sendHeartbeat => Reaction.ofFrame <$> emit .heartbeat [] now
  | none => return .empty

/-- Repeats an unanswered resend request, or gives up on it. -/
def retryResend (now : Moment) : Call σ Reaction := do
  let s ← get
  let (decision, recovery) := s.recovery.pollRetry now.elapsed s.sequences.expectedIncoming
    s.config.resendTimeout s.config.resendRetryLimit
  set { s with recovery }
  match decision with
  | some (.reissue first last) =>
    Reaction.ofFrame <$>
      emit .resendRequest [.ofSeqNum .beginSeqNo first, .ofSeqNum .endSeqNo last] now
  | some (.exhausted error) => throw (.session error)
  | none => return .empty

/-- What is due at a moment. -/
def tick (now : Moment) : Call σ Reaction := do
  let s ← get
  let inState := now.elapsed - s.since
  if s.terminated then
    return .empty
  else
    match s.state with
    | .disconnected => return .empty
    | .logonSent =>
      if s.config.logonTimeout ≤ inState then throw (.session (.logonTimeout inState))
      else return .empty
    | .logoutSent =>
      if s.config.logoutTimeout ≤ inState then set (s.terminate now)
      return .empty
    | .loggedOn =>
      -- A session that is given up on asks for nothing again.
      let alive ← keepAlive now
      let retried ← retryResend now
      return alive ++ retried

end FixProtocol.Session
