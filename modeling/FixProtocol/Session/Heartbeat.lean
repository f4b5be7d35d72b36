import FixProtocol.Clock.Timestamp

/-!
# Heartbeats

When nothing was sent for an interval, a heartbeat is due. When nothing was received for an
interval, a test request is due, and its answer must come within a time of grace.

- `HeartbeatMonitor`: when something was last sent and received, and the test request that waits.
- `HeartbeatMonitor.poll`: what is due now.

A clock that runs backwards counts as standing still: differences stop at zero.
-/

namespace FixProtocol

/-- What keeping a session alive asks for. -/
inductive Liveness where
  | sendHeartbeat
  | sendTestRequest (id : String)
  | timedOut (waited : Nat)
deriving DecidableEq, Repr

/-- When something was last sent and received. -/
structure HeartbeatMonitor where
  interval : Nat
  grace : Nat
  lastSent : Nat
  lastReceived : Nat
  /-- The identifier of the test request that waits for its answer, and when it was made. -/
  pending : Option (String × Nat)
deriving DecidableEq, Repr

namespace HeartbeatMonitor

/-- A monitor for which everything happened just now. -/
def startingAt (interval grace now : Nat) : HeartbeatMonitor :=
  ⟨interval, grace, now, now, none⟩

/-- Something was sent. -/
def onSent (m : HeartbeatMonitor) (now : Nat) : HeartbeatMonitor :=
  { m with lastSent := now }

/-- Something was received. -/
def onReceived (m : HeartbeatMonitor) (now : Nat) : HeartbeatMonitor :=
  { m with lastReceived := now }

/-- Does a heartbeat with this identifier answer the test request that waits? -/
def isAnswer (m : HeartbeatMonitor) (id : Option String) : Bool :=
  match m.pending, id with
  | some (waiting, _), some received => waiting = received
  | _, _ => false

/-- A heartbeat was received; the test request that it answers waits no longer. -/
def onHeartbeat (m : HeartbeatMonitor) (id : Option String) : HeartbeatMonitor :=
  if m.isAnswer id then { m with pending := none } else m

/-- How long nothing was received. -/
def sinceReceived (m : HeartbeatMonitor) (now : Nat) : Nat :=
  now - m.lastReceived

/-- Is a heartbeat due? -/
def heartbeatDue (m : HeartbeatMonitor) (now : Nat) : Option Liveness :=
  if m.interval ≤ now - m.lastSent then some .sendHeartbeat else none

/-- What is due now. A test request counts as sent when it becomes due. -/
def poll (m : HeartbeatMonitor) (now : Moment) : Option Liveness × HeartbeatMonitor :=
  match m.pending with
  | some (_, since) =>
    -- While an answer is awaited no second test request is made, but heartbeats go on.
    if m.grace ≤ now.elapsed - since then (some (.timedOut (now.elapsed - since)), m)
    else (m.heartbeatDue now.elapsed, m)
  | none =>
    if m.interval ≤ m.sinceReceived now.elapsed then
      let id := now.testReqId
      (some (.sendTestRequest id),
        { m with pending := some (id, now.elapsed), lastSent := now.elapsed })
    else (m.heartbeatDue now.elapsed, m)

/-- Starts anew with another interval. -/
def reset (m : HeartbeatMonitor) (interval now : Nat) : HeartbeatMonitor :=
  { m with interval, lastSent := now, lastReceived := now, pending := none }

end HeartbeatMonitor

end FixProtocol
