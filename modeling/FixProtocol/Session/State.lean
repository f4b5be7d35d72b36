/-!
# Session states

- `SessionState`: where a session stands between logon and logout.
- `SessionState.canBecome`: which state may follow which.
- `Role`: which side begins.
-/

namespace FixProtocol

/-- Where a session stands. -/
inductive SessionState where
  | disconnected
  | logonSent
  | loggedOn
  | logoutSent
deriving DecidableEq, Repr

namespace SessionState

/-- The name of a state. -/
def name : SessionState → String
  | disconnected => "Disconnected"
  | logonSent => "LogonSent"
  | loggedOn => "LoggedOn"
  | logoutSent => "LogoutSent"

/-- May `next` follow this state? Every state may end; the others lead from logon to logout, where
an acceptor goes straight to being logged on. -/
def canBecome : SessionState → SessionState → Bool
  | _, disconnected => true
  | disconnected, logonSent => true
  | disconnected, loggedOn => true
  | logonSent, loggedOn => true
  | loggedOn, logoutSent => true
  | _, _ => false

end SessionState

/-- Which side of a session this is: the one that sends the first logon or the one that answers. -/
inductive Role where
  | initiator
  | acceptor
deriving DecidableEq, Repr

/-- The name of a role. -/
def Role.name : Role → String
  | initiator => "initiator"
  | acceptor => "acceptor"

end FixProtocol
