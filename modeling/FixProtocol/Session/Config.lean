import FixProtocol.CompId
import FixProtocol.Error
import FixProtocol.Session.State
import FixProtocol.Text.Quoted

/-!
# Session settings

- `SessionConfig`: who the two sides are, how long to wait for what, and how much to hold.
- `SessionConfig.withHeartbeatInterval`: sets the interval, and with it the waiting times that
  still equal the old one.
- `SessionConfig.validate`: what is wrong with the settings, if anything.
- `Setting`: one setting and its value; `SessionConfig.adjust` puts it into complete settings.
- `Given`: a setting, a name or the protocol version, as they are given one by one.
- `SessionSettings`: what was given so far; `SessionSettings.build` fills in the rest and checks.

All times of a session are in milliseconds. How defaults are filled in and settings are checked
does not hang on that: `SessionConfig.defaultIn`, `SessionConfig.validateIn` and
`SessionSettings.buildIn` are told how many units of time a second has.
-/

namespace FixProtocol

/-- The settings of one side of a session. -/
structure SessionConfig where
  sender : CompId
  target : CompId
  beginString : String
  role : Role
  /-- After this long without sending or receiving, something is due. -/
  heartbeatInterval : Nat
  /-- How long a logon may stay unanswered. -/
  logonTimeout : Nat
  /-- How long a logout may stay unanswered. -/
  logoutTimeout : Nat
  /-- How long a test request may stay unanswered. -/
  testRequestGrace : Nat
  /-- How long a resend request may stay unanswered before it is repeated. -/
  resendTimeout : Nat
  /-- How often the same messages may be requested. -/
  resendRetryLimit : Nat
  /-- The greatest frame, in bytes. -/
  maxMessageSize : Nat
  /-- How many messages may wait behind a gap. -/
  maxBufferedMessages : Nat
deriving DecidableEq

/-- One setting and its value. -/
inductive Setting where
  | role (r : Role)
  | heartbeatInterval (ms : Nat)
  | logonTimeout (ms : Nat)
  | logoutTimeout (ms : Nat)
  | testRequestGrace (ms : Nat)
  | resendTimeout (ms : Nat)
  | resendRetryLimit (n : Nat)
  | maxMessageSize (n : Nat)
  | maxBufferedMessages (n : Nat)
deriving DecidableEq

namespace SessionConfig

/-- The longest heartbeat interval, in seconds. -/
def maxHeartbeatSeconds : Nat := 3600

/-- The settings of an initiator where nothing is said about times and limits, when a second has
`second` units of time. -/
def defaultIn (second : Nat) (sender target : CompId) (beginString : String) : SessionConfig where
  sender := sender
  target := target
  beginString := beginString
  role := .initiator
  heartbeatInterval := 30 * second
  logonTimeout := 30 * second
  logoutTimeout := 10 * second
  testRequestGrace := 30 * second
  resendTimeout := 30 * second
  resendRetryLimit := 3
  maxMessageSize := 1048576
  maxBufferedMessages := 10000

/-- The same in milliseconds. -/
def default (sender target : CompId) (beginString : String) : SessionConfig :=
  defaultIn 1000 sender target beginString

/-- A waiting time that follows the interval as long as the two agree. -/
def following (old new timeout : Nat) : Nat :=
  if timeout = old then new else timeout

/-- Sets the heartbeat interval. The waiting times for a logon, a test request and a resend follow
it if they equal the old interval. -/
def withHeartbeatInterval (c : SessionConfig) (interval : Nat) : SessionConfig :=
  { c with
    heartbeatInterval := interval
    logonTimeout := following c.heartbeatInterval interval c.logonTimeout
    testRequestGrace := following c.heartbeatInterval interval c.testRequestGrace
    resendTimeout := following c.heartbeatInterval interval c.resendTimeout }

/-- Puts one setting into complete settings. -/
def adjust (c : SessionConfig) : Setting → SessionConfig
  | .role r => { c with role := r }
  | .heartbeatInterval ms => c.withHeartbeatInterval ms
  | .logonTimeout ms => { c with logonTimeout := ms }
  | .logoutTimeout ms => { c with logoutTimeout := ms }
  | .testRequestGrace ms => { c with testRequestGrace := ms }
  | .resendTimeout ms => { c with resendTimeout := ms }
  | .resendRetryLimit n => { c with resendRetryLimit := n }
  | .maxMessageSize n => { c with maxMessageSize := n }
  | .maxBufferedMessages n => { c with maxBufferedMessages := n }

/-- Whole seconds of the heartbeat interval, as the logon declares it. -/
def heartbeatSeconds (c : SessionConfig) : Nat :=
  c.heartbeatInterval / 1000

/-- The identity of the session. -/
def sessionId (c : SessionConfig) : SessionId :=
  ⟨c.beginString, c.sender, c.target⟩

/-- A condition of valid settings, or what is said when it fails. -/
def demand (holds : Bool) (reason : String) : Except SessionError Unit :=
  if holds then .ok () else .error (.configuration reason)

/-- Checks the settings, when a second has `second` units of time; the first fault is reported. -/
def validateIn (second : Nat) (c : SessionConfig) : Except SessionError Unit := do
  demand (c.beginString ≠ "") "begin_string must not be empty"
  demand (Bytes.soh ∉ Utf8.bytes c.beginString) "begin_string must not contain SOH"
  demand (1 ≤ c.heartbeatInterval / second && c.heartbeatInterval / second ≤ maxHeartbeatSeconds)
    "heartbeat_interval must be 1..=3600 whole seconds"
  demand (c.logonTimeout ≠ 0) "logon_timeout must be non-zero"
  demand (c.logoutTimeout ≠ 0) "logout_timeout must be non-zero"
  demand (c.testRequestGrace ≠ 0) "test_request_grace must be non-zero"
  demand (c.resendTimeout ≠ 0) "resend_timeout must be non-zero"
  demand (c.resendRetryLimit ≠ 0) "resend_retry_limit must be at least 1"
  demand (c.maxMessageSize ≠ 0) "max_message_size must be non-zero"
  demand (c.maxBufferedMessages ≠ 0) "max_buffered_messages must be non-zero"

/-- Checks the settings of a session. -/
def validate (c : SessionConfig) : Except SessionError Unit :=
  c.validateIn 1000

end SessionConfig

/-- One thing that is said about a session to be made. -/
inductive Given where
  | sender (text : String)
  | target (text : String)
  | beginString (text : String)
  | setting (s : Setting)
deriving DecidableEq

/-- Settings given one by one; what is not given keeps its default. -/
structure SessionSettings where
  sender : Option String
  target : Option String
  beginString : Option String
  role : Role
  heartbeatInterval : Option Nat
  logonTimeout : Option Nat
  logoutTimeout : Option Nat
  testRequestGrace : Option Nat
  resendTimeout : Option Nat
  resendRetryLimit : Option Nat
  maxMessageSize : Option Nat
  maxBufferedMessages : Option Nat
deriving DecidableEq

namespace SessionSettings

/-- Nothing is given. -/
def empty : SessionSettings :=
  ⟨none, none, none, .initiator, none, none, none, none, none, none, none, none⟩

/-- Notes one setting, whatever was given for it before. -/
def give (s : SessionSettings) : Setting → SessionSettings
  | .role r => { s with role := r }
  | .heartbeatInterval ms => { s with heartbeatInterval := some ms }
  | .logonTimeout ms => { s with logonTimeout := some ms }
  | .logoutTimeout ms => { s with logoutTimeout := some ms }
  | .testRequestGrace ms => { s with testRequestGrace := some ms }
  | .resendTimeout ms => { s with resendTimeout := some ms }
  | .resendRetryLimit n => { s with resendRetryLimit := some n }
  | .maxMessageSize n => { s with maxMessageSize := some n }
  | .maxBufferedMessages n => { s with maxBufferedMessages := some n }

/-- Notes one thing, whatever was said about it before. -/
def note (s : SessionSettings) : Given → SessionSettings
  | .sender text => { s with sender := some text }
  | .target text => { s with target := some text }
  | .beginString text => { s with beginString := some text }
  | .setting x => s.give x

/-- What is noted after all that was said, in order. -/
def ofGiven (all : List Given) : SessionSettings :=
  all.foldl note empty

/-- A required name, which errors call `what`. -/
def requireCompId (what : String) (given : Option String) : Except SessionError CompId :=
  match given with
  | none => .error (.configuration (what ++ " is required"))
  | some text =>
    match CompId.ofText? text with
    | some id => .ok id
    | none => .error (.configuration (what ++ " " ++ Quoted.text text ++ " is not a valid CompID"))

/-- The required protocol version. -/
def requireBeginString (given : Option String) : Except SessionError String :=
  match given with
  | none => .error (.configuration "begin_string is required")
  | some text => .ok text

/-- The settings with those that were given in the place of the defaults. The interval comes first,
so that a waiting time that is given stays as given. -/
def applyTo (s : SessionSettings) (c : SessionConfig) : SessionConfig :=
  let c := { c with role := s.role }
  let c := match s.heartbeatInterval with
    | some interval => c.withHeartbeatInterval interval
    | none => c
  { c with
    logonTimeout := s.logonTimeout.getD c.logonTimeout
    logoutTimeout := s.logoutTimeout.getD c.logoutTimeout
    testRequestGrace := s.testRequestGrace.getD c.testRequestGrace
    resendTimeout := s.resendTimeout.getD c.resendTimeout
    resendRetryLimit := s.resendRetryLimit.getD c.resendRetryLimit
    maxMessageSize := s.maxMessageSize.getD c.maxMessageSize
    maxBufferedMessages := s.maxBufferedMessages.getD c.maxBufferedMessages }

/-- The complete settings, checked, when a second has `second` units of time. -/
def buildIn (second : Nat) (s : SessionSettings) : Except SessionError SessionConfig := do
  let sender ← requireCompId "sender_comp_id" s.sender
  let target ← requireCompId "target_comp_id" s.target
  let beginString ← requireBeginString s.beginString
  let config := s.applyTo (.defaultIn second sender target beginString)
  config.validateIn second
  return config

/-- The complete settings of a session, checked. -/
def build (s : SessionSettings) : Except SessionError SessionConfig :=
  s.buildIn 1000

end SessionSettings

end FixProtocol
