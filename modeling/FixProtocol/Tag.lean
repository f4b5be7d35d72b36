/-!
# Field tags

- `Tag`: the number that says what a field means.
- The tags that framing and the session layer interpret, by name.
-/

namespace FixProtocol

/-- The number that says what a field means; on the wire it is never zero. -/
abbrev Tag := UInt32

namespace Tag

/-- First number that a resend request asks for. -/
abbrev beginSeqNo : Tag := 7
/-- Protocol version; the first field of every message. -/
abbrev beginString : Tag := 8
/-- Number of bytes from the third field to the last but one; the second field. -/
abbrev bodyLength : Tag := 9
/-- Sum of all bytes before it; the last field. -/
abbrev checkSum : Tag := 10
/-- Last number that a resend request asks for; zero asks for all that follow the first. -/
abbrev endSeqNo : Tag := 16
/-- Sequence number of the message. -/
abbrev msgSeqNum : Tag := 34
/-- Type of the message; the third field. -/
abbrev msgType : Tag := 35
/-- The number that a sequence reset goes on with. -/
abbrev newSeqNo : Tag := 36
/-- Says that the message may have been sent before. -/
abbrev possDupFlag : Tag := 43
/-- Who sent the message. -/
abbrev senderCompId : Tag := 49
/-- When the message was sent. -/
abbrev sendingTime : Tag := 52
/-- For whom the message is. -/
abbrev targetCompId : Tag := 56
/-- Free text. -/
abbrev text : Tag := 58
/-- Encryption method, always zero here. -/
abbrev encryptMethod : Tag := 98
/-- Heartbeat interval in seconds. -/
abbrev heartBtInt : Tag := 108
/-- Identifier that a test request carries and its answer repeats. -/
abbrev testReqId : Tag := 112
/-- When a message that is sent again was first sent. -/
abbrev origSendingTime : Tag := 122
/-- Says that a sequence reset stands in for messages that are not sent again. -/
abbrev gapFillFlag : Tag := 123

end Tag

end FixProtocol
