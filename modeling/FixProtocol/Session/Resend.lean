import FixProtocol.Session.Basic

/-!
# Serving resend requests

A request names a range of numbers. Application messages in it are sent again as they were, marked
as possible duplicates; everything else in it, be it of the session, unreadable or missing, is
passed over by gap fills.

- `Resend.plan`: which messages are sent again and where gaps are filled.
- `Resend.duplicate`: a message as it is sent again.
- `Session.serveResend`: answers a request.
-/

namespace FixProtocol

/-- One answer to a resend request. -/
inductive ResendItem where
  /-- A stored message is sent again. -/
  | again (number : SeqNum) (message : Message)
  /-- The numbers from `first` on are passed over; `following` is the next one. -/
  | fill (first following : SeqNum)
deriving DecidableEq

namespace Resend

/-- A gap fill for the numbers from `first` up to the one before `following`, if there are any. -/
def fillUpTo (first following : SeqNum) : List ResendItem :=
  if first < following then [.fill first following] else []

/-- Answers for the numbers from `next` to `last`, given what can be sent again of the stored
ones, in ascending order. -/
def plan (last : SeqNum) (next : SeqNum) : List (SeqNum × Option Message) → List ResendItem
  | [] => fillUpTo next (last + 1)
  | (number, some message) :: stored =>
    fillUpTo next number ++ .again number message :: plan last (number + 1) stored
  -- What cannot be sent again is left to the next gap fill, as holes are.
  | (_, none) :: stored => plan last next stored

/-- The stored message, if it can be read and is the application's. -/
def resendable? (version : String) (frame : Bytes) : Option Message :=
  match Message.decode version frame with
  | .ok m => if m.msgType.isApp then some m else none
  | .error _ => none

/-- A message as it is sent again: it says that it may be a duplicate, carries the new time, and
tells the old one. -/
def duplicate (message : Message) (time : Timestamp) : Message :=
  let marked := (message.set (.ofTimestamp .sendingTime time)).set (.ofBool .possDupFlag true)
  match message.get? .sendingTime with
  | some old => marked.set ⟨.origSendingTime, old.value⟩
  | none => marked

end Resend

namespace Session

variable {σ : Type} [MessageStore σ]

/-- The message that passes over the numbers from `first` up to the one before `following`. -/
def gapFill (s : Session σ) (first following : SeqNum) (time : Timestamp) : Message :=
  ⟨s.header .sequenceReset first time ++
    [.ofBool .possDupFlag true, .ofTimestamp .origSendingTime time, .ofBool .gapFillFlag true,
      .ofSeqNum .newSeqNo following]⟩

/-- One answer as a message. -/
def resendMessage (s : Session σ) (time : Timestamp) : ResendItem → Message
  | .again _ message => Resend.duplicate message time
  | .fill first following => s.gapFill first following time

/-- The number in a field of a request, which must be there. -/
def requestedNumber (request : Message) (tag : Tag) (what : String) : Except DecodeError SeqNum :=
  match request.nat64? tag with
  | some n => .ok n
  | none => .error (.malformedField tag ("ResendRequest without " ++ what))

/-- The last number of a request, of which only those that were sent count; zero asks for all. -/
def lastRequested (s : Session σ) (requested : SeqNum) : SeqNum :=
  let lastSent := s.sequences.nextOutgoing.previous
  if requested = 0 then lastSent else min requested lastSent

/-- Answers a resend request. -/
def serveResend (request : Message) (now : Moment) : Call σ Reaction := do
  let begun ← Call.ofExcept .decode (requestedNumber request .beginSeqNo "BeginSeqNo")
  let requested ← Call.ofExcept .decode (requestedNumber request .endSeqNo "EndSeqNo")
  let first := max begun .first
  let last := (← get).lastRequested requested
  if last < first then
    return .empty
  else
    let stored ← Call.onStore fun store => MessageStore.range store .outbound first last
    let s ← get
    let items := Resend.plan last first
      (stored.map fun e => (e.1, Resend.resendable? s.config.beginString e.2))
    let frames ← Call.ofExcept .encode
      (items.mapM fun item => (s.resendMessage now.utc item).encode)
    -- Messages sent again keep their numbers, so they are neither counted nor stored.
    modify fun s => { s with heartbeat := s.heartbeat.onSent now.elapsed }
    return ⟨frames, [], []⟩

end Session

end FixProtocol
