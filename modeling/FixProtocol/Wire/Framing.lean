import FixProtocol.Error
import FixProtocol.Numeral

/-!
# Framing

A byte stream holds messages one after the other. The length in the second field says where each
ends, so a frame can be cut off without looking at its fields.

- `Framing.next`: the first frame in a buffer and what follows it, or `none` if more is needed.
- `Framing.frames`: all frames that a buffer yields, what stays, and the error that stops it.
- `Framing.put`: appends a frame to an output buffer.
-/

namespace FixProtocol

/-- Why a buffer does not start with a frame. -/
inductive FramingError where
  | invalidBeginString
  | missingBodyLength
  | invalidBodyLength
  | missingChecksum
  | messageTooLarge (size limit : Nat)
  | io (reason : String)
deriving DecidableEq, Repr

namespace FramingError

/-- The wording of a framing error. -/
def message : FramingError → String
  | invalidBeginString => "invalid begin string: message must start with 8="
  | missingBodyLength => "missing body length field (tag 9)"
  | invalidBodyLength => "invalid body length value"
  | missingChecksum => "frame does not end with a checksum field (tag 10)"
  | messageTooLarge size limit => s!"message too large: {size} bytes exceeds maximum {limit}"
  | io reason => s!"io error: {reason}"

/-- The same error as one of decoding, at the field that is to blame. -/
def toError (e : FramingError) : Error :=
  match e with
  | io reason => .io reason
  | invalidBeginString => .decode (.malformedField .beginString e.message)
  | missingBodyLength | invalidBodyLength | messageTooLarge .. =>
    .decode (.malformedField .bodyLength e.message)
  | missingChecksum => .decode (.malformedField .checkSum e.message)

end FramingError

namespace Framing

/-- The greatest frame size unless another one is set. -/
def defaultLimit : Nat := 1048576

/-- The size of the checksum field, which ends every frame. -/
abbrev trailerLength : Nat := 7

/-- More digits than this make no length. -/
abbrev maxLengthDigits : Nat := 9

/-- The first two bytes of every frame. -/
abbrev versionMark : Bytes := [56, 61]

/-- The two bytes that follow the first field. -/
abbrev lengthMark : Bytes := [57, 61]

/-- The first three bytes of the checksum field. -/
abbrev checksumMark : Bytes := [49, 48, 61]

/-- Is this the checksum field of a frame, whatever it says? -/
def isTrailer (bs : Bytes) : Bool :=
  bs.take 3 = checksumMark && bs.getLast? = some Bytes.soh

/-- The size of the frame that starts `bs`, as far as its first two fields tell; `none` if they are
not complete. `limit` bounds the size. -/
def frameSize (limit : Nat) (bs : Bytes) : Except FramingError (Option Nat) :=
  if !bs.atLeast 2 then .ok none
  else if bs.take 2 ≠ versionMark then .error .invalidBeginString
  else
    match Bytes.cut Bytes.soh bs with
    | none =>
      -- A version that never ends must not fill the buffer.
      if limit < bs.length then .error (.messageTooLarge bs.length limit) else .ok none
    | some (version, rest) =>
      if !rest.atLeast 2 then .ok none
      else if rest.take 2 ≠ lengthMark then .error .missingBodyLength
      else
        match Bytes.cut Bytes.soh (rest.drop 2) with
        | none =>
          if maxLengthDigits < (rest.drop 2).length then .error .invalidBodyLength else .ok none
        | some (digits, _) =>
          if maxLengthDigits < digits.length then .error .invalidBodyLength
          else
            match Numeral.natural? digits with
            | none => .error .invalidBodyLength
            | some length =>
              let size := version.length + digits.length + 4 + length + trailerLength
              if limit < size then .error (.messageTooLarge size limit) else .ok (some size)

/-- The first frame and what follows it; `none` if the frame is not complete. -/
def next (limit : Nat) (bs : Bytes) : Except FramingError (Option (Bytes × Bytes)) :=
  match frameSize limit bs with
  | .error e => .error e
  | .ok none => .ok none
  | .ok (some size) =>
    if !bs.atLeast size then .ok none
    else if !isTrailer ((bs.take size).drop (size - trailerLength)) then .error .missingChecksum
    else .ok (some (bs.take size, bs.drop size))

/-- What a buffer yields: its frames, what stays in it, and the error that stopped it, if any. -/
structure Yield where
  frames : List Bytes
  rest : Bytes
  stop : Option FramingError
deriving DecidableEq, Repr

/-- A frame has room for its marks and its trailer. -/
theorem le_of_frameSize {limit size : Nat} {bs : Bytes}
    (h : frameSize limit bs = .ok (some size)) : 4 + trailerLength ≤ size := by
  unfold frameSize at h
  dsimp only at h
  repeat' split at h
  all_goals simp only [Except.ok.injEq, Option.some.injEq, reduceCtorEq] at h
  omega

/-- What follows a frame is shorter than the buffer. -/
theorem length_of_next {limit : Nat} {bs frame rest : Bytes}
    (h : next limit bs = .ok (some (frame, rest))) : rest.length < bs.length := by
  unfold next at h
  split at h
  · simp at h
  · simp at h
  · next size hsize =>
    have := le_of_frameSize hsize
    split at h
    · simp at h
    · next hlen =>
      have hlen : size ≤ bs.length := by simpa using hlen
      split at h
      · simp at h
      · simp only [Except.ok.injEq, Option.some.injEq, Prod.mk.injEq] at h
        rw [← h.2, List.length_drop]
        omega

/-- All frames that a buffer yields. -/
def frames (limit : Nat) (bs : Bytes) : Yield :=
  match h : next limit bs with
  | .error e => ⟨[], bs, some e⟩
  | .ok none => ⟨[], bs, none⟩
  | .ok (some (frame, rest)) =>
    have := length_of_next h
    let more := frames limit rest
    { more with frames := frame :: more.frames }
termination_by bs.length

/-- Appends a frame to an output buffer. -/
def put (limit : Nat) (frame out : Bytes) : Except FramingError Bytes :=
  if limit < frame.length then .error (.messageTooLarge frame.length limit) else .ok (out ++ frame)

end Framing

end FixProtocol
