import FixProtocol.Proofs.Wire.Chunks
import FixProtocol.Proofs.Wire.Contents

/-!
# Streams of encoded messages

The length that the encoder writes is the one by which frames are cut off, so a stream of encoded
messages is cut into these messages, wherever its chunks end.

- `Wire.bodyLength?`: what a frame says about its length.
- `Framing.Framable`: an encoded message that can be cut off.
- `Framing.next_of_framable`: it is the first frame of a buffer that starts with it.
- `Framing.feed_framable`: a stream of such messages in chunks.
-/

namespace FixProtocol

namespace Wire

/-- What a frame says about its length. -/
def bodyLength? (frame : Bytes) : Option Nat :=
  (fields? frame).bind fun fs =>
    (fs.find? (·.tag = .bodyLength)).bind fun f => Numeral.natural? f.value

/-- An encoded message is the frame of some version and body, and says how long the body is. -/
theorem exists_frame_of_encode {fs : List Field} {frame : Bytes} (h : encode fs = .ok frame) :
    ∃ version body, frame = Wire.frame version body ∧ Bytes.soh ∉ version ∧
      bodyLength? frame = some body.length := by
  obtain ⟨version, type, _, _, hcanonical, hencode⟩ := (wellFormed_of_encode h).exists_canonical
  obtain rfl := Except.ok.inj (hencode.symm.trans h)
  obtain ⟨sum, hfields⟩ := fields?_frame hcanonical
  refine ⟨version, _, rfl, hcanonical.version_writable.soh_not_mem, ?_⟩
  rw [bodyLength?, hfields, Option.bind_some, List.find?_cons_of_neg Bool.false_ne_true,
    List.find?_cons_of_pos rfl, Option.bind_some]
  exact Numeral.natural?_ofNat _

end Wire

namespace Framing

variable {limit : Nat} {version body frame : Bytes}

/-- What a frame starts with, and what follows its head: the body and a trailer. -/
theorem frame_eq (version body : Bytes) :
    ∃ sum : Bytes, sum.length = 3 ∧ Wire.frame version body =
      versionMark ++ version ++ Bytes.soh :: (lengthMark ++ Numeral.ofNat body.length ++
        Bytes.soh :: (body ++ (checksumMark ++ sum ++ [Bytes.soh]))) := by
  have hversion : Numeral.ofNat Tag.beginString.toNat = [56] := by decide
  have hlength : Numeral.ofNat Tag.bodyLength.toNat = [57] := by decide
  have hsum : Numeral.ofNat Tag.checkSum.toNat = [49, 48] := by decide
  refine ⟨Checksum.text (Checksum.sum (Field.bytes ⟨.beginString, version⟩ ++
    Field.bytes (.ofNat .bodyLength body.length) ++ body)), rfl, ?_⟩
  rw [Wire.frame, Wire.withChecksum]
  generalize Checksum.text _ = sum
  simp only [Field.bytes, Field.ofNat, hversion, hlength, hsum, List.append_assoc,
    List.cons_append, List.nil_append]

theorem length_frame (version body : Bytes) :
    (Wire.frame version body).length =
      (versionMark ++ version).length + (Numeral.ofNat body.length).length + 4 + body.length +
        trailerLength := by
  obtain ⟨sum, hsum, hframe⟩ := frame_eq version body
  rw [hframe, show trailerLength = 7 from rfl]
  simp only [List.length_append, List.length_cons, List.length_nil, hsum]
  omega

/-- The head of a frame says its size. -/
theorem head_frame (hversion : Bytes.soh ∉ version) (hbody : body.length < 10 ^ maxLengthDigits)
    (hlimit : (Wire.frame version body).length ≤ limit) :
    Head limit (Wire.frame version body) (versionMark ++ version) (Numeral.ofNat body.length)
      body.length := by
  obtain ⟨sum, _, hframe⟩ := frame_eq version body
  refine ⟨?_, ?_, Numeral.length_ofNat_le (by decide) hbody, Numeral.natural?_ofNat _,
    length_frame version body ▸ hlimit⟩
  · rw [hframe]
    rfl
  · have hmark : Bytes.soh ∉ versionMark ++ version := by
      rw [List.mem_append, not_or]
      exact ⟨by decide, hversion⟩
    rw [hframe, Bytes.cut_append hmark]
    refine ⟨_, rfl, rfl, body ++ (checksumMark ++ sum ++ [Bytes.soh]), ?_⟩
    exact Bytes.cut_append (Numeral.soh_not_mem_ofNat _) _

/-- A frame that the limit allows and whose length has at most nine digits is cut off, whatever
follows it. -/
theorem next_frame (hversion : Bytes.soh ∉ version) (hbody : body.length < 10 ^ maxLengthDigits)
    (hlimit : (Wire.frame version body).length ≤ limit) (rest : Bytes) :
    next limit (Wire.frame version body ++ rest) = .ok (some (Wire.frame version body, rest)) := by
  refine next_eq_some_iff.mpr ⟨rfl, ?_, ?_⟩
  · exact frameSize_append (frameSize_eq_some_iff.mpr
      ⟨_, _, _, head_frame hversion hbody hlimit, length_frame version body⟩) rest
  · obtain ⟨sum, hsum, hframe⟩ := frame_eq version body
    match sum, hsum with
    | [a, b, c], _ =>
      have hsplit : Wire.frame version body = (versionMark ++ version ++ Bytes.soh ::
          (lengthMark ++ Numeral.ofNat body.length ++ Bytes.soh :: body)) ++
            [49, 48, 61, a, b, c, Bytes.soh] := by
        rw [hframe]
        simp only [List.append_assoc, List.cons_append, List.nil_append]
      rw [hsplit, List.length_append]
      rw [show trailerLength = [49, 48, 61, a, b, c, Bytes.soh].length from rfl,
        Nat.add_sub_cancel, List.drop_left]
      rfl

/-- An encoded message that can be cut off: the limit allows it, and its length has at most nine
digits. -/
structure Framable (limit : Nat) (frame : Bytes) : Prop where
  encoded : ∃ fs, Wire.encode fs = .ok frame
  le_limit : frame.length ≤ limit
  length_le : ∀ n ∈ Wire.bodyLength? frame, n ≤ 999999999

theorem next_of_framable (h : Framable limit frame) (rest : Bytes) :
    next limit (frame ++ rest) = .ok (some (frame, rest)) := by
  obtain ⟨_, hencode⟩ := h.encoded
  obtain ⟨version, body, rfl, hversion, hlength⟩ := Wire.exists_frame_of_encode hencode
  have hbody : body.length < 10 ^ maxLengthDigits :=
    Nat.lt_succ_of_le (h.length_le _ (Option.mem_def.mpr hlength))
  exact next_frame hversion hbody h.le_limit rest

/-- All of them are taken from a buffer that holds nothing else. -/
theorem frames_flatten {sent : List Bytes} (h : ∀ frame ∈ sent, Framable limit frame) :
    frames limit sent.flatten = ⟨sent, [], none⟩ := by
  induction sent with
  | nil => exact frames_of_none rfl
  | cons frame sent ih =>
    obtain ⟨hframe, hsent⟩ := List.forall_mem_cons.mp h
    rw [List.flatten_cons, frames_of_some (next_of_framable hframe _), ih hsent]

/-- However a stream of encoded messages is cut into chunks, a run over them yields these messages
in order, finds no error and leaves nothing in the buffer. -/
theorem feed_framable {sent chunks : List Bytes} (hsent : ∀ frame ∈ sent, Framable limit frame)
    (hcut : chunks.flatten = sent.flatten) : feed limit .start chunks = ⟨sent, [], none⟩ := by
  have hwhole : frames limit ([] ++ chunks.flatten) = ⟨sent, [], none⟩ := by
    rw [List.nil_append, hcut, frames_flatten hsent]
  rw [start_eq_frames limit, feed_eq_frames (hwhole ▸ rfl) (hwhole ▸ rfl), hwhole]

/-- Two heartbeats, the second with a value that looks like a checksum; the chunks end inside a mark
and inside that value. -/
theorem feed_framable_heartbeats :
    let first := Utf8.bytes "8=F\x019=5\x0135=0\x0110=062\x01"
    let second := Utf8.bytes "8=F\x019=16\x0135=0\x01112=10=000\x0110=112\x01"
    feed 40 .start [first.take 1, first.drop 1 ++ second.take 20, [], second.drop 20] =
      ⟨[first, second], [], none⟩ := by
  intro first second
  refine feed_framable ?_ (by decide +kernel)
  have hfirst : Framable 40 first :=
    ⟨⟨[.ofText .beginString "F", .ofText .msgType "0"], rfl⟩, by decide +kernel, by decide +kernel⟩
  have hsecond : Framable 40 second :=
    ⟨⟨[.ofText .beginString "F", .ofText .msgType "0", .ofText .testReqId "10=000"], rfl⟩,
      by decide +kernel, by decide +kernel⟩
  exact List.forall_mem_cons.mpr ⟨hfirst, List.forall_mem_singleton.mpr hsecond⟩

end Framing

end FixProtocol
