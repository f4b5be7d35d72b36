import FixProtocol.Proofs.Wire.WellFormed

/-!
# What is in a frame

A frame is a list of fields, and its message is what remains without the length and the checksum.
Read so, a frame of any length gives back the message that was encoded; the decoder besides checks
what the length and the checksum say.

- `Wire.contents?`: the message in a frame, whatever its length and its checksum say.
- `Wire.fields?_fieldBytes`: written fields are read back; `Wire.fields?_frame`: those of a frame.
- `Wire.Carries`: a frame is the wire form of a message.
- `Wire.carries_of_encode`: what is read from an encoded message is that message.
-/

namespace FixProtocol.Wire

/-- The message in a frame, whatever its length and its checksum say. -/
def contents? (frame : Bytes) : Option Message :=
  (fields? frame).map fun fs =>
    ⟨fs.filter fun f => f.tag ≠ .bodyLength && f.tag ≠ .checkSum⟩

theorem fields?_of_takeField {bs rest : Bytes} {f : Field}
    (h : takeField bs = .ok (some (f, rest))) : fields? bs = (fields? rest).map (f :: ·) := by
  rw [fields?]
  split
  · next heq => rw [h] at heq; cases heq
  · next heq => rw [h] at heq; cases heq
  · next heq =>
    rw [h] at heq
    cases heq
    rfl

theorem fields?_nil : fields? [] = some [] := by
  rw [fields?]
  split
  · next heq => cases heq
  · rfl
  · next heq => cases heq

/-- Written fields are read back. -/
theorem fields?_fieldBytes {fs : List Field} (h : ∀ f ∈ fs, f.Writable) :
    fields? (fieldBytes fs) = some fs := by
  induction fs with
  | nil => exact fields?_nil
  | cons f fs ih =>
    obtain ⟨hf, hfs⟩ := List.forall_mem_cons.mp h
    have hcons : fieldBytes (f :: fs) = f.bytes ++ fieldBytes fs := List.flatMap_cons
    rw [hcons, fields?_of_takeField (takeField_bytes hf _), ih hfs]
    rfl

/-- A frame is written field by field. -/
theorem frame_eq_fieldBytes (version : Bytes) (fs : List Field) :
    ∃ sum, frame version (fieldBytes fs) =
      fieldBytes (⟨.beginString, version⟩ :: .ofNat .bodyLength (fieldBytes fs).length ::
        (fs ++ [⟨.checkSum, Checksum.text sum⟩])) := by
  refine ⟨Checksum.sum (Field.bytes ⟨.beginString, version⟩ ++
    Field.bytes (.ofNat .bodyLength (fieldBytes fs).length) ++ fieldBytes fs), ?_⟩
  unfold frame withChecksum fieldBytes
  rw [List.flatMap_cons, List.flatMap_cons, List.flatMap_append, List.flatMap_singleton,
    List.append_assoc, List.append_assoc]

variable {version type frame : Bytes} {rest : List Field}

/-- The fields of a frame. -/
theorem fields?_frame (h : Canonical version type rest) :
    ∃ sum, fields? (Wire.frame version (fieldBytes (⟨.msgType, type⟩ :: rest))) =
      some (⟨.beginString, version⟩ ::
        .ofNat .bodyLength (fieldBytes (⟨.msgType, type⟩ :: rest)).length ::
          (⟨.msgType, type⟩ :: rest ++ [⟨.checkSum, Checksum.text sum⟩])) := by
  obtain ⟨sum, hframe⟩ := frame_eq_fieldBytes version (⟨.msgType, type⟩ :: rest)
  refine ⟨sum, ?_⟩
  rw [hframe]
  refine fields?_fieldBytes fun f hf => ?_
  simp only [List.cons_append, List.mem_cons, List.mem_append, List.not_mem_nil, or_false] at hf
  rcases hf with rfl | rfl | rfl | hf | rfl
  · exact h.version_writable
  · exact writable_bodyLength _
  · exact h.type_writable
  · exact (h.rest_isBody f hf).toWritable
  · exact writable_checkSum sum

/-- What is read from an encoded message is that message. -/
theorem contents?_of_encode (h : encode (listed version type rest) = .ok frame) :
    contents? frame = some ⟨listed version type rest⟩ := by
  obtain ⟨hcanonical, rfl⟩ := encode_listed_iff.mp h
  obtain ⟨sum, hfields⟩ := fields?_frame hcanonical
  have hkeeps : rest.filter (fun f => f.tag ≠ .bodyLength && f.tag ≠ .checkSum) = rest := by
    refine List.filter_eq_self.mpr fun f hf => ?_
    have hbody := hcanonical.rest_isBody f hf
    rw [decide_eq_true hbody.tag_ne_bodyLength, decide_eq_true hbody.tag_ne_checkSum]
    rfl
  rw [contents?, hfields, Option.map_some, List.cons_append,
    List.filter_cons_of_pos rfl, List.filter_cons_of_neg Bool.false_ne_true,
    List.filter_cons_of_pos rfl, List.filter_append, hkeeps,
    List.filter_cons_of_neg Bool.false_ne_true, List.filter_nil, List.append_nil]

/-- The frame is the wire form of the message. Unless the frame is longer than a length can say, the
decoder reads the message as well. -/
structure Carries (version : String) (frame : Bytes) (m : Message) : Prop where
  encoded : m.encode = .ok frame
  contents : contents? frame = some m
  decoded : frame.length < 2 ^ 64 → Message.decode version frame = .ok m

theorem carries_of_encode {version : String}
    (h : encode (listed (Utf8.bytes version) type rest) = .ok frame) :
    Carries version frame ⟨listed (Utf8.bytes version) type rest⟩ where
  encoded := h
  contents := contents?_of_encode h
  decoded := by
    intro hlength
    obtain ⟨_, hframe⟩ := encode_listed_iff.mp h
    refine (decode_encode_iff h).mpr ⟨fun v hv => Option.mem_some_iff.mp hv, ?_, rfl⟩
    rw [hframe] at hlength
    exact Nat.lt_of_le_of_lt (length_le_length_frame ..) hlength

end FixProtocol.Wire
