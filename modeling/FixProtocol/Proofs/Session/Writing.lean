import FixProtocol.Proofs.Clock.Timestamp
import FixProtocol.Proofs.Session.Delivery
import FixProtocol.Proofs.Session.Frames

/-!
# What a session can write

- `SessionConfig.validate_eq_ok_iff`: what valid settings are.
- `Speakable`: settings that are valid and whose names were made from texts; everything that the
  session puts into a header can then be written.
- `exists_encode_header`, `genuine_header`: a message with such a header is written, and the other
  side takes it for one of its counterparty; `genuine_of_encode` if the message is short.
- `ends_emit_of_lt`, `ends_emit_ok`: a message that can be written is numbered and kept.
-/

namespace FixProtocol

namespace SessionConfig

theorem demand_eq_ok_iff {holds : Bool} {reason : String} :
    demand holds reason = .ok () ↔ holds = true := by
  cases holds
  · exact iff_of_false nofun nofun
  · exact iff_of_true rfl rfl

theorem bind_demand_eq_ok_iff {holds : Bool} {reason : String} {rest : Except SessionError Unit} :
    (do demand holds reason; rest) = .ok () ↔ holds = true ∧ rest = .ok () := by
  cases holds
  · exact iff_of_false nofun nofun
  · exact ⟨fun h => ⟨rfl, h⟩, fun h => h.2⟩

/-- The settings are valid when each of them is. -/
theorem validateIn_eq_ok_iff {second : Nat} {c : SessionConfig} :
    c.validateIn second = .ok () ↔
      c.beginString ≠ "" ∧ Bytes.soh ∉ Utf8.bytes c.beginString ∧
      (1 ≤ c.heartbeatInterval / second ∧ c.heartbeatInterval / second ≤ maxHeartbeatSeconds) ∧
      c.logonTimeout ≠ 0 ∧ c.logoutTimeout ≠ 0 ∧ c.testRequestGrace ≠ 0 ∧ c.resendTimeout ≠ 0 ∧
      c.resendRetryLimit ≠ 0 ∧ c.maxMessageSize ≠ 0 ∧ c.maxBufferedMessages ≠ 0 := by
  unfold validateIn
  simp only [bind_demand_eq_ok_iff, demand_eq_ok_iff, decide_eq_true_eq, Bool.and_eq_true]

/-- The same for the settings of a session. -/
theorem validate_eq_ok_iff {c : SessionConfig} :
    c.validate = .ok () ↔
      c.beginString ≠ "" ∧ Bytes.soh ∉ Utf8.bytes c.beginString ∧
      (1 ≤ c.heartbeatSeconds ∧ c.heartbeatSeconds ≤ maxHeartbeatSeconds) ∧ c.logonTimeout ≠ 0 ∧
      c.logoutTimeout ≠ 0 ∧ c.testRequestGrace ≠ 0 ∧ c.resendTimeout ≠ 0 ∧
      c.resendRetryLimit ≠ 0 ∧ c.maxMessageSize ≠ 0 ∧ c.maxBufferedMessages ≠ 0 :=
  validateIn_eq_ok_iff

end SessionConfig

namespace Field

/-- A tag has at most ten digits. -/
theorem length_bytes_le (f : Field) : f.bytes.length ≤ f.value.length + 12 := by
  have htag : (Numeral.ofNat f.tag.toNat).length ≤ 10 := by
    have := f.tag.toNat_lt
    exact Numeral.length_ofNat_le (by decide) (by omega)
  unfold bytes
  simp only [List.length_append, List.length_cons, List.length_nil]
  omega

theorem writable_ofNat {tag : Tag} (htag : tag ≠ 0) (n : Nat) : Writable (ofNat tag n) :=
  ⟨htag, Numeral.ofNat_ne_nil n, Numeral.soh_not_mem_ofNat n⟩

theorem writable_ofBool {tag : Tag} (htag : tag ≠ 0) (b : Bool) : Writable (ofBool tag b) := by
  refine ⟨htag, List.cons_ne_nil _ _, ?_⟩
  cases b with
  | false => exact (by decide : Bytes.soh ∉ [(78 : UInt8)])
  | true => exact (by decide : Bytes.soh ∉ [(89 : UInt8)])

/-- The types of the session's own messages can be written. -/
theorem writable_msgType {type : MsgType} (h : type.isAdmin = true) :
    Writable (ofText .msgType type.code) := by
  cases type
  case heartbeat | testRequest | resendRequest | reject | sequenceReset | logout | logon =>
    exact ⟨by decide, by decide, by decide⟩
  all_goals cases h

theorem length_ofSeqNum_le (tag : Tag) (n : SeqNum) : (ofSeqNum tag n).value.length ≤ 20 := by
  have := n.toNat_lt
  exact Numeral.length_ofNat_le (by decide) (by omega)

end Field

namespace Wire

theorem length_fieldBytes_cons (f : Field) (fs : List Field) :
    (fieldBytes (f :: fs)).length = f.bytes.length + (fieldBytes fs).length := by
  unfold fieldBytes
  rw [List.flatMap_cons, List.length_append]

theorem length_fieldBytes_append (fs gs : List Field) :
    (fieldBytes (fs ++ gs)).length = (fieldBytes fs).length + (fieldBytes gs).length := by
  unfold fieldBytes
  rw [List.flatMap_append, List.length_append]

/-- A writable field may stand in a body unless its tag has a place of its own. -/
theorem isBody_of_tag {f : Field} (h : f.Writable)
    (htag : f.tag ∉ [Tag.beginString, .bodyLength, .msgType, .checkSum]) : IsBody f := by
  simp only [List.mem_cons, List.not_mem_nil, or_false, not_or] at htag
  exact { h with
    tag_ne_beginString := htag.1
    tag_ne_bodyLength := htag.2.1
    tag_ne_msgType := htag.2.2.1
    tag_ne_checkSum := htag.2.2.2 }

theorem isBody_ofNat {tag : Tag} (htag : tag ≠ 0)
    (hplace : tag ∉ [Tag.beginString, .bodyLength, .msgType, .checkSum]) (n : Nat) :
    IsBody (.ofNat tag n) :=
  isBody_of_tag (Field.writable_ofNat htag n) hplace

theorem isBody_ofTimestamp {tag : Tag} (htag : tag ≠ 0)
    (hplace : tag ∉ [Tag.beginString, .bodyLength, .msgType, .checkSum]) (t : Timestamp) :
    IsBody (.ofTimestamp tag t) :=
  isBody_of_tag (Field.writable_ofTimestamp htag t) hplace

theorem isBody_ofBool {tag : Tag} (htag : tag ≠ 0)
    (hplace : tag ∉ [Tag.beginString, .bodyLength, .msgType, .checkSum]) (b : Bool) :
    IsBody (.ofBool tag b) :=
  isBody_of_tag (Field.writable_ofBool htag b) hplace

/-- Fields with short values are short together. -/
theorem length_fieldBytes_le {fs : List Field} {k : Nat} (h : ∀ f ∈ fs, f.value.length ≤ k) :
    (fieldBytes fs).length ≤ fs.length * (k + 12) := by
  induction fs with
  | nil => exact Nat.zero_le _
  | cons f fs ih =>
    obtain ⟨hf, hfs⟩ := List.forall_mem_cons.mp h
    have hbytes := Field.length_bytes_le f
    have hrest := ih hfs
    rw [length_fieldBytes_cons, List.length_cons, Nat.succ_mul]
    omega

end Wire

theorem CompId.writable {id : CompId} (h : CompId.ofText? id.text = some id) {tag : Tag}
    (htag : tag ≠ 0) : Field.Writable ⟨tag, id.bytes⟩ := by
  obtain ⟨_, hne, hsoh, _⟩ := CompId.ofText?_eq_some_iff.mp h
  refine ⟨htag, fun hnil => hne ?_, hsoh⟩
  exact Utf8.bytes_injective hnil

namespace Session

variable {σ : Type} {s : Session σ} {type : MsgType} {n : SeqNum} {time : Timestamp}
  {body : List Field}

/-- Valid settings whose names were made from texts. -/
structure Speakable (c : SessionConfig) : Prop where
  valid : c.validate = .ok ()
  sender : CompId.ofText? c.sender.text = some c.sender
  target : CompId.ofText? c.target.text = some c.target

theorem Speakable.writable_beginString {c : SessionConfig} (h : Speakable c) :
    Field.Writable ⟨.beginString, Utf8.bytes c.beginString⟩ := by
  obtain ⟨hne, hsoh, _⟩ := SessionConfig.validate_eq_ok_iff.mp h.valid
  refine ⟨show Tag.beginString ≠ 0 by decide, fun hnil => hne ?_, hsoh⟩
  exact Utf8.bytes_injective hnil

/-- The fields that the session puts into every header may stand in a body. -/
theorem isBody_addressed (hc : Speakable s.config) : ∀ f ∈ s.addressed n time, Wire.IsBody f := by
  intro f hf
  simp only [addressed, List.mem_cons, List.not_mem_nil, or_false] at hf
  rcases hf with rfl | rfl | rfl | rfl
  · exact Wire.isBody_of_tag (CompId.writable hc.sender (by decide))
      (show Tag.senderCompId ∉ _ by decide)
  · exact Wire.isBody_of_tag (CompId.writable hc.target (by decide))
      (show Tag.targetCompId ∉ _ by decide)
  · exact Wire.isBody_ofNat (by decide) (by decide) _
  · exact Wire.isBody_ofTimestamp (by decide) (by decide) _

/-- A message that starts with the header is written if its type and its body can be. -/
theorem exists_encode_header (hc : Speakable s.config)
    (htype : Field.Writable (.ofText .msgType type.code)) (hbody : ∀ f ∈ body, Wire.IsBody f)
    (time : Timestamp) : ∃ frame, Wire.encode (s.header type n time ++ body) = .ok frame := by
  rw [header_append]
  refine ⟨_, Wire.encode_of_canonical ⟨hc.writable_beginString, htype, fun f hf => ?_⟩⟩
  rcases List.mem_append.mp hf with hf | hf
  · exact isBody_addressed hc f hf
  · exact hbody f hf

/-- Whoever has written a message has names that can be written. -/
theorem speakable_of_encode {frame : Bytes} (hvalid : s.config.validate = .ok ())
    (hencode : Wire.encode (s.header type n time ++ body) = .ok frame) : Speakable s.config := by
  rw [header_append] at hencode
  have hbody := (Wire.encode_listed_iff.mp hencode).1.rest_isBody
  have hname {tag : Tag} {id : CompId} (hmem : ⟨tag, id.bytes⟩ ∈ s.addressed n time) :
      CompId.ofText? id.text = some id := by
    have hfield := hbody _ (List.mem_append_left body hmem)
    refine CompId.ofText?_eq_some_iff.mpr ⟨rfl, fun hempty => ?_, hfield.soh_not_mem, id.fits⟩
    refine hfield.value_ne_nil ?_
    show Utf8.bytes id.text = []
    rw [hempty]
    rfl
  exact ⟨hvalid, hname List.mem_cons_self, hname (List.mem_cons_of_mem _ List.mem_cons_self)⟩

/-- A message is numbered and kept if it can be written and the journal ends before its number; if it
cannot be written, nothing changes. -/
theorem ends_emit_of_lt {s : Session MemoryStore} {Q : Bytes → Session MemoryStore → Prop}
    {E : Error → Session MemoryStore → Prop}
    (hlast : s.store.outbound.last < s.sequences.nextOutgoing) (now : Moment)
    (hok : ∀ frame j,
      Wire.encode (s.header type s.sequences.nextOutgoing now.utc ++ body) = .ok frame →
      s.store.outbound.append s.sequences.nextOutgoing frame = .ok j →
      Q frame (s.written { s.store with outbound := j } now))
    (herror : ∀ e, Wire.encode (s.header type s.sequences.nextOutgoing now.utc ++ body) = .error e →
      E (.encode e) s) :
    Ends (emit type body now) s Q E := by
  refine ends_emit.mpr ⟨fun frame hencode => ?_, herror⟩
  obtain ⟨j, hj, hstore⟩ :=
    MemoryStore.append_of_lt (d := .outbound) (s := s.store) hlast frame
  constructor
  · rintro _ hkept
    obtain rfl := congrArg Prod.snd (hkept.symm.trans hstore)
    exact hok frame j hencode hj
  · rintro e _ hrefused
    cases hrefused.symm.trans hstore

/-- A message that can be written is numbered and kept, if the journal ends before its number. -/
theorem ends_emit_ok {s : Session MemoryStore} (hc : Speakable s.config)
    (htype : Field.Writable (.ofText .msgType type.code)) (hbody : ∀ f ∈ body, Wire.IsBody f)
    (hlast : s.store.outbound.last < s.sequences.nextOutgoing) (now : Moment) :
    Ends (emit type body now) s
      (fun frame t =>
        Wire.encode (s.header type s.sequences.nextOutgoing now.utc ++ body) = .ok frame ∧
          ∃ j, s.store.outbound.append s.sequences.nextOutgoing frame = .ok j ∧
            t = s.written { s.store with outbound := j } now)
      (fun _ _ => False) := by
  refine ends_emit_of_lt hlast now (fun frame j hencode hj => ⟨hencode, j, hj, rfl⟩) ?_
  obtain ⟨frame, hencode⟩ :=
    exists_encode_header (n := s.sequences.nextOutgoing) hc htype hbody now.utc
  intro e herror
  rw [hencode] at herror
  cases herror

/-- What a logon says after the header. -/
theorem isBody_logon (seconds : Nat) :
    ∀ f ∈ [Field.ofNat .encryptMethod 0, .ofNat .heartBtInt seconds], Wire.IsBody f := by
  intro f hf
  simp only [List.mem_cons, List.not_mem_nil, or_false] at hf
  rcases hf with rfl | rfl
  · exact Wire.isBody_ofNat (by decide) (by decide) _
  · exact Wire.isBody_ofNat (by decide) (by decide) _

/-- What a resend request says after the header. -/
theorem isBody_request (first last : SeqNum) :
    ∀ f ∈ [Field.ofSeqNum .beginSeqNo first, .ofSeqNum .endSeqNo last], Wire.IsBody f := by
  intro f hf
  simp only [List.mem_cons, List.not_mem_nil, or_false] at hf
  rcases hf with rfl | rfl
  · exact Wire.isBody_ofNat (by decide) (by decide) _
  · exact Wire.isBody_ofNat (by decide) (by decide) _

/-- The length of a header is bounded. -/
theorem length_wireBody_le (s : Session σ) {type : MsgType} (n : SeqNum) (time : Timestamp)
    (body : List Field) (htype : (Utf8.bytes type.code).length ≤ 20) :
    (s.wireBody type n time body).length ≤ (Wire.fieldBytes body).length + 400 := by
  have hshort : ∀ f ∈ s.addressed n time, f.value.length ≤ 64 := by
    intro f hf
    simp only [addressed, List.mem_cons, List.not_mem_nil, or_false] at hf
    rcases hf with rfl | rfl | rfl | rfl
    · exact Nat.le_trans s.config.sender.fits (by decide)
    · exact Nat.le_trans s.config.target.fits (by decide)
    · exact Nat.le_trans (Field.length_ofSeqNum_le .msgSeqNum n) (by decide)
    · exact Field.length_ofTimestamp_le .sendingTime time
  have haddressed := Wire.length_fieldBytes_le hshort
  have hfields : (s.addressed n time).length = 4 := rfl
  have htypeBytes := Field.length_bytes_le (.ofText .msgType type.code)
  have htypeValue : (Field.ofText .msgType type.code).value.length ≤ 20 := htype
  unfold wireBody
  rw [Wire.length_fieldBytes_cons, Wire.length_fieldBytes_append]
  omega

/-- The settings of the two sides of a session. -/
structure Mirrored (c d : SessionConfig) : Prop where
  beginString : d.beginString = c.beginString
  sender : d.sender = c.target
  target : d.target = c.sender

theorem Mirrored.symm {c d : SessionConfig} (h : Mirrored c d) : Mirrored d c :=
  ⟨h.beginString.symm, h.target.symm, h.sender.symm⟩

theorem Mirrored.speakable {c d : SessionConfig} (h : Mirrored c d) (hd : d.validate = .ok ())
    (hc : Speakable c) : Speakable d where
  valid := hd
  sender := by
    rw [h.sender]
    exact hc.target
  target := by
    rw [h.target]
    exact hc.sender

/-- The other side takes a message with this header for one of its counterparty. -/
theorem genuine_header {d : SessionConfig} (hd : Mirrored s.config d) (hn : n.isValid = true)
    (hlength : (s.wireBody type n time body).length < 2 ^ 64) {frame : Bytes}
    (hencode : Wire.encode (s.header type n time ++ body) = .ok frame) :
    Genuine .any d n ⟨⟨s.header type n time ++ body⟩, frame⟩ where
  frame := trivial
  decoded := by
    rw [hd.beginString]
    exact (decode_header_iff hencode).mpr ⟨hlength, rfl⟩
  sender := by
    rw [sender_header, hd.target]
    rfl
  target := by
    rw [target_header, hd.sender]
    rfl
  numbered := seqNum?_header
  valid := hn

/-- The other side takes a short message for one of its counterparty. -/
theorem genuine_of_encode {d : SessionConfig} (hd : Mirrored s.config d) (hn : n.isValid = true)
    (hcode : (Utf8.bytes type.code).length ≤ 20) (hbody : (Wire.fieldBytes body).length ≤ 1000)
    {frame : Bytes} (hencode : Wire.encode (s.header type n time ++ body) = .ok frame) :
    Genuine .any d n ⟨⟨s.header type n time ++ body⟩, frame⟩ := by
  have hlength := s.length_wireBody_le n time body hcode
  exact genuine_header hd hn (by omega) hencode

end Session

namespace Sample

open Session

/-- What the side that begins writes, the other takes for a message of its counterparty. -/
theorem genuine_frame {type : MsgType} {number : SeqNum} {body : List Field} {bytes : Bytes}
    (hn : number.isValid = true) (hcode : (Utf8.bytes type.code).length ≤ 20)
    (hbody : (Wire.fieldBytes body).length ≤ 1000) :
    let s : Session MemoryStore := .fresh initiator .empty 0
    Wire.encode (s.header type number moment.utc ++ body) = .ok bytes →
      Genuine .any acceptor number
        ⟨⟨s.header type number moment.utc ++ body⟩, frame initiator type number body⟩ := by
  intro s hencode
  have hframe : frame initiator type number body = bytes := by
    show (Wire.encode (s.header type number moment.utc ++ body)).toOption.getD [] = bytes
    rw [hencode]
    rfl
  rw [hframe]
  exact genuine_of_encode (s := s) (d := acceptor) ⟨rfl, rfl, rfl⟩ hn hcode hbody hencode

end Sample

end FixProtocol
