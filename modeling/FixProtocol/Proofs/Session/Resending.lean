import FixProtocol.Proofs.Session.Delivery
import FixProtocol.Proofs.Session.Writing

/-!
# A request is answered in full

A session that is asked for a range of numbers that it has used answers with frames that tile the
range: each is an application message under its own number, or passes over some numbers, and the
next one goes on where it ends. The other side can read all of them.

- `Servable`: a journal whose application messages can be sent again.
- `Tiles`: frames that stand for a range of numbers, one after the other.
- `exists_tiles_plan`: the answers to a request can be written, and tile what was asked for.
- `ends_serveResend_tiles`: a request for numbers that were used is answered so.
-/

namespace FixProtocol

/-! ## What is sent again -/

namespace Wire

theorem length_replaceFirst_le (f : Field) (fs : List Field) :
    (fieldBytes (Message.replaceFirst f fs)).length ≤ (fieldBytes fs).length + f.bytes.length := by
  induction fs with
  | nil => exact Nat.zero_le _
  | cons g gs ih =>
    unfold Message.replaceFirst
    split
    · simp only [length_fieldBytes_cons]
      omega
    · simp only [length_fieldBytes_cons]
      omega

/-- Setting a field makes a message longer by that field at most. -/
theorem length_set_le (m : Message) (f : Field) :
    (fieldBytes (m.set f).fields).length ≤ (fieldBytes m.fields).length + f.bytes.length := by
  unfold Message.set
  split
  · exact length_replaceFirst_le f m.fields
  · show (fieldBytes (m.fields ++ [f])).length ≤ _
    rw [length_fieldBytes_append, length_fieldBytes_cons]
    exact Nat.le_refl _

/-- A canonical message stays canonical when it is marked as a duplicate. -/
theorem Canonical.duplicate {version type : Bytes} {rest : List Field}
    (h : Canonical version type rest) (time : Timestamp) :
    Canonical version type (Resend.duplicate ⟨rest⟩ time).fields := by
  have htime : IsBody (.ofTimestamp .sendingTime time) := isBody_ofTimestamp (by decide) (by decide) _
  have hflag : IsBody (.ofBool .possDupFlag true) := isBody_ofBool (by decide) (by decide) _
  have hmarked := (h.set htime).set hflag
  unfold Resend.duplicate
  simp only
  split
  · next old hold =>
    have hbody : IsBody old := h.rest_isBody old (List.mem_of_find?_eq_some hold)
    refine hmarked.set (isBody_of_tag ⟨?_, hbody.value_ne_nil, hbody.soh_not_mem⟩ ?_)
    · exact show Tag.origSendingTime ≠ 0 by decide
    · exact show Tag.origSendingTime ∉ _ by decide
  · exact hmarked

end Wire

namespace Resend

variable {rest : List Field} {old : Field}

/-- Marking makes a body longer by three fields at most. -/
theorem length_duplicate_le (time : Timestamp) (hold : Message.get? ⟨rest⟩ .sendingTime = some old)
    (hlength : old.value.length ≤ 64) :
    (Wire.fieldBytes (duplicate ⟨rest⟩ time).fields).length ≤
      (Wire.fieldBytes rest).length + 200 := by
  unfold duplicate
  simp only
  rw [hold]
  have htime := Wire.length_set_le ⟨rest⟩ (.ofTimestamp .sendingTime time)
  have hflag := Wire.length_set_le (Message.set ⟨rest⟩ (.ofTimestamp .sendingTime time))
    (.ofBool .possDupFlag true)
  have horig := Wire.length_set_le ((Message.set ⟨rest⟩ (.ofTimestamp .sendingTime time)).set
    (.ofBool .possDupFlag true)) ⟨.origSendingTime, old.value⟩
  have htimeBytes := Field.length_bytes_le (.ofTimestamp .sendingTime time)
  have htimeValue : (Field.ofTimestamp .sendingTime time).value.length ≤ 64 :=
    Field.length_ofTimestamp_le .sendingTime time
  have hflagBytes := Field.length_bytes_le (.ofBool .possDupFlag true)
  have hflagValue : (Field.ofBool .possDupFlag true).value.length = 1 := rfl
  have horigBytes := Field.length_bytes_le ⟨.origSendingTime, old.value⟩
  simp only at horigBytes htime hflag horig ⊢
  omega

end Resend

namespace Session

variable {σ : Type} {s : Session σ} {c d : SessionConfig} {n : SeqNum}
  {time : Timestamp}

/-! ## Frames that stand for a range -/

/-- Frames that the side with the settings `d` takes as the messages from one number up to the one
before another. Each is an application message under its number, or passes over some numbers. -/
inductive Tiles (d : SessionConfig) : List Bytes → SeqNum → SeqNum → Prop
  | nil (n : SeqNum) : Tiles d [] n n
  | again {frame : Bytes} {m : Message} {frames : List Bytes} {n next : SeqNum}
      (hp : Genuine .any d n ⟨m, frame⟩) (happ : m.msgType.isApp = true)
      (tail : Tiles d frames (n + 1) next) : Tiles d (frame :: frames) n next
  | fill {frame : Bytes} {m : Message} {frames : List Bytes} {n following next : SeqNum}
      (hp : Genuine .any d n ⟨m, frame⟩) (htype : m.msgType = .sequenceReset)
      (hplain : isPlainReset m = false) (hnew : m.nat64? .newSeqNo = some following)
      (hlt : n < following) (tail : Tiles d frames following next) :
      Tiles d (frame :: frames) n next

theorem Tiles.append {frames frames' : List Bytes} {a b e : SeqNum} (h : Tiles d frames a b)
    (h' : Tiles d frames' b e) : Tiles d (frames ++ frames') a e := by
  induction h with
  | nil => exact h'
  | again hp happ _ ih => exact .again hp happ (ih h')
  | fill hp htype hplain hnew hlt _ ih => exact .fill hp htype hplain hnew hlt (ih h')

theorem Tiles.le {frames : List Bytes} {a b : SeqNum} (h : Tiles d frames a b) : a ≤ b := by
  induction h with
  | nil => exact UInt64.le_refl _
  | again hp _ _ ih => exact UInt64.le_trans (SeqNum.le_succ_of_isValid hp.valid) ih
  | fill _ _ _ _ hlt _ ih => exact UInt64.le_trans (UInt64.le_of_lt hlt) ih

/-- Every frame stands for some number. -/
theorem Tiles.lt {frame : Bytes} {frames : List Bytes} {a b : SeqNum}
    (h : Tiles d (frame :: frames) a b) : a < b := by
  cases h with
  | again hp _ tail =>
    exact UInt64.lt_of_lt_of_le (SeqNum.lt_succ_of_isValid hp.valid) tail.le
  | fill _ _ _ _ hlt tail => exact UInt64.lt_of_lt_of_le hlt tail.le

/-- What a gap fill says after the header. -/
def fillBody (following : SeqNum) (time : Timestamp) : List Field :=
  [.ofBool .possDupFlag true, .ofTimestamp .origSendingTime time, .ofBool .gapFillFlag true,
    .ofSeqNum .newSeqNo following]

theorem isBody_fillBody (following : SeqNum) (time : Timestamp) :
    ∀ f ∈ fillBody following time, Wire.IsBody f := by
  intro f hf
  simp only [fillBody, List.mem_cons, List.not_mem_nil, or_false] at hf
  rcases hf with rfl | rfl | rfl | rfl
  · exact Wire.isBody_ofBool (by decide) (by decide) _
  · exact Wire.isBody_ofTimestamp (by decide) (by decide) _
  · exact Wire.isBody_ofBool (by decide) (by decide) _
  · exact Wire.isBody_ofNat (by decide) (by decide) _

theorem length_fillBody_le (following : SeqNum) (time : Timestamp) :
    (Wire.fieldBytes (fillBody following time)).length ≤ 400 := by
  have hshort : ∀ f ∈ fillBody following time, f.value.length ≤ 64 := by
    intro f hf
    simp only [fillBody, List.mem_cons, List.not_mem_nil, or_false] at hf
    have hflag (tag : Tag) : (Field.ofBool tag true).value.length = 1 := rfl
    rcases hf with rfl | rfl | rfl | rfl
    · rw [hflag]
      decide
    · exact Field.length_ofTimestamp_le .origSendingTime time
    · rw [hflag]
      decide
    · exact Nat.le_trans (Field.length_ofSeqNum_le .newSeqNo following) (by decide)
  exact Nat.le_trans (Wire.length_fieldBytes_le hshort) (show 4 * (64 + 12) ≤ 400 by decide)

/-- A gap fill is written, and the other side can read it. -/
theorem exists_gapFill {following : SeqNum} (time : Timestamp) (hc : Speakable s.config)
    (hd : Mirrored s.config d) (hn : n.isValid = true) (hlt : n < following) :
    ∃ frame, (s.gapFill n following time).encode = .ok frame ∧ Tiles d [frame] n following := by
  have htype : Field.Writable (.ofText .msgType MsgType.sequenceReset.code) :=
    Field.writable_msgType rfl
  obtain ⟨frame, hframe⟩ :=
    exists_encode_header (n := n) hc htype (isBody_fillBody following time) time
  have hlength : (Wire.fieldBytes (fillBody following time)).length ≤ 1000 :=
    Nat.le_trans (length_fillBody_le following time) (by decide)
  exact ⟨frame, hframe, .fill (genuine_of_encode hd hn (by decide) hlength hframe) msgType_header
    isPlainReset_gapFill newSeqNo_gapFill hlt (.nil following)⟩

/-- A frame that was written with the header of a session with the settings `c`, under the number
`n`. -/
def Headed (c : SessionConfig) (n : SeqNum) (frame : Bytes) : Prop :=
  ∃ (s : Session Unit) (type : MsgType) (body : List Field) (time : Timestamp), s.config = c ∧
    Wire.encode (s.header type n time ++ body) = .ok frame

/-- What a session with these settings wrote under the number has such a header. -/
theorem headed_of_encode {type : MsgType} {body : List Field} {frame : Bytes}
    (h : Wire.encode (s.header type n time ++ body) = .ok frame) : Headed s.config n frame :=
  ⟨⟨s.config, (), s.sequences, s.heartbeat, s.recovery, s.state, s.since, s.terminated⟩, type, body,
    time, rfl, h⟩

/-- A journal whose messages were written by sessions with the settings `c`, and are short enough
for their copies to be written. -/
structure Servable (c : SessionConfig) (entries : List (SeqNum × Bytes)) : Prop where
  headed : ∀ e ∈ entries, Headed c e.1 e.2
  short : ∀ e ∈ entries, ∀ m, Resend.resendable? c.beginString e.2 = some m → e.2.length < 2 ^ 63

theorem Servable.concat {entries : List (SeqNum × Bytes)} {frame : Bytes} (h : Servable c entries)
    (hheaded : Headed c n frame)
    (hshort : ∀ m, Resend.resendable? c.beginString frame = some m → frame.length < 2 ^ 63) :
    Servable c (entries ++ [(n, frame)]) := by
  constructor
  · intro e he
    rcases List.mem_append.mp he with he | he
    · exact h.headed e he
    · rw [List.mem_singleton.mp he]
      exact hheaded
  · intro e he
    rcases List.mem_append.mp he with he | he
    · exact h.short e he
    · rw [List.mem_singleton.mp he]
      exact hshort

/-- An application message that was written is written once more, and the other side can read it. -/
theorem exists_duplicate {stored : Bytes} {m : Message} (time : Timestamp) (hd : Mirrored c d)
    (hn : n.isValid = true) (hheaded : Headed c n stored)
    (hshort : stored.length < 2 ^ 63) (hm : Resend.resendable? c.beginString stored = some m) :
    ∃ frame, (Resend.duplicate m time).encode = .ok frame ∧ Tiles d [frame] n (n + 1) := by
  obtain ⟨hdecode, happ⟩ := Resend.resendable?_eq_some_iff.mp hm
  obtain ⟨s, type, body, sent, rfl, hencode⟩ := hheaded
  obtain ⟨_, rfl⟩ := (decode_header_iff hencode).mp hdecode
  rw [header_append] at hencode
  obtain ⟨hcanonical, hstored⟩ := Wire.encode_listed_iff.mp hencode
  -- Only what follows the version and the type is marked, and there the header has a time.
  have hold : Message.get? ⟨s.addressed n sent ++ body⟩ .sendingTime =
    some (.ofTimestamp .sendingTime sent) := rfl
  have hduplicate : Resend.duplicate ⟨s.header type n sent ++ body⟩ time =
      ⟨Wire.listed (Utf8.bytes s.config.beginString) (Utf8.bytes type.code)
        (Resend.duplicate ⟨s.addressed n sent ++ body⟩ time).fields⟩ := by
    rw [header_append]
    exact Resend.duplicate_listed ..
  have hframe := Wire.encode_of_canonical (hcanonical.duplicate time)
  -- The stored frame is far shorter than a word can say, so the few fields more do no harm.
  have hlength : (Wire.fieldBytes (⟨.msgType, Utf8.bytes type.code⟩ ::
      (Resend.duplicate ⟨s.addressed n sent ++ body⟩ time).fields)).length < 2 ^ 64 := by
    have hmarkedLength := Resend.length_duplicate_le time hold
      (Field.length_ofTimestamp_le .sendingTime sent)
    have hframeLength := Wire.length_le_length_frame (Utf8.bytes s.config.beginString)
      (Wire.fieldBytes (⟨.msgType, Utf8.bytes type.code⟩ :: (s.addressed n sent ++ body)))
    rw [← hstored] at hframeLength
    rw [Wire.length_fieldBytes_cons] at hframeLength ⊢
    omega
  have hp : Genuine .any d n ⟨Resend.duplicate ⟨s.header type n sent ++ body⟩ time, _⟩ :=
    { frame := trivial
      decoded := by
        rw [hd.beginString, hduplicate, Message.decode]
        exact (Wire.decode_encode_iff hframe).mpr
          ⟨fun v hv => Option.mem_some_iff.mp hv, hlength, rfl⟩
      sender := by
        rw [Resend.text?_duplicate (by decide), sender_header, hd.target]
        rfl
      target := by
        rw [Resend.text?_duplicate (by decide), target_header, hd.sender]
        rfl
      numbered := by
        rw [Resend.seqNum?_duplicate]
        exact seqNum?_header
      valid := hn }
  refine ⟨_, ?_, .again hp ?_ (.nil _)⟩
  · rw [hduplicate]
    exact hframe
  · rw [Resend.msgType_duplicate]
    exact happ

/-! ## The answers to a request -/

/-- The frames of some answers. -/
def Sends (s : Session σ) (time : Timestamp) (items : List ResendItem) (frames : List Bytes) :
    Prop :=
  items.mapM (fun item => (s.resendMessage time item).encode) = .ok frames

theorem Sends.append {items items' : List ResendItem} {frames frames' : List Bytes}
    (h : Sends s time items frames) (h' : Sends s time items' frames') :
    Sends s time (items ++ items') (frames ++ frames') := by
  unfold Sends at h h' ⊢
  rw [List.mapM_append, h, h']
  rfl

theorem Sends.single {item : ResendItem} {frame : Bytes}
    (h : (s.resendMessage time item).encode = .ok frame) : Sends s time [item] [frame] := by
  unfold Sends
  rw [List.mapM_cons, h]
  rfl

/-- Numbers that are passed over are tiled by a gap fill, if there are any. -/
theorem exists_fillUpTo {following : SeqNum} (time : Timestamp) (hc : Speakable s.config)
    (hd : Mirrored s.config d) (hn : .first ≤ n) (hle : n ≤ following) :
    ∃ frames, Sends s time (Resend.fillUpTo n following) frames ∧ Tiles d frames n following := by
  unfold Resend.fillUpTo
  split
  · next hlt =>
    have hvalid : n.isValid = true := SeqNum.isValid_of_lt hn hlt
    obtain ⟨frame, hframe, htiles⟩ := exists_gapFill time hc hd hvalid hlt
    exact ⟨[frame], .single hframe, htiles⟩
  · next hlt =>
    obtain rfl : n = following := UInt64.le_antisymm hle (UInt64.not_lt.mp hlt)
    exact ⟨[], rfl, .nil n⟩

/-- The answers to a request can be written and tile what was asked for. The induction is on the
stored messages, which ascend from `next` on and end at `last`. -/
theorem exists_tiles_plan (time : Timestamp) {last next : SeqNum} {stored : List (SeqNum × Bytes)}
    (hc : Speakable s.config) (hd : Mirrored s.config d) (hservable : Servable s.config stored)
    (hlast : last < .top) (hasc : (stored.map Prod.fst).Pairwise (· < ·)) (hfirst : .first ≤ next)
    (hnext : next ≤ last + 1) (hrange : ∀ e ∈ stored, next ≤ e.1 ∧ e.1 ≤ last) :
    ∃ frames, Sends s time (Resend.plan last next (stored.map fun e =>
        (e.1, Resend.resendable? s.config.beginString e.2))) frames ∧
      Tiles d frames next (last + 1) := by
  induction stored generalizing next with
  | nil => exact exists_fillUpTo time hc hd hfirst hnext
  | cons e stored ih =>
    obtain ⟨number, frame⟩ := e
    rw [List.map_cons, List.pairwise_cons] at hasc
    obtain ⟨hkeys, hasc⟩ := hasc
    obtain ⟨⟨hnumber, hle⟩, hrest⟩ := List.forall_mem_cons.mp hrange
    obtain ⟨hheaded, hheadedRest⟩ := List.forall_mem_cons.mp hservable.headed
    obtain ⟨hshort, hshortRest⟩ := List.forall_mem_cons.mp hservable.short
    have hservable : Servable s.config stored := ⟨hheadedRest, hshortRest⟩
    rw [List.map_cons]
    simp only at hnumber hle hheaded hshort hkeys ⊢
    cases hm : Resend.resendable? s.config.beginString frame with
    | none => exact ih hservable hasc hfirst hnext hrest
    | some m =>
      -- First the gap before the message, then its copy, then what the induction gives.
      have hvalid : number.isValid = true := SeqNum.isValid_iff.mpr ⟨by grind, by grind⟩
      have hrest (e : SeqNum × Bytes) (he : e ∈ stored) : number + 1 ≤ e.1 ∧ e.1 ≤ last :=
        ⟨SeqNum.succ_le_of_lt (hkeys e.1 (List.mem_map_of_mem he)), (hrest e he).2⟩
      obtain ⟨fills, hfills, htilesFills⟩ := exists_fillUpTo time hc hd hfirst hnumber
      obtain ⟨copy, hcopy, htilesCopy⟩ :=
        exists_duplicate time hd hvalid hheaded (hshort m hm) hm
      have hcopy : (s.resendMessage time (.again number m)).encode = .ok copy := hcopy
      obtain ⟨frames, hframes, htiles⟩ := ih hservable hasc (by grind) (by grind) hrest
      refine ⟨fills ++ ([copy] ++ frames), ?_, htilesFills.append (htilesCopy.append htiles)⟩
      exact hfills.append ((Sends.single hcopy).append hframes)

/-- A request up to a number that was used is served up to that number. -/
theorem lastRequested_of_lt {last : SeqNum} (hfirst : .first ≤ last)
    (hlast : last < s.sequences.nextOutgoing) : s.lastRequested last = last := by
  have hnext : s.sequences.nextOutgoing ≠ 0 := fun h => UInt64.not_lt_zero (h ▸ hlast)
  have hnonzero : last ≠ 0 := by
    rintro rfl
    exact absurd hfirst (by decide)
  unfold lastRequested
  rw [SeqNum.previous_of_ne_zero hnext, if_neg hnonzero]
  show (if last ≤ s.sequences.nextOutgoing - 1 then last else s.sequences.nextOutgoing - 1) = last
  rw [if_pos (SeqNum.le_sub_one hlast)]

/-- A request for numbers that were used is answered by frames that tile them, and changes nothing
else. -/
theorem ends_serveResend_tiles {s : Session MemoryStore} {request : Message} {first last : SeqNum}
    (hc : Speakable s.config) (hd : Mirrored s.config d)
    (hservable : Servable s.config s.store.outbound.entries)
    (hbegin : request.nat64? .beginSeqNo = some first)
    (hend : request.nat64? .endSeqNo = some last) (hfirst : .first ≤ first) (hle : first ≤ last)
    (hlast : last < s.sequences.nextOutgoing) (now : Moment) :
    Ends (serveResend request now) s
      (fun r t => t = { s with heartbeat := s.heartbeat.onSent now.elapsed } ∧
        ∃ frames, r = ⟨frames, [], []⟩ ∧ Tiles d frames first (last + 1))
      (fun _ _ => False) := by
  have hmax : max first .first = first := SeqNum.max_first_of_le hfirst
  have hrequested : s.lastRequested last = last :=
    lastRequested_of_lt (UInt64.le_trans hfirst hle) hlast
  have hrange : Servable s.config (s.store.outbound.range first last) :=
    ⟨fun e he => hservable.headed e (Journal.mem_range_iff.mp he).1,
      fun e he => hservable.short e (Journal.mem_range_iff.mp he).1⟩
  obtain ⟨frames, hframes, htiles⟩ := exists_tiles_plan now.utc hc hd hrange (by grind)
    (s.store.outbound.ascending_range first last) hfirst (by grind)
    (fun e he => (Journal.mem_range_iff.mp he).2)
  have hbegun : requestedNumber request .beginSeqNo "BeginSeqNo" = .ok first := by
    rw [requestedNumber, hbegin]
  have hended : requestedNumber request .endSeqNo "EndSeqNo" = .ok last := by
    rw [requestedNumber, hend]
  refine ends_serveResend hbegun hended ?_ ?_
  all_goals rw [hmax, hrequested]
  · exact fun hlt => absurd hle (UInt64.not_le.mpr hlt)
  · refine fun _ => ⟨?_, nofun⟩
    rintro _ _ ⟨⟩
    refine ⟨fun _ hwritten => ?_, fun _ hunwritten => ?_⟩
    · cases hframes.symm.trans hwritten
      exact ⟨rfl, frames, rfl, htiles⟩
    · cases hframes.symm.trans hunwritten

end Session

namespace Sample

open Session

theorem speakable_initiator : Speakable initiator :=
  ⟨validate_initiator, by decide +kernel, by decide +kernel⟩

theorem speakable_acceptor : Speakable acceptor :=
  ⟨validate_acceptor, by decide +kernel, by decide +kernel⟩

end Sample

end FixProtocol
