import FixProtocol.Proofs.Session.Moves
import FixProtocol.Proofs.Wire.Fields

/-!
# What the frames of a session read as

- `decode_header_iff`: a message that starts with the header reads back as it was written.
- `Produced`: a frame that sessions with the given settings number and keep.
- `Resend.duplicate`, `Session.gapFill`: what is sent again reads back as well, under the number of
  the stored message or under the first number that is passed over.
- `Resend.answers_of_mem_plan`: what the answers to a resend request say of the stored messages.
-/

namespace FixProtocol

namespace Session

variable {σ : Type} {s : Session σ} {type : MsgType} {n : SeqNum} {time : Timestamp}
  {body : List Field}

/-! ## The header -/

/-- The fields of the header that follow the version and the type. -/
def addressed (s : Session σ) (n : SeqNum) (time : Timestamp) : List Field :=
  [⟨.senderCompId, s.config.sender.bytes⟩, ⟨.targetCompId, s.config.target.bytes⟩,
    .ofSeqNum .msgSeqNum n, .ofTimestamp .sendingTime time]

theorem header_append (s : Session σ) (type : MsgType) (n : SeqNum) (time : Timestamp)
    (body : List Field) :
    s.header type n time ++ body =
      Wire.listed (Utf8.bytes s.config.beginString) (Utf8.bytes type.code)
        (s.addressed n time ++ body) :=
  rfl

/-- The header depends on the settings only. -/
theorem header_congr {t : Session σ} (hconfig : t.config = s.config) (type : MsgType) (n : SeqNum)
    (time : Timestamp) : t.header type n time = s.header type n time := by
  unfold header
  rw [hconfig]

/-- The part of a message that its length counts: all that follows the length but the checksum. -/
def wireBody (s : Session σ) (type : MsgType) (n : SeqNum) (time : Timestamp) (body : List Field) :
    Bytes :=
  Wire.fieldBytes (.ofText .msgType type.code :: (s.addressed n time ++ body))

/-- A message that starts with the header reads back as it was written, unless its length does not
fit into the field for it. -/
theorem decode_header_iff {frame : Bytes} {m : Message}
    (h : Wire.encode (s.header type n time ++ body) = .ok frame) :
    Message.decode s.config.beginString frame = .ok m ↔
      (s.wireBody type n time body).length < 2 ^ 64 ∧ m = ⟨s.header type n time ++ body⟩ := by
  rw [header_append] at h
  rw [Message.decode, Wire.decode_encode_iff h, header_append]
  constructor
  · rintro ⟨_, hlength, hm⟩
    exact ⟨hlength, hm⟩
  · rintro ⟨hlength, hm⟩
    refine ⟨fun v hv => ?_, hlength, hm⟩
    exact Option.mem_some_iff.mp hv

theorem get?_msgType_header :
    Message.get? ⟨s.header type n time ++ body⟩ .msgType = some (.ofText .msgType type.code) :=
  rfl

theorem msgType_header : Message.msgType ⟨s.header type n time ++ body⟩ = .ofCode type.code := by
  rw [Message.msgType, Message.text?,
    Message.read?_eq_some get?_msgType_header (Field.text_ofText ..)]

theorem seqNum?_header : Message.seqNum? ⟨s.header type n time ++ body⟩ = some n := by
  have hget : Message.get? ⟨s.header type n time ++ body⟩ .msgSeqNum =
      some (.ofSeqNum .msgSeqNum n) := rfl
  exact Message.read?_eq_some hget (Field.nat64_ofSeqNum .msgSeqNum n)

theorem sender_header :
    Message.text? ⟨s.header type n time ++ body⟩ .senderCompId = some s.config.sender.text :=
  Message.read?_eq_some rfl (Field.text_ofText .senderCompId _)

theorem target_header :
    Message.text? ⟨s.header type n time ++ body⟩ .targetCompId = some s.config.target.text :=
  Message.read?_eq_some rfl (Field.text_ofText .targetCompId _)

/-- A field that the header does not have is looked for behind it. -/
theorem get?_header {tag : Tag}
    (h : tag ∉ [.beginString, .msgType, .senderCompId, .targetCompId, .msgSeqNum, .sendingTime]) :
    Message.get? ⟨s.header type n time ++ body⟩ tag = body.find? (·.tag = tag) := by
  simp only [List.mem_cons, List.not_mem_nil, or_false, not_or] at h
  obtain ⟨h8, h35, h49, h56, h34, h52⟩ := h
  rw [Message.get?, List.find?_append, Option.or_eq_right_of_none]
  rw [List.find?_eq_none]
  intro f hf
  simp only [header, List.mem_cons, List.not_mem_nil, or_false] at hf
  rcases hf with rfl | rfl | rfl | rfl | rfl | rfl
  · exact fun h => h8 (of_decide_eq_true h).symm
  · exact fun h => h35 (of_decide_eq_true h).symm
  · exact fun h => h49 (of_decide_eq_true h).symm
  · exact fun h => h56 (of_decide_eq_true h).symm
  · exact fun h => h34 (of_decide_eq_true h).symm
  · exact fun h => h52 (of_decide_eq_true h).symm

/-- A number in the body is read, unless its tag is one of the header's. -/
theorem nat64?_header {tag : Tag} {f : Field} {k : UInt64}
    (h : tag ∉ [.beginString, .msgType, .senderCompId, .targetCompId, .msgSeqNum, .sendingTime])
    (hf : body.find? (·.tag = tag) = some f) (hk : f.nat64 = .ok k) :
    Message.nat64? ⟨s.header type n time ++ body⟩ tag = some k :=
  Message.read?_eq_some ((get?_header h).trans hf) hk

/-! ## Frames that are numbered and kept -/

/-- The types that belong to the application by their text, whatever they are called. -/
def isAppCode (type : MsgType) : Prop :=
  (MsgType.ofCode type.code).isApp = true

/-- A frame that a session with the given settings numbers with `n` and keeps, where the application
sends only messages of its own. -/
def Produced (c : SessionConfig) (n : SeqNum) (frame : Bytes) : Prop :=
  ∃ (s : Session Unit) (type : MsgType) (body : List Field) (time : Timestamp), s.config = c ∧
    Writes isAppCode type body ∧ Wire.encode (s.header type n time ++ body) = .ok frame

/-- The types of the messages that are numbered and kept. Rejects and sequence resets are not among
them. -/
theorem Writes.type_ne {T : MsgType → Prop} (hT : ∀ type, T type → isAppCode type)
    (h : Writes T type body) :
    MsgType.ofCode type.code ≠ .reject ∧ MsgType.ofCode type.code ≠ .sequenceReset := by
  cases h with
  | application _ _ htype =>
    have happ : (MsgType.ofCode type.code).isApp = true := hT _ htype
    constructor
    all_goals
      intro h
      rw [h] at happ
      cases happ
  | _ => decide

/-- What a produced frame reads as. -/
theorem Produced.decode {c : SessionConfig} {frame : Bytes} {m : Message} (h : Produced c n frame)
    (hm : Message.decode c.beginString frame = .ok m) :
    m.seqNum? = some n ∧ m.msgType ≠ .reject ∧ m.msgType ≠ .sequenceReset := by
  obtain ⟨s, type, body, time, rfl, hwrites, hencode⟩ := h
  obtain ⟨_, rfl⟩ := (decode_header_iff hencode).mp hm
  rw [msgType_header]
  exact ⟨seqNum?_header, hwrites.type_ne fun _ h => h⟩

/-! ## Frames that are sent again -/

end Session

namespace Resend

variable {m : Message} {time : Timestamp}

/-- A message that is sent again differs from what it was in three fields only. -/
theorem get?_duplicate {tag : Tag}
    (h : tag ∉ [.sendingTime, .possDupFlag, .origSendingTime]) :
    (duplicate m time).get? tag = m.get? tag := by
  simp only [List.mem_cons, List.not_mem_nil, or_false, not_or] at h
  obtain ⟨h52, h43, h122⟩ := h
  have hset (m : Message) (f : Field) (hf : tag ≠ f.tag) : (m.set f).get? tag = m.get? tag := by
    rw [Message.get?_set, if_neg (Ne.symm hf)]
  unfold duplicate
  split
  · rw [hset _ _ h122, hset _ (.ofBool .possDupFlag true) h43,
      hset _ (.ofTimestamp .sendingTime time) h52]
  · rw [hset _ (.ofBool .possDupFlag true) h43, hset _ (.ofTimestamp .sendingTime time) h52]

theorem text?_duplicate {tag : Tag} (h : tag ∉ [.sendingTime, .possDupFlag, .origSendingTime]) :
    (duplicate m time).text? tag = m.text? tag := by
  rw [Message.text?, Message.read?, get?_duplicate h]
  rfl

theorem seqNum?_duplicate : (duplicate m time).seqNum? = m.seqNum? := by
  rw [Message.seqNum?, Message.nat64?, Message.read?, get?_duplicate (by decide)]
  rfl

theorem msgType_duplicate : (duplicate m time).msgType = m.msgType := by
  rw [Message.msgType, text?_duplicate (by decide)]
  rfl

theorem resendable?_eq_some_iff {version : String} {frame : Bytes} :
    resendable? version frame = some m ↔
      Message.decode version frame = .ok m ∧ m.msgType.isApp = true := by
  unfold resendable?
  cases Message.decode version frame with
  | error e => simp
  | ok k =>
    show (if k.msgType.isApp = true then some k else none) = some m ↔ _
    constructor
    · intro h
      split at h
      · next happ =>
        cases h
        exact ⟨rfl, happ⟩
      · cases h
    · rintro ⟨hk, happ⟩
      cases hk
      exact if_pos happ

/-- Marking a message changes what follows its version and its type only. -/
theorem duplicate_listed (version type : Bytes) (rest : List Field) (time : Timestamp) :
    duplicate ⟨Wire.listed version type rest⟩ time =
      ⟨Wire.listed version type (duplicate ⟨rest⟩ time).fields⟩ := by
  have hset (f : Field) (rest : List Field) (hversion : f.tag ≠ .beginString)
      (htype : f.tag ≠ .msgType) :
      Message.set ⟨Wire.listed version type rest⟩ f =
        ⟨Wire.listed version type (Message.set ⟨rest⟩ f).fields⟩ :=
    congrArg Message.mk (Wire.set_listed hversion htype)
  have hget : Message.get? ⟨Wire.listed version type rest⟩ .sendingTime =
      Message.get? ⟨rest⟩ .sendingTime := rfl
  unfold duplicate
  simp only
  rw [hset (.ofTimestamp .sendingTime time) _ (show Tag.sendingTime ≠ .beginString by decide)
      (show Tag.sendingTime ≠ .msgType by decide),
    hset (.ofBool .possDupFlag true) _ (show Tag.possDupFlag ≠ .beginString by decide)
      (show Tag.possDupFlag ≠ .msgType by decide), hget]
  cases Message.get? ⟨rest⟩ .sendingTime with
  | none => rfl
  | some old =>
    exact hset ⟨.origSendingTime, old.value⟩ _ (show Tag.origSendingTime ≠ .beginString by decide)
      (show Tag.origSendingTime ≠ .msgType by decide)

/-- A message that is sent again reads back as it was written, if at all. -/
theorem decode_duplicate {version : String} {stored frame : Bytes} {m' : Message}
    (h : Message.decode version stored = .ok m) (hencode : (duplicate m time).encode = .ok frame)
    (hm' : Message.decode version frame = .ok m') : m' = duplicate m time := by
  obtain ⟨v, t, rest, _, _, rfl⟩ := Wire.canonical_of_decode h
  rw [duplicate_listed] at hencode ⊢
  exact ((Wire.decode_encode_iff hencode).mp hm').2.2

end Resend

namespace Session

variable {σ : Type} {s : Session σ} {first following : SeqNum} {time : Timestamp}

theorem gapFill_congr {t : Session σ} (hconfig : t.config = s.config) (first following : SeqNum)
    (time : Timestamp) : t.gapFill first following time = s.gapFill first following time := by
  unfold gapFill
  rw [header_congr hconfig]

/-- A gap fill reads back as it was written, if at all. -/
theorem decode_gapFill {frame : Bytes} {m : Message}
    (hencode : (s.gapFill first following time).encode = .ok frame)
    (hm : Message.decode s.config.beginString frame = .ok m) :
    m = s.gapFill first following time :=
  ((decode_header_iff hencode).mp hm).2

theorem msgType_gapFill : (s.gapFill first following time).msgType = .sequenceReset :=
  msgType_header

theorem seqNum?_gapFill : (s.gapFill first following time).seqNum? = some first :=
  seqNum?_header

theorem newSeqNo_gapFill : (s.gapFill first following time).nat64? .newSeqNo = some following :=
  Message.read?_eq_some rfl (Field.nat64_ofSeqNum .newSeqNo following)

theorem isPlainReset_gapFill : isPlainReset (s.gapFill first following time) = false := by
  have hfill : (s.gapFill first following time).bool? .gapFillFlag = some true :=
    Message.read?_eq_some rfl (Field.bool_ofBool .gapFillFlag true)
  rw [isPlainReset, Message.isGapFill, hfill]
  simp

end Session

/-! ## Answers to a resend request -/

/-- What is known of each element of a list that was made step by step. -/
theorem exists_of_mem_mapM {ε α β : Type} {f : α → Except ε β} {xs : List α} {ys : List β}
    (h : xs.mapM f = .ok ys) {y : β} (hy : y ∈ ys) : ∃ x ∈ xs, f x = .ok y := by
  induction xs generalizing ys with
  | nil =>
    cases h
    cases hy
  | cons x xs ih =>
    rw [List.mapM_cons] at h
    obtain ⟨b, hb, h⟩ := exists_of_bind_eq_ok h
    obtain ⟨bs, hbs, h⟩ := exists_of_bind_eq_ok h
    cases h
    rcases List.mem_cons.mp hy with rfl | hy
    · exact ⟨x, List.mem_cons_self .., hb⟩
    · obtain ⟨x', hx', hf⟩ := ih hbs hy
      exact ⟨x', List.mem_cons_of_mem _ hx', hf⟩

namespace Resend

/-- What an answer says of the stored messages: one that is sent again is there, and nothing that
could be sent again is passed over. -/
inductive Answers (first last : SeqNum) (stored : List (SeqNum × Option Message)) :
    ResendItem → Prop
  | again {n : SeqNum} {m : Message} (h : (n, some m) ∈ stored) :
      Answers first last stored (.again n m)
  | fill {a b : SeqNum} (hfirst : first ≤ a) (hlt : a < b) (hlast : b ≤ last + 1)
      (h : ∀ e ∈ stored, a ≤ e.1 → e.1 < b → e.2 = none) : Answers first last stored (.fill a b)

theorem mem_fillUpTo {a b : SeqNum} {item : ResendItem} (h : item ∈ fillUpTo a b) :
    item = .fill a b ∧ a < b := by
  unfold fillUpTo at h
  split at h
  · next hlt => exact ⟨List.mem_singleton.mp h, hlt⟩
  · cases h

/-- The induction is on the stored messages, which ascend from `next` on and end at `last`. -/
theorem answers_of_mem_plan {last next : SeqNum} {stored : List (SeqNum × Option Message)}
    (hlast : last ≠ .top) (hasc : (stored.map Prod.fst).Pairwise (· < ·))
    (hrange : ∀ e ∈ stored, next ≤ e.1 ∧ e.1 ≤ last) {item : ResendItem}
    (h : item ∈ plan last next stored) : Answers next last stored item := by
  induction stored generalizing next with
  | nil =>
    obtain ⟨rfl, hlt⟩ := mem_fillUpTo h
    exact .fill (UInt64.le_refl _) hlt (UInt64.le_refl _) nofun
  | cons e stored ih =>
    obtain ⟨number, o⟩ := e
    rw [List.map_cons, List.pairwise_cons] at hasc
    obtain ⟨hkeys, hasc⟩ := hasc
    obtain ⟨⟨hnext, hnumber⟩, hrest⟩ := List.forall_mem_cons.mp hrange
    have habove (e : SeqNum × Option Message) (he : e ∈ stored) : number < e.1 :=
      hkeys e.1 (List.mem_map_of_mem he)
    cases o with
    | none =>
      -- The number joins those that are passed over, so the answers are those to the rest.
      rcases ih hasc hrest h with ⟨hmem⟩ | ⟨hfirst, hlt, hle, hnone⟩
      · exact .again (List.mem_cons_of_mem _ hmem)
      · refine .fill hfirst hlt hle fun e he => ?_
        rcases List.mem_cons.mp he with rfl | he
        · exact fun _ _ => rfl
        · exact hnone e he
    | some m =>
      rcases List.mem_append.mp h with h | h
      · obtain ⟨rfl, hlt⟩ := mem_fillUpTo h
        refine .fill (UInt64.le_refl _) hlt (by grind) fun e he hle hlt => ?_
        rcases List.mem_cons.mp he with rfl | he
        · exact absurd hlt (UInt64.lt_irrefl _)
        · exact absurd (habove e he) (UInt64.lt_asymm hlt)
      · rcases List.mem_cons.mp h with rfl | h
        · exact .again (List.mem_cons_self ..)
        -- What comes after the message starts above its number, and so does each gap fill there.
        · have hrest (e : SeqNum × Option Message) (he : e ∈ stored) :
              number + 1 ≤ e.1 ∧ e.1 ≤ last :=
            ⟨SeqNum.succ_le_of_lt (habove e he), (hrest e he).2⟩
          rcases ih hasc hrest h with ⟨hmem⟩ | ⟨hfirst, hlt, hle, hnone⟩
          · exact .again (List.mem_cons_of_mem _ hmem)
          · refine .fill (by grind) hlt hle fun e he hle' _ => ?_
            rcases List.mem_cons.mp he with rfl | he
            · exfalso
              grind
            · exact hnone e he hle' ‹_›

end Resend

end FixProtocol
