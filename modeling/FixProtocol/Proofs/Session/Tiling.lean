import FixProtocol.Proofs.Session.Resending
import FixProtocol.Proofs.Wire.Contents
import Mathlib.Data.List.Chain
import Mathlib.Data.List.Forall2

/-!
# What a resend request is answered with

Whatever numbers a request names, and whatever the journal holds, the session answers it. The
answers partition the numbers that were asked for and used: each application message that can be
read is sent again once, under its own number, and the numbers between are passed over by single gap
fills.

- `Resend.Covers`, `Resend.Partitions`: the numbers that a message, or messages one after the other,
  stand for.
- `Resend.Repeats`: a message that is sent again, beside what it was.
- `Resend.Tiled`: messages that answer a request.
- `Session.serveResend_tiles`: every request is answered so, and nothing else changes.
-/

namespace FixProtocol

namespace Resend

/-! ## Messages that stand for numbers -/

/-- The message stands for the numbers from one up to the one before another: an application message
for its own, and a gap fill for those before the number that it names. -/
inductive Covers (m : Message) : Nat → Nat → Prop
  | again {n : SeqNum} (happ : m.msgType.isApp = true) (hnumber : m.seqNum? = some n) :
      Covers m n.toNat (n.toNat + 1)
  | fill {n following : SeqNum} (htype : m.msgType = .sequenceReset) (hfill : m.isGapFill = true)
      (hnumber : m.seqNum? = some n) (hfollowing : m.nat64? .newSeqNo = some following)
      (hlt : n < following) : Covers m n.toNat following.toNat

/-- Messages that stand, one after the other, for the numbers from one up to the one before
another. -/
inductive Partitions : List Message → Nat → Nat → Prop
  | nil (n : Nat) : Partitions [] n n
  | cons {m : Message} {ms : List Message} {n k next : Nat} (head : Covers m n k)
      (tail : Partitions ms k next) : Partitions (m :: ms) n next

theorem Partitions.append {ms ms' : List Message} {a b e : Nat} (h : Partitions ms a b)
    (h' : Partitions ms' b e) : Partitions (ms ++ ms') a e := by
  induction h with
  | nil => exact h'
  | cons head _ ih => exact .cons head (ih h')

theorem Covers.single {m : Message} {n next : Nat} (h : Covers m n next) : Partitions [m] n next :=
  .cons h (.nil next)

/-- The tags that sending a message again may change. -/
def markedTags : List Tag :=
  [.sendingTime, .possDupFlag, .origSendingTime]

/-- A message as it is sent again, beside what it was: it says that it may be a duplicate, tells the
time of the original, and is otherwise the same. -/
structure Repeats (original copy : Message) : Prop where
  possDup : copy.bool? .possDupFlag = some true
  origTime : ∀ f, original.get? .sendingTime = some f →
    copy.get? .origSendingTime = some ⟨.origSendingTime, f.value⟩
  others : copy.fields.filter (·.tag ∉ markedTags) = original.fields.filter (·.tag ∉ markedTags)

/-- Messages that answer a request for the numbers from `first` up to the one before `next`, given
what the journal holds. -/
structure Tiled (version : String) (entries : List (SeqNum × Bytes)) (first next : Nat)
    (ms : List Message) : Prop where
  partition : Partitions ms first next
  resent : List.Forall₂ Repeats
    (Session.applications version
      (entries.filter fun e => first ≤ e.1.toNat && e.1.toNat < next))
    (ms.filter (·.msgType.isApp))
  fills : ∀ m ∈ ms, m.msgType = .sequenceReset → ∀ a b, Covers m a b → ∀ e ∈ entries,
    a ≤ e.1.toNat → e.1.toNat < b → resendable? version e.2 = none
  separate : ms.IsChain fun m m' => m.msgType.isApp = true ∨ m'.msgType.isApp = true

/-! ## Copies -/

theorem filter_replaceFirst {f : Field} {p : Field → Bool} (hp : ∀ g, g.tag = f.tag → p g = false)
    (fs : List Field) : (Message.replaceFirst f fs).filter p = fs.filter p := by
  induction fs with
  | nil => rfl
  | cons g gs ih =>
    unfold Message.replaceFirst
    split
    · next htag =>
      rw [List.filter_cons_of_neg (Bool.eq_false_iff.mp (hp f rfl)),
        List.filter_cons_of_neg (Bool.eq_false_iff.mp (hp g htag))]
    · rw [List.filter_cons, List.filter_cons, ih]

/-- Setting a field leaves the fields with other tags as they are. -/
theorem filter_set {m : Message} {f : Field} {p : Field → Bool}
    (hp : ∀ g, g.tag = f.tag → p g = false) : (m.set f).fields.filter p = m.fields.filter p := by
  unfold Message.set
  split
  · exact filter_replaceFirst hp m.fields
  · show (m.fields ++ [f]).filter p = _
    rw [List.filter_append, List.filter_cons_of_neg (Bool.eq_false_iff.mp (hp f rfl)),
      List.filter_nil, List.append_nil]

theorem repeats_duplicate (m : Message) (time : Timestamp) : Repeats m (duplicate m time) := by
  have hmarked {m : Message} {f : Field} (hf : f.tag ∈ markedTags) :
      (m.set f).fields.filter (·.tag ∉ markedTags) = m.fields.filter (·.tag ∉ markedTags) :=
    filter_set fun g hg => decide_eq_false (not_not.mpr (hg ▸ hf))
  have htime : (Field.ofTimestamp .sendingTime time).tag ∈ markedTags :=
    show Tag.sendingTime ∈ markedTags by decide
  have hflag : (Field.ofBool .possDupFlag true).tag ∈ markedTags :=
    show Tag.possDupFlag ∈ markedTags by decide
  have horig (value : Bytes) : (⟨.origSendingTime, value⟩ : Field).tag ∈ markedTags :=
    show Tag.origSendingTime ∈ markedTags by decide
  unfold duplicate
  cases hold : m.get? .sendingTime with
  | none =>
    refine ⟨?_, fun f hf => ?_, ?_⟩
    · exact Message.read?_eq_some (Message.get?_set ..) (Field.bool_ofBool .possDupFlag true)
    · rw [hold] at hf
      cases hf
    · rw [hmarked hflag, hmarked htime]
  | some old =>
    refine ⟨?_, fun f hf => ?_, ?_⟩
    · refine Message.read?_eq_some ?_ (Field.bool_ofBool .possDupFlag true)
      rw [Message.get?_set, if_neg (show Tag.origSendingTime ≠ .possDupFlag by decide)]
      exact Message.get?_set ..
    · rw [hold] at hf
      cases hf
      exact Message.get?_set ..
    · rw [hmarked (horig _), hmarked hflag, hmarked htime]

/-! ## What can be sent again -/

/-- What can be sent again of the entries of a journal, beside their numbers. -/
def readings (version : String) (entries : List (SeqNum × Bytes)) :
    List (SeqNum × Option Message) :=
  entries.map fun e => (e.1, resendable? version e.2)

variable {version : String} {entries : List (SeqNum × Bytes)}

theorem mem_readings_some_iff {n : SeqNum} {m : Message} :
    (n, some m) ∈ readings version entries ↔
      ∃ frame, (n, frame) ∈ entries ∧ resendable? version frame = some m := by
  rw [readings, List.mem_map]
  constructor
  · rintro ⟨e, he, heq⟩
    obtain ⟨rfl, hm⟩ := Prod.mk.inj heq
    exact ⟨e.2, he, hm⟩
  · rintro ⟨frame, he, hm⟩
    exact ⟨(n, frame), he, congrArg (Prod.mk n) hm⟩

theorem map_fst_readings : (readings version entries).map Prod.fst = entries.map Prod.fst :=
  List.map_map

theorem filterMap_snd_readings :
    (readings version entries).filterMap Prod.snd = Session.applications version entries :=
  List.filterMap_map

end Resend

/-! ## The answers as messages -/

namespace Session

variable {σ : Type} {s : Session σ} {time : Timestamp} {last next : SeqNum}
  {stored : List (SeqNum × Option Message)}

/-- The answers to a request as messages. -/
def resendMessages (s : Session σ) (time : Timestamp) (items : List ResendItem) : List Message :=
  items.map (s.resendMessage time)

theorem resendMessages_plan_cons (last next n : SeqNum) (m : Message) :
    s.resendMessages time (Resend.plan last next ((n, some m) :: stored)) =
      s.resendMessages time (Resend.fillUpTo next n) ++
        Resend.duplicate m time :: s.resendMessages time (Resend.plan last (n + 1) stored) :=
  List.map_append

theorem covers_fill {a b : SeqNum} (h : a < b) :
    Resend.Covers (s.gapFill a b time) a.toNat b.toNat := by
  have hfill : (s.gapFill a b time).isGapFill = true := by
    rw [Message.isGapFill, Message.bool?,
      Message.read?_eq_some rfl (Field.bool_ofBool .gapFillFlag true)]
    rfl
  exact .fill msgType_gapFill hfill seqNum?_gapFill newSeqNo_gapFill h

/-- A gap fill stands for nothing but the numbers that it was made for. -/
theorem eq_of_covers_gapFill {a b : SeqNum} {n next : Nat}
    (h : Resend.Covers (s.gapFill a b time) n next) : n = a.toNat ∧ next = b.toNat := by
  cases h with
  | again happ =>
    rw [msgType_gapFill] at happ
    cases happ
  | fill _ _ hnumber hfollowing =>
    rw [seqNum?_gapFill] at hnumber
    rw [newSeqNo_gapFill] at hfollowing
    cases hnumber
    cases hfollowing
    exact ⟨rfl, rfl⟩

theorem covers_again {n : SeqNum} {m : Message} (happ : m.msgType.isApp = true)
    (hnumber : m.seqNum? = some n) :
    Resend.Covers (Resend.duplicate m time) n.toNat (n.toNat + 1) := by
  refine .again ?_ ?_
  · rw [Resend.msgType_duplicate]
    exact happ
  · rw [Resend.seqNum?_duplicate]
    exact hnumber

theorem partitions_fillUpTo {a b : SeqNum} (h : a ≤ b) :
    Resend.Partitions (s.resendMessages time (Resend.fillUpTo a b)) a.toNat b.toNat := by
  unfold Resend.fillUpTo
  split
  · next hlt => exact (covers_fill hlt).single
  · next hlt =>
    obtain rfl : a = b := UInt64.le_antisymm h (UInt64.not_lt.mp hlt)
    exact .nil _

/-- The answers partition what was asked for. The induction is on the stored messages, which ascend
from `next` on and end at `last`. -/
theorem partitions_plan (hlast : last < .top) (hnext : next ≤ last + 1)
    (hasc : (stored.map Prod.fst).Pairwise (· < ·))
    (hrange : ∀ e ∈ stored, next ≤ e.1 ∧ e.1 ≤ last)
    (happ : ∀ n m, (n, some m) ∈ stored → m.msgType.isApp = true ∧ m.seqNum? = some n) :
    Resend.Partitions (s.resendMessages time (Resend.plan last next stored)) next.toNat
      (last + 1).toNat := by
  induction stored generalizing next with
  | nil => exact partitions_fillUpTo hnext
  | cons e stored ih =>
    obtain ⟨number, o⟩ := e
    rw [List.map_cons, List.pairwise_cons] at hasc
    obtain ⟨hkeys, hasc⟩ := hasc
    obtain ⟨⟨hnumber, hle⟩, hrest⟩ := List.forall_mem_cons.mp hrange
    have happRest (n : SeqNum) (m : Message) (hmem : (n, some m) ∈ stored) :=
      happ n m (List.mem_cons_of_mem _ hmem)
    cases o with
    | none => exact ih hnext hasc hrest happRest
    | some m =>
      have hrest (e : SeqNum × Option Message) (he : e ∈ stored) : number + 1 ≤ e.1 ∧ e.1 ≤ last :=
        ⟨SeqNum.succ_le_of_lt (hkeys e.1 (List.mem_map_of_mem he)), (hrest e he).2⟩
      obtain ⟨hisApp, hseq⟩ := happ number m (List.mem_cons_self ..)
      have hbelow : number < .top := UInt64.lt_of_le_of_lt hle hlast
      have htail := ih (SeqNum.succ_le_succ hle hlast) hasc hrest happRest
      rw [SeqNum.toNat_succ (UInt64.ne_of_lt hbelow)] at htail
      rw [resendMessages_plan_cons]
      exact (partitions_fillUpTo hnumber).append (.cons (covers_again hisApp hseq) htail)

/-- Among the answers the application messages are the copies of what can be sent again. -/
theorem filter_plan (last next : SeqNum)
    (happ : ∀ n m, (n, some m) ∈ stored → m.msgType.isApp = true) :
    (s.resendMessages time (Resend.plan last next stored)).filter (·.msgType.isApp) =
      (stored.filterMap Prod.snd).map (Resend.duplicate · time) := by
  have hfill (a b : SeqNum) :
      (s.resendMessages time (Resend.fillUpTo a b)).filter (·.msgType.isApp) = [] := by
    rw [List.filter_eq_nil_iff]
    intro m hm
    obtain ⟨item, hitem, rfl⟩ := List.mem_map.mp hm
    obtain ⟨rfl, _⟩ := Resend.mem_fillUpTo hitem
    rw [resendMessage, msgType_gapFill]
    exact Bool.false_ne_true
  induction stored generalizing next with
  | nil => exact hfill ..
  | cons e stored ih =>
    obtain ⟨number, o⟩ := e
    have happRest (n : SeqNum) (m : Message) (hmem : (n, some m) ∈ stored) :=
      happ n m (List.mem_cons_of_mem _ hmem)
    cases o with
    | none => exact ih next happRest
    | some m =>
      have hcopy : (Resend.duplicate m time).msgType.isApp = true := by
        rw [Resend.msgType_duplicate]
        exact happ number m (List.mem_cons_self ..)
      rw [resendMessages_plan_cons, List.filter_append, hfill, List.nil_append,
        List.filter_cons_of_pos (by exact hcopy), ih (number + 1) happRest]
      rfl

/-- Of two answers next to each other one is an application message. -/
theorem isChain_plan (last next : SeqNum)
    (happ : ∀ n m, (n, some m) ∈ stored → m.msgType.isApp = true) :
    (s.resendMessages time (Resend.plan last next stored)).IsChain
      fun m m' => m.msgType.isApp = true ∨ m'.msgType.isApp = true := by
  have hfill (a b : SeqNum) : (s.resendMessages time (Resend.fillUpTo a b)).IsChain
      fun m m' => m.msgType.isApp = true ∨ m'.msgType.isApp = true := by
    unfold Resend.fillUpTo
    split
    · exact List.isChain_singleton _
    · exact List.isChain_nil
  induction stored generalizing next with
  | nil => exact hfill ..
  | cons e stored ih =>
    obtain ⟨number, o⟩ := e
    have happRest (n : SeqNum) (m : Message) (hmem : (n, some m) ∈ stored) :=
      happ n m (List.mem_cons_of_mem _ hmem)
    cases o with
    | none => exact ih next happRest
    | some m =>
      have hcopy : (Resend.duplicate m time).msgType.isApp = true := by
        rw [Resend.msgType_duplicate]
        exact happ number m (List.mem_cons_self ..)
      rw [resendMessages_plan_cons, List.isChain_append, List.isChain_cons]
      refine ⟨hfill next number, ⟨fun _ _ => .inl hcopy, ih (number + 1) happRest⟩, ?_⟩
      rintro _ _ _ ⟨⟩
      exact .inr hcopy

/-! ## The answers as frames -/

section
variable {version : String} {first : SeqNum} {entries : List (SeqNum × Bytes)} {item : ResendItem}
  {frame : Bytes}

/-- An answer can be written: whatever was decoded, and a gap fill. -/
theorem exists_encode_answer (hc : Speakable s.config)
    (h : Resend.Answers first last (Resend.readings version entries) item) (time : Timestamp) :
    ∃ frame, (s.resendMessage time item).encode = .ok frame := by
  cases h with
  | again hmem =>
    obtain ⟨_, _, hm⟩ := Resend.mem_readings_some_iff.mp hmem
    obtain ⟨_, _, _, _, hcanonical, rfl⟩ :=
      Wire.canonical_of_decode (Resend.resendable?_eq_some_iff.mp hm).1
    rw [resendMessage, Resend.duplicate_listed]
    exact ⟨_, Wire.encode_of_canonical (hcanonical.duplicate time)⟩
  | @fill a b =>
    have htype : Field.Writable (.ofText .msgType MsgType.sequenceReset.code) :=
      Field.writable_msgType rfl
    exact exists_encode_header (n := a) hc htype (isBody_fillBody b time) time

/-- A message that is sent again is read back. -/
theorem carries_duplicate {stored : Bytes} {m : Message} {time : Timestamp}
    (hm : Resend.resendable? version stored = some m)
    (hencode : (Resend.duplicate m time).encode = .ok frame) :
    Wire.Carries version frame (Resend.duplicate m time) := by
  obtain ⟨v, _, _, hv, _, rfl⟩ :=
    Wire.canonical_of_decode (Resend.resendable?_eq_some_iff.mp hm).1
  obtain rfl := hv _ rfl
  rw [Resend.duplicate_listed] at hencode ⊢
  exact Wire.carries_of_encode hencode

/-- An answer that was written is read back. -/
theorem carries_answer
    (h : Resend.Answers first last (Resend.readings s.config.beginString entries) item)
    (hencode : (s.resendMessage time item).encode = .ok frame) :
    Wire.Carries s.config.beginString frame (s.resendMessage time item) := by
  cases h with
  | again hmem =>
    obtain ⟨_, _, hm⟩ := Resend.mem_readings_some_iff.mp hmem
    exact carries_duplicate hm hencode
  | fill => exact Wire.carries_of_encode hencode

/-- Whoever reads an answer reads the message that was meant. -/
theorem decode_answer {m : Message}
    (h : Resend.Answers first last (Resend.readings s.config.beginString entries) item)
    (hencode : (s.resendMessage time item).encode = .ok frame)
    (hm : Message.decode s.config.beginString frame = .ok m) : m = s.resendMessage time item := by
  cases h with
  | again hmem =>
    obtain ⟨_, _, hstored⟩ := Resend.mem_readings_some_iff.mp hmem
    exact Resend.decode_duplicate (Resend.resendable?_eq_some_iff.mp hstored).1 hencode hm
  | fill => exact decode_gapFill hencode hm

/-- An answer says that it may be a duplicate. -/
theorem isPossDup_resendMessage (s : Session σ) (time : Timestamp) (item : ResendItem) :
    (s.resendMessage time item).isPossDup = true := by
  cases item with
  | again n m =>
    rw [resendMessage, Message.isPossDup, (Resend.repeats_duplicate m time).possDup]
    rfl
  | fill a b =>
    have hflag : (s.gapFill a b time).bool? .possDupFlag = some true :=
      Message.read?_eq_some rfl (Field.bool_ofBool .possDupFlag true)
    rw [resendMessage, Message.isPossDup, hflag]
    rfl

end

/-- The frame reads as nothing but the message. -/
def ReadsAs (version : String) (frame : Bytes) (m : Message) : Prop :=
  ∀ m', Message.decode version frame = .ok m' → m' = m

/-- The answers to a request are written. -/
theorem exists_sends {first last : SeqNum} {entries : List (SeqNum × Bytes)}
    {items : List ResendItem} (hc : Speakable s.config)
    (h : ∀ item ∈ items,
      Resend.Answers first last (Resend.readings s.config.beginString entries) item)
    (time : Timestamp) :
    ∃ frames, Sends s time items frames ∧
      List.Forall₂ (Wire.Carries s.config.beginString) frames (s.resendMessages time items) ∧
      List.Forall₂ (ReadsAs s.config.beginString) frames (s.resendMessages time items) := by
  induction items with
  | nil => exact ⟨[], rfl, .nil, .nil⟩
  | cons item items ih =>
    obtain ⟨hitem, hitems⟩ := List.forall_mem_cons.mp h
    obtain ⟨frame, hframe⟩ := exists_encode_answer hc hitem time
    obtain ⟨frames, hsends, hcarries, hreads⟩ := ih hitems
    exact ⟨frame :: frames, (Sends.single hframe).append hsends,
      .cons (carries_answer hitem hframe) hcarries,
      .cons (fun _ hm => decode_answer hitem hframe hm) hreads⟩

end Session

/-- What a journal holds of a range. -/
theorem Journal.range_eq_filter (j : Journal) (first last : SeqNum) :
    j.range first last =
      j.entries.filter fun e => first.toNat ≤ e.1.toNat && e.1.toNat < last.toNat + 1 := by
  refine List.filter_congr fun e _ => ?_
  have hlast : e.1 ≤ last ↔ e.1.toNat < last.toNat + 1 :=
    UInt64.le_iff_toNat_le.trans Nat.lt_succ_iff.symm
  rw [decide_eq_decide.mpr hlast, decide_eq_decide.mpr UInt64.le_iff_toNat_le]

namespace Session

/-! ## Every request is answered -/

/-- The last number that is asked for and was used. -/
theorem toNat_lastRequested {σ : Type} (s : Session σ) (requested : SeqNum) :
    (s.lastRequested requested).toNat =
      if requested = 0 then s.sequences.nextOutgoing.toNat - 1
      else min requested.toNat (s.sequences.nextOutgoing.toNat - 1) := by
  unfold lastRequested
  simp only
  split
  · exact SeqNum.toNat_previous _
  · rw [SeqNum.toNat_min, SeqNum.toNat_previous]

theorem lastRequested_lt_top {σ : Type} (s : Session σ) (requested : SeqNum) :
    s.lastRequested requested < .top :=
  SeqNum.lt_top_of_ne (SeqNum.ne_top_of_le_previous (s.lastRequested_le_previous requested))

section
variable {s : Session MemoryStore} {first last : SeqNum}
  (hkeyed : ∀ e ∈ s.store.outbound.entries, ∀ m,
    Resend.resendable? s.config.beginString e.2 = some m → m.seqNum? = some e.1)

theorem ascending_readings :
    ((Resend.readings s.config.beginString
      (s.store.outbound.range first last)).map Prod.fst).Pairwise (· < ·) := by
  rw [Resend.map_fst_readings]
  exact s.store.outbound.ascending_range first last

theorem mem_range_of_mem_readings {e : SeqNum × Option Message}
    (he : e ∈ Resend.readings s.config.beginString (s.store.outbound.range first last)) :
    first ≤ e.1 ∧ e.1 ≤ last := by
  obtain ⟨stored, hstored, rfl⟩ := List.mem_map.mp he
  exact (Journal.mem_range_iff.mp hstored).2

/-- What an answer to a request says of the journal. -/
theorem answers_of_mem_plan {item : ResendItem} (hlast : last < .top)
    (h : item ∈ Resend.plan last first
      (Resend.readings s.config.beginString (s.store.outbound.range first last))) :
    Resend.Answers first last
      (Resend.readings s.config.beginString (s.store.outbound.range first last)) item :=
  Resend.answers_of_mem_plan (UInt64.ne_of_lt hlast) ascending_readings
    (fun _ => mem_range_of_mem_readings) h

include hkeyed

/-- The answers tile the range that they are made for. -/
theorem tiled_plan (time : Timestamp) (hlast : last < .top) (hle : first ≤ last) :
    Resend.Tiled s.config.beginString s.store.outbound.entries first.toNat (last.toNat + 1)
      (s.resendMessages time (Resend.plan last first
        (Resend.readings s.config.beginString (s.store.outbound.range first last)))) := by
  have happ (n : SeqNum) (m : Message) (h : (n, some m) ∈
      Resend.readings s.config.beginString (s.store.outbound.range first last)) :
      m.msgType.isApp = true ∧ m.seqNum? = some n := by
    obtain ⟨frame, he, hm⟩ := Resend.mem_readings_some_iff.mp h
    exact ⟨(Resend.resendable?_eq_some_iff.mp hm).2,
      hkeyed _ (Journal.mem_range_iff.mp he).1 m hm⟩
  refine ⟨?_, ?_, ?_, isChain_plan _ _ fun n m h => (happ n m h).1⟩
  · have hnext : first ≤ last + 1 := UInt64.le_trans hle (SeqNum.le_succ_of_lt_top hlast)
    rw [← SeqNum.toNat_succ (UInt64.ne_of_lt hlast)]
    exact partitions_plan hlast hnext ascending_readings (fun _ => mem_range_of_mem_readings) happ
  · rw [filter_plan _ _ fun n m h => (happ n m h).1, ← Journal.range_eq_filter,
      List.forall₂_map_right_iff, Resend.filterMap_snd_readings, List.forall₂_same]
    exact fun m _ => Resend.repeats_duplicate m time
  · intro m hm htype a b hcovers e he hle hlt
    obtain ⟨item, hitem, rfl⟩ := List.mem_map.mp hm
    cases answers_of_mem_plan hlast hitem with
    | again hmem =>
      rw [resendMessage, Resend.msgType_duplicate] at htype
      have hadmin := (happ _ _ hmem).1
      rw [htype] at hadmin
      cases hadmin
    | fill hfirst _ hfollowing hnone =>
      obtain ⟨rfl, rfl⟩ := eq_of_covers_gapFill hcovers
      have hle : _ ≤ e.1 := UInt64.le_iff_toNat_le.mpr hle
      have hlt : e.1 < _ := UInt64.lt_iff_toNat_lt.mpr hlt
      have hrange : e ∈ s.store.outbound.range first last := Journal.mem_range_iff.mpr
        ⟨he, UInt64.le_trans hfirst hle, SeqNum.le_of_lt_of_le_succ hlt hfollowing⟩
      exact hnone _ (List.mem_map_of_mem hrange) hle hlt

/-- A request is answered with the messages that were planned for it, and only the clock changes. -/
theorem ends_serveResend_planned {request : Message} {begun requested : SeqNum}
    (hc : Speakable s.config) (hbegun : requestedNumber request .beginSeqNo "BeginSeqNo" = .ok begun)
    (hrequested : requestedNumber request .endSeqNo "EndSeqNo" = .ok requested) (now : Moment) :
    Ends (serveResend request now) s
      (fun r t => ∃ frames ms heartbeat, r = ⟨frames, [], []⟩ ∧ t = { s with heartbeat } ∧
        List.Forall₂ (ReadsAs s.config.beginString) frames ms ∧
        List.Forall₂ (Wire.Carries s.config.beginString) frames ms ∧
        (s.lastRequested requested < max begun .first → ms = []) ∧
        (max begun .first ≤ s.lastRequested requested →
          Resend.Tiled s.config.beginString s.store.outbound.entries (max begun .first).toNat
            ((s.lastRequested requested).toNat + 1) ms))
      (fun _ _ => False) := by
  have htop := s.lastRequested_lt_top requested
  refine ends_serveResend hbegun hrequested (fun hlt => ?_) fun hle => ⟨?_, nofun⟩
  · refine ⟨[], [], s.heartbeat, rfl, rfl, .nil, .nil, fun _ => rfl, fun hle => ?_⟩
    exact absurd hlt (UInt64.not_lt.mpr hle)
  · rintro _ _ ⟨⟩
    obtain ⟨frames, hsends, hcarries, hreads⟩ :=
      exists_sends hc (fun item hitem => answers_of_mem_plan htop hitem) now.utc
    refine ⟨fun _ hwritten => ?_, fun _ hunwritten => ?_⟩
    · cases hsends.symm.trans hwritten
      exact ⟨frames, _, _, rfl, rfl, hreads, hcarries,
        fun hlt => absurd hle (UInt64.not_le.mpr hlt), fun _ => tiled_plan hkeyed now.utc htop hle⟩
    · cases hsends.symm.trans hunwritten

theorem ends_serveResend_tiled {request : Message} {begun requested : SeqNum}
    (hc : Speakable s.config) (hbegun : requestedNumber request .beginSeqNo "BeginSeqNo" = .ok begun)
    (hrequested : requestedNumber request .endSeqNo "EndSeqNo" = .ok requested) (now : Moment) :
    Ends (serveResend request now) s
      (fun r t => ∃ frames ms, r = ⟨frames, [], []⟩ ∧ t.store = s.store ∧
        t.sequences = s.sequences ∧
        List.Forall₂ (Wire.Carries s.config.beginString) frames ms ∧
        (s.lastRequested requested < max begun .first → ms = []) ∧
        (max begun .first ≤ s.lastRequested requested →
          Resend.Tiled s.config.beginString s.store.outbound.entries (max begun .first).toNat
            ((s.lastRequested requested).toNat + 1) ms))
      (fun _ _ => False) := by
  refine (ends_serveResend_planned hkeyed hc hbegun hrequested now).imp ?_
  rintro _ _ ⟨frames, ms, heartbeat, rfl, rfl, _, hanswered⟩
  exact ⟨frames, ms, rfl, rfl, rfl, hanswered⟩

/-- A session answers every request, whatever its state: with nothing if the request names no number
that was used, and else with messages that tile the numbers from the first to the last that it names
and were used. Neither the store nor the numbering changes. Every application message that can be
read must be stored under its own number. -/
theorem serveResend_tiles {request : Message} {begun requested : SeqNum} (hc : Speakable s.config)
    (hbegin : request.nat64? .beginSeqNo = some begun)
    (hend : request.nat64? .endSeqNo = some requested) (now : Moment) :
    let first := max begun.toNat 1
    let lastSent := s.sequences.nextOutgoing.toNat - 1
    let last := if requested = 0 then lastSent else min requested.toNat lastSent
    ∃ frames ms t, (serveResend request now).run s = (.ok ⟨frames, [], []⟩, t) ∧
      t.store = s.store ∧ t.sequences = s.sequences ∧
      List.Forall₂ (Wire.Carries s.config.beginString) frames ms ∧
      (last < first → ms = []) ∧
      (first ≤ last →
        Resend.Tiled s.config.beginString s.store.outbound.entries first (last + 1) ms) := by
  intro first lastSent last
  have hbegun : requestedNumber request .beginSeqNo "BeginSeqNo" = .ok begun := by
    rw [requestedNumber, hbegin]
  have hrequested : requestedNumber request .endSeqNo "EndSeqNo" = .ok requested := by
    rw [requestedNumber, hend]
  have hfirst : (max begun .first).toNat = first := SeqNum.toNat_max ..
  have hlast : (s.lastRequested requested).toNat = last := toNat_lastRequested ..
  have hends := ends_serveResend_tiled hkeyed hc hbegun hrequested now
  rw [UInt64.lt_iff_toNat_lt, UInt64.le_iff_toNat_le, hfirst, hlast] at hends
  obtain ⟨_, t, hrun, frames, ms, rfl, hanswered⟩ := run_of_ends hends
  exact ⟨frames, ms, t, hrun, hanswered⟩

end

end Session

namespace Sample

/-- A journal with a logon, two orders, a heartbeat, an unreadable frame, and two numbers that hold
nothing. -/
def mixedJournal : Journal where
  entries := [(1, logon initiator), (2, frame initiator .newOrderSingle 2 []),
    (3, frame initiator .heartbeat 3 []), (5, frame initiator .newOrderSingle 5 []), (6, [])]
  nextSeq := 8
  ascending := by decide

/-- An initiator that is logged on over such a journal. -/
def mixed : Session MemoryStore :=
  { Session.fresh initiator ⟨.startingAt 4, mixedJournal⟩ 0 with state := .loggedOn }

/-- A request for everything. -/
def requestAll : Message :=
  ⟨[.ofSeqNum .beginSeqNo 0, .ofSeqNum .endSeqNo 0]⟩

theorem keyed_mixed : ∀ e ∈ mixed.store.outbound.entries, ∀ m,
    Resend.resendable? mixed.config.beginString e.2 = some m → m.seqNum? = some e.1 := by
  have h : ∀ e ∈ mixedJournal.entries, ∀ m ∈ Resend.resendable? initiator.beginString e.2,
      m.seqNum? = some e.1 := by decide +kernel
  exact h

end Sample

namespace Session

theorem serveResend_tiles_mixed :
    ∃ frames ms t,
      (serveResend Sample.requestAll Sample.moment).run Sample.mixed = (.ok ⟨frames, [], []⟩, t) ∧
        (frames.map fun frame =>
          (Message.decode "FIX.4.2" frame).toOption.map fun m => (m.msgType, m.seqNum?)) =
            [some (.sequenceReset, some 1), some (.newOrderSingle, some 2),
              some (.sequenceReset, some 3), some (.newOrderSingle, some 5),
              some (.sequenceReset, some 6)] ∧
        Resend.Tiled "FIX.4.2" Sample.mixedJournal.entries 1 8 ms := by
  have hbegin : Sample.requestAll.nat64? .beginSeqNo = some 0 := by decide +kernel
  have hend : Sample.requestAll.nat64? .endSeqNo = some 0 := by decide +kernel
  obtain ⟨frames, ms, t, hrun, _, _, _, _, htiled⟩ := serveResend_tiles Sample.keyed_mixed
    Sample.speakable_initiator hbegin hend Sample.moment
  refine ⟨frames, ms, t, hrun, ?_, htiled (by decide)⟩
  have hframes : (((serveResend Sample.requestAll Sample.moment).run Sample.mixed).1.toOption.map
      fun r => r.outbound.map fun frame =>
        (Message.decode "FIX.4.2" frame).toOption.map fun m => (m.msgType, m.seqNum?)) =
      some [some (.sequenceReset, some 1), some (.newOrderSingle, some 2),
        some (.sequenceReset, some 3), some (.newOrderSingle, some 5),
        some (.sequenceReset, some 6)] := by
    decide +kernel
  rw [hrun] at hframes
  exact Option.some.inj hframes

end Session

end FixProtocol
