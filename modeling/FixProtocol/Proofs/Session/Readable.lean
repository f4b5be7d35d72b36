import FixProtocol.Proofs.Session.Idle
import FixProtocol.Proofs.Session.Numbering
import FixProtocol.Proofs.Session.Resuming
import FixProtocol.Proofs.Wire.Stream

/-!
# Every frame can be read

Whatever comes in, and whatever the application sends: what a session puts out, its counterparty can
cut off a stream, decode, and take for a message of the session under the number that was meant. The
frames come from three places, from the encoder of new messages, from stored frames that are decoded
and marked, and from gap fills.

- `Meant`: which number a frame was meant to have, and why.
- `Move.meant`, `Moves.meant`: every frame was meant to have some number.
- `Readable`: what the counterparty finds in a frame.
- `run_readable`: every frame of every run is readable, and a message of the application arrives
  unchanged.
-/

namespace FixProtocol

namespace Session

variable {I : Inputs} {s s' t t' : Session MemoryStore} {r : Reaction} {n : SeqNum} {frame : Bytes}
  {m : Message}

/-! ## What was kept stays -/

/-- A move loses nothing that was kept of what was sent. -/
theorem Move.entries_subset (h : Move I s r t) :
    s.store.outbound.entries ⊆ t.store.outbound.entries := by
  rcases h.outbound_cases with ⟨hstore, _⟩ | ⟨_, _, now, frame, j, _, _, hj, rfl⟩
  · rw [hstore]
    exact List.Subset.refl _
  · show s.store.outbound.entries ⊆ j.entries
    rw [Journal.entries_append hj]
    exact List.subset_append_left _ _

theorem Moves.entries_subset (h : Moves I s r t) :
    s.store.outbound.entries ⊆ t.store.outbound.entries := by
  induction h with
  | refl => exact List.Subset.refl _
  | cons head _ ih => exact List.Subset.trans head.entries_subset ih

/-! ## The number that was meant -/

/-- The number that a frame with this message was meant to have, in a call from `s` to `t`. A new
message is kept under it, above all that was kept before. A message that is sent again was kept
under it. A gap fill passes over numbers from it on, under which nothing that was kept before the
call can be sent again. -/
inductive Meant (s t : Session MemoryStore) (frame : Bytes) (n : SeqNum) : Message → Prop
  | fresh {type : MsgType} {body : List Field} {time : Timestamp}
      (hkept : (n, frame) ∈ t.store.outbound.entries)
      (hnew : ∀ e ∈ s.store.outbound.entries, e.1 < n) :
      Meant s t frame n ⟨t.header type n time ++ body⟩
  | again {stored : Bytes} {original : Message} {time : Timestamp}
      (hkept : (n, stored) ∈ t.store.outbound.entries)
      (horiginal : Resend.resendable? t.config.beginString stored = some original) :
      Meant s t frame n (Resend.duplicate original time)
  | fill {following : SeqNum} {time : Timestamp} (hlt : n < following)
      (hnothing : ∀ e ∈ s.store.outbound.entries, n ≤ e.1 → e.1 < following →
        Resend.resendable? t.config.beginString e.2 = none) :
      Meant s t frame n (t.gapFill n following time)

/-- What was meant in a part of a call was meant in the call. -/
theorem Meant.mono (h : Meant s t frame n m)
    (hs : s'.store.outbound.entries ⊆ s.store.outbound.entries)
    (ht : t.store.outbound.entries ⊆ t'.store.outbound.entries) (hconfig : t'.config = t.config) :
    Meant s' t' frame n m := by
  cases h with
  | fresh hkept hnew =>
    rw [← header_congr hconfig]
    exact .fresh (ht hkept) fun e he => hnew e (hs he)
  | again hkept horiginal => exact .again (ht hkept) (hconfig ▸ horiginal)
  | fill hlt hnothing =>
    rw [← gapFill_congr hconfig]
    exact .fill hlt fun e he => hconfig ▸ hnothing e (hs he)

/-- An answer to a resend request was meant to have the number of what it repeats, or the first one
that it passes over. -/
theorem meant_of_answers {first last : SeqNum} {item : ResendItem} {time : Timestamp}
    (h : Resend.Answers first last
      (Resend.readings s.config.beginString (s.store.outbound.range first last)) item) :
    ∃ n, Meant s s frame n (s.resendMessage time item) := by
  cases h with
  | again hmem =>
    obtain ⟨stored, hstored, horiginal⟩ := Resend.mem_readings_some_iff.mp hmem
    exact ⟨_, .again (Journal.mem_range_iff.mp hstored).1 horiginal⟩
  | fill hfirst hlt hfollowing hnone =>
    refine ⟨_, .fill hlt fun e he hle hbelow => ?_⟩
    have hrange : e ∈ s.store.outbound.range first last := Journal.mem_range_iff.mpr
      ⟨he, UInt64.le_trans hfirst hle, SeqNum.le_of_lt_of_le_succ hbelow hfollowing⟩
    exact hnone _ (List.mem_map_of_mem hrange) hle hbelow

/-- Every frame that a move puts out carries a message that was meant to have some number. -/
theorem Move.meant (h : Move I s r t) :
    ∀ frame ∈ r.outbound, ∃ n m, Meant s t frame n m ∧
      Wire.Carries s.config.beginString frame m := by
  cases h with
  | @write type body now frame store _ hencode hstore =>
    intro frame' hframe
    rw [List.mem_singleton.mp hframe]
    obtain ⟨j, hj, rfl⟩ := MemoryStore.append_eq_ok hstore
    refine ⟨s.sequences.nextOutgoing, _, .fresh ?_ ?_, Wire.carries_of_encode hencode⟩
    · show (s.sequences.nextOutgoing, frame) ∈ j.entries
      rw [Journal.entries_append hj]
      exact List.mem_append_right _ (List.mem_singleton_self _)
    · intro e he
      exact UInt64.lt_of_le_of_lt (Journal.le_last he) (Journal.last_append hj).1
  | @serve first last now stored store frames _ _ hlast hrange hframes =>
    intro frame hframe
    obtain ⟨hstored, rfl⟩ := MemoryStore.range_eq hrange
    cases hstored
    obtain ⟨item, hitem, hencode⟩ := exists_of_mem_mapM hframes hframe
    have hlast : last < .top := SeqNum.lt_top_of_ne (SeqNum.ne_top_of_le_previous hlast)
    have hanswers := answers_of_mem_plan hlast hitem
    obtain ⟨n, hmeant⟩ : ∃ n, Meant s s frame n (s.resendMessage now.utc item) :=
      meant_of_answers hanswers
    exact ⟨n, _, hmeant.mono (List.Subset.refl _) (List.Subset.refl _) rfl,
      carries_answer hanswers hencode⟩
  | _ => exact nofun

theorem Moves.meant (h : Moves I s r t) :
    ∀ frame ∈ r.outbound, ∃ n m, Meant s t frame n m ∧
      Wire.Carries s.config.beginString frame m := by
  induction h with
  | refl => exact nofun
  | cons head tail ih =>
    intro frame hframe
    rcases List.mem_append.mp hframe with hframe | hframe
    · obtain ⟨n, m, hmeant, hcarries⟩ := head.meant frame hframe
      exact ⟨n, m, hmeant.mono (List.Subset.refl _) tail.entries_subset tail.config_eq, hcarries⟩
    · obtain ⟨n, m, hmeant, hcarries⟩ := ih frame hframe
      refine ⟨n, m, hmeant.mono head.entries_subset (List.Subset.refl _) rfl, ?_⟩
      rw [← head.config_eq]
      exact hcarries

/-- So does every frame that an operation puts out. -/
theorem Stepped.meant {o : Outcome} (h : Stepped I s o t) :
    ∀ frame ∈ o.frames, ∃ n m, Meant s t frame n m ∧
      Wire.Carries s.config.beginString frame m := by
  cases h with
  | sent h => exact h.meant
  | reacted h => exact h.meant
  | _ => exact nofun

/-! ## What the counterparty finds -/

/-- The counterparty of a session with the settings `c` finds the message in the frame. The frame is
decoded as the message, if its length fits into a word. It is cut off whole, whatever follows it,
where the limit allows its length and the length of its body has at most nine digits. The message
has the names of the session and the number `n`, so a session with the mirrored settings decodes it
and accepts the names. -/
structure Readable (c : SessionConfig) (frame : Bytes) (n : SeqNum) (m : Message) : Prop where
  carries : Wire.Carries c.beginString frame m
  framed : ∀ limit rest, frame.length ≤ limit →
    (∀ length ∈ Wire.bodyLength? frame, length ≤ 999999999) →
    Framing.next limit (frame ++ rest) = .ok (some (frame, rest))
  sender : m.text? .senderCompId = some c.sender.text
  target : m.text? .targetCompId = some c.target.text
  numbered : m.seqNum? = some n
  accepted : ∀ {σ : Type} (other : Session σ), Mirrored c other.config → frame.length < 2 ^ 64 →
    Message.decode other.config.beginString frame = .ok m ∧ other.checkCompIds m = .ok ()

/-- A message with the names and the number is readable in the frame that carries it. -/
theorem readable_of_carries {c : SessionConfig} (hcarries : Wire.Carries c.beginString frame m)
    (hsender : m.text? .senderCompId = some c.sender.text)
    (htarget : m.text? .targetCompId = some c.target.text) (hnumbered : m.seqNum? = some n) :
    Readable c frame n m where
  carries := hcarries
  framed := by
    intro limit rest hlimit hlength
    exact Framing.next_of_framable ⟨⟨m.fields, hcarries.encoded⟩, hlimit, hlength⟩ rest
  sender := hsender
  target := htarget
  numbered := hnumbered
  accepted := by
    intro σ other hmirrored hlength
    constructor
    · rw [hmirrored.beginString]
      exact hcarries.decoded hlength
    · unfold checkCompIds
      rw [hsender, htarget, hmirrored.sender, hmirrored.target]
      exact if_pos ⟨rfl, rfl⟩

/-- A new message is readable. -/
theorem Emits.readable {type : MsgType} {body : List Field} {now : Moment}
    (h : Emits s type body now frame t) :
    Readable s.config frame s.sequences.nextOutgoing
      ⟨s.header type s.sequences.nextOutgoing now.utc ++ body⟩ :=
  readable_of_carries h.carries sender_header target_header seqNum?_header

/-- A message that was meant to have a number is readable under it, if all that was kept has the
header of the session. -/
theorem Meant.readable (hs : AllHeaded t) (h : Meant s t frame n m)
    (hcarries : Wire.Carries t.config.beginString frame m) : Readable t.config frame n m := by
  cases h with
  | fresh => exact readable_of_carries hcarries sender_header target_header seqNum?_header
  | again hkept horiginal =>
    -- The stored frame was decoded, so the original is what was written there.
    obtain ⟨hdecode, _⟩ := Resend.resendable?_eq_some_iff.mp horiginal
    obtain ⟨u, type, body, sent, hconfig, hencode⟩ := hs _ hkept
    rw [← hconfig] at hdecode hcarries ⊢
    obtain ⟨_, rfl⟩ := (decode_header_iff hencode).mp hdecode
    refine readable_of_carries hcarries ?_ ?_ ?_
    · rw [Resend.text?_duplicate (by decide)]
      exact sender_header
    · rw [Resend.text?_duplicate (by decide)]
      exact target_header
    · rw [Resend.seqNum?_duplicate]
      exact seqNum?_header
  | fill => exact readable_of_carries hcarries sender_header target_header seqNum?_gapFill

/-! ## Runs -/

/-- Over every run of a new session whose store holds only frames with its header, whatever arrives:
each frame that an operation puts out is readable under the number that was meant. A message that
the application sends is read as the six fields of the header and the fields of the application,
unchanged. -/
theorem run_readable {config : SessionConfig} {store : MemoryStore} {start : Nat}
    {s₀ : Session MemoryStore} (h : open? config store start = .ok s₀)
    (hstore : ∀ e ∈ store.outbound.entries, Headed config e.1 e.2) (ops : List Operation)
    (op : Operation) :
    let s := (s₀.run ops).2
    let o := (s.step op).1
    let t := (s.step op).2
    (∀ frame ∈ o.frames, ∃ n m, Meant s t frame n m ∧ Readable config frame n m) ∧
      ∀ type fields now frame, op = .send type fields now → o = .sent (.ok frame) →
        Readable config frame s.sequences.nextOutgoing
          ⟨[.ofText .beginString config.beginString, .ofText .msgType type.code,
            ⟨.senderCompId, config.sender.bytes⟩, ⟨.targetCompId, config.target.bytes⟩,
            .ofSeqNum .msgSeqNum s.sequences.nextOutgoing, .ofTimestamp .sendingTime now.utc] ++
              fields⟩ := by
  intro s o t
  have hconfig : s.config = config := config_run_of_open h ops
  have hheaded₀ : AllHeaded s₀ := by
    obtain ⟨_, rfl⟩ := open?_eq_ok_iff.mp h
    exact hstore
  have hheaded : AllHeaded s := (ran_of_open h ops).keeps (fun hmove hs => hs.move hmove)
    (fun hfault hs => hs.fault hfault) hheaded₀
  have hstepped : Stepped .any s o t := stepped_any (sound_run_of_open h ops) op
  have hconfig' : t.config = config := hstepped.config_eq.trans hconfig
  have hheaded' : AllHeaded t := hstepped.keeps (fun hmove hs => hs.move hmove)
    (fun hfault hs => hs.fault hfault) hheaded
  constructor
  · intro frame hframe
    obtain ⟨n, m, hmeant, hcarries⟩ := hstepped.meant frame hframe
    rw [hconfig, ← hconfig'] at hcarries
    exact ⟨n, m, hmeant, hconfig' ▸ hmeant.readable hheaded' hcarries⟩
  · rintro type fields now frame rfl ho
    have ho : Outcome.sent ((Session.send type fields now).run s).1 = .sent (.ok frame) := ho
    rcases run_cases (ends_send_emits (s := s) type fields now) with
      ⟨frame', _, hrun, _, _, _, hemits⟩ | ⟨e, _, hrun, _⟩
    · rw [hrun] at ho
      cases ho
      have hreadable := hemits.readable
      unfold header at hreadable
      rwa [hconfig] at hreadable
    · rw [hrun] at ho
      cases ho

end Session

namespace Sample

open Session

/-- An acceptor that has sent an order. -/
def ordered : Session MemoryStore :=
  (Session.run (.fresh acceptor .empty 0)
    [.receive (logon initiator) moment, .send .newOrderSingle [] moment]).2

/-- The counterparty logs on once more. -/
def again : List Operation :=
  [.receive (frame initiator .logon 2 [.ofNat .encryptMethod 0, .ofNat .heartBtInt 30]) moment]

/-- It asks for everything. -/
def asking : Operation :=
  .receive (frame initiator .resendRequest 3
    [.ofSeqNum .beginSeqNo 1, .ofSeqNum .endSeqNo 0]) moment

theorem allHeaded_ordered : AllHeaded ordered :=
  (ran_of_open open_acceptor _).keeps (fun hmove hs => hs.move hmove)
    (fun hfault hs => hs.fault hfault) (List.forall_mem_nil _)

end Sample

namespace Session

/-- A session goes on with the store of another one. It passes over the two logons and sends the
order again, and a new order arrives with its text. -/
theorem run_readable_again :
    let s₀ : Session MemoryStore := .fresh Sample.acceptor Sample.ordered.store 0
    let s := (s₀.run Sample.again).2
    let fields := [Field.ofText .text "new"]
    (∃ frames, (s.step Sample.asking).1.frames = frames ∧
      (frames.map fun frame => (Wire.contents? frame).map fun m => (m.msgType, m.seqNum?)) =
        [some (.sequenceReset, some 1), some (.newOrderSingle, some 2),
          some (.sequenceReset, some 3)] ∧
      ∀ frame ∈ frames, ∃ n m, Meant s (s.step Sample.asking).2 frame n m ∧
        Readable Sample.acceptor frame n m) ∧
    ∃ frame, (s.step (.send .newOrderSingle fields Sample.moment)).1 = .sent (.ok frame) ∧
      Readable Sample.acceptor frame 4
        ⟨[.ofText .beginString "FIX.4.2", .ofText .msgType "D", .ofText .senderCompId "B",
          .ofText .targetCompId "A", .ofSeqNum .msgSeqNum 4,
          .ofTimestamp .sendingTime Sample.moment.utc, .ofText .text "new"]⟩ := by
  intro s₀ s fields
  have hopen : open? Sample.acceptor Sample.ordered.store 0 = .ok s₀ :=
    open?_eq_ok_iff.mpr ⟨Sample.validate_acceptor, rfl⟩
  have hconfig : Sample.ordered.config = Sample.acceptor :=
    config_run_of_open Sample.open_acceptor _
  have hstore : ∀ e ∈ Sample.ordered.store.outbound.entries, Headed Sample.acceptor e.1 e.2 :=
    hconfig ▸ Sample.allHeaded_ordered
  have hreadable (op : Operation) := run_readable hopen hstore Sample.again op
  refine ⟨⟨_, rfl, by decide +kernel, (hreadable Sample.asking).1⟩, ?_⟩
  have hnext : s.sequences.nextOutgoing = 4 := by decide +kernel
  obtain ⟨frame, hstep⟩ :
      ∃ frame, (s.step (.send .newOrderSingle fields Sample.moment)).1 = .sent (.ok frame) := by
    show ∃ frame, Outcome.sent ((Session.send .newOrderSingle fields Sample.moment).run s).1 =
      .sent (.ok frame)
    have hsent : ((Session.send .newOrderSingle fields Sample.moment).run s).1.isOk = true := by
      decide +kernel
    cases hanswer : ((Session.send .newOrderSingle fields Sample.moment).run s).1 with
    | error e =>
      rw [hanswer] at hsent
      cases hsent
    | ok frame => exact ⟨frame, rfl⟩
  have hframe := (hreadable _).2 _ _ _ frame rfl hstep
  rw [hnext] at hframe
  exact ⟨frame, hstep, hframe⟩

end Session

end FixProtocol
