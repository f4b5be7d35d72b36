import FixProtocol.Proofs.Session.Arrivals
import FixProtocol.Proofs.Session.Calm
import FixProtocol.Proofs.Session.Tiling

/-!
# Taking what waits

When the expected number reaches a parked message, the message is taken as if it had just arrived,
and so are those that follow it. None of this fails if the messages are what the other side may have
written and there are numbers left for the answers: a test request is answered, a request is served,
a gap fill moves the expected number on, and a logout ends the session.

- `IsSaid`: a message of the counterparty that a session would write.
- `Goes`: a session goes on after it took messages, or has ended.
- `ends_dispatch_said`: what a message that was parked does.
- `ends_replay_said`, `ends_closeGap_said`, `ends_drain_said`: what waits is taken.
-/

namespace FixProtocol.Session

open Call

variable {c : SessionConfig} {s t : Session MemoryStore} {state : SessionState}
  {next expected n : SeqNum} {parked : List (SeqNum × Parked)} {asked : Option SeqNum}
  {p : Parked} {bound : Nat}

/-- What is kept with a header reads as a message with the number that it is kept under. -/
theorem Servable.keyed {entries : List (SeqNum × Bytes)} (h : Servable c entries) :
    ∀ e ∈ entries, ∀ m, Resend.resendable? c.beginString e.2 = some m → m.seqNum? = some e.1 := by
  intro e he m hm
  obtain ⟨s, type, body, time, rfl, hencode⟩ := h.headed e he
  obtain ⟨_, rfl⟩ := (decode_header_iff hencode).mp (Resend.resendable?_eq_some_iff.mp hm).1
  exact seqNum?_header

/-- A message of the counterparty that a session would write: a request names both ends of its
range, and a sequence reset moves the number on. -/
structure IsSaid (c : SessionConfig) (n : SeqNum) (p : Parked) : Prop
    extends Genuine .any c n p where
  asks : p.message.msgType = .resendRequest → ∃ first last,
    p.message.nat64? .beginSeqNo = some first ∧ p.message.nat64? .endSeqNo = some last
  fills : p.message.msgType = .sequenceReset → ∃ following,
    p.message.nat64? .newSeqNo = some following ∧ n < following

/-- A session has taken messages. It goes on, having written at most so many of its own that its
next number is within the bound, or it has ended. -/
inductive Goes (c : SessionConfig) (state : SessionState) (bound : Nat) (expected : SeqNum)
    (parked : List (SeqNum × Parked)) (asked : Option SeqNum) (t : Session MemoryStore) : Prop
  | on {next' expected' : SeqNum} {parked' : List (SeqNum × Parked)}
      (h : Stands c state next' expected' parked' asked t) (hbound : next'.toNat ≤ bound)
      (hle : expected ≤ expected') (hparked : parked' ⊆ parked)
  | ended (hended : t.terminated = true) (hpending : t.recovery.pending = none)
      (hle : expected ≤ t.sequences.expectedIncoming)

/-- A session that has numbers left goes on with one that messages have. -/
theorem Stands.isValid_next (h : Stands c state next expected parked asked s)
    (htop : next.toNat < SeqNum.top.toNat) : next.isValid = true :=
  SeqNum.isValid_of_lt (SeqNum.succ_le_of_lt (UInt64.lt_of_le_of_lt UInt64.zero_le h.outbound))
    (UInt64.lt_iff_toNat_lt.mpr htop)

/-! ## One message -/

/-- A logout is confirmed unless this side has asked for it, and ends the session. -/
theorem ends_onLogout_said (hc : Speakable c) (h : Stands c state next expected parked asked s)
    (htop : next.toNat < SeqNum.top.toNat) (now : Moment) :
    Ends (onLogout now) s
      (fun r t => r.delivered = [] ∧ Goes c state bound expected parked asked t) Never := by
  have hends (t : Session MemoryStore) (ht : t.sequences.expectedIncoming = expected) :
      Goes c state bound expected parked asked (t.terminate now) :=
    .ended rfl rfl (UInt64.le_of_eq ht.symm)
  refine ends_onLogout (fun _ => ⟨rfl, hends s h.expected_eq⟩) fun _ => ?_
  refine (ends_emit_stands hc h (h.isValid_next htop) (by decide) (Field.writable_msgType rfl)
    (List.forall_mem_nil _) now).imp ?_
  rintro frame t ⟨ht, _⟩
  exact ⟨rfl, hends t ht.expected_eq⟩

/-- A message that was parked does what it asks for. -/
theorem ends_dispatch_said (hc : Speakable c) (hp : IsSaid c n p)
    (h : Stands c state next (n + 1) parked asked s) (htop : next.toNat < SeqNum.top.toNat)
    (now : Moment) :
    Ends (dispatch p.message true now) s
      (fun r t => r.delivered = handedOver p.message ∧
        Goes c state (next.toNat + 1) (n + 1) parked asked t) Never := by
  have hstays (t : Session MemoryStore) (ht : Stands c state next (n + 1) parked asked t) :
      Goes c state (next.toNat + 1) (n + 1) parked asked t :=
    .on ht (Nat.le_succ _) (UInt64.le_refl _) (List.Subset.refl _)
  obtain rfl := h.config_eq
  refine ends_dispatch (fun htype => ?heartbeat) (fun htype => ?testRequest)
    (fun htype => ?resendRequest) (fun htype => ?sequenceReset) (fun htype => ?logout)
    (fun htype => ⟨fun _ => ?logon, nofun⟩)
    fun hlevel => ⟨(handedOver_of_not hlevel).symm, hstays s h⟩
  case heartbeat =>
    rw [handedOver_of_eq htype rfl]
    exact ⟨rfl, hstays _ (h.clock _)⟩
  case testRequest =>
    have hbody (f : Field) (hf : f ∈ (p.message.get? .testReqId).toList) : Wire.IsBody f :=
      Message.isBody_of_get? hp.decoded (by decide) (Option.mem_toList.mp hf)
    have hsucc : (next + 1).toNat = next.toNat + 1 :=
      SeqNum.toNat_succ (SeqNum.ne_top_of_isValid (h.isValid_next htop))
    rw [handedOver_of_eq htype rfl]
    refine (ends_emit_stands hc h (h.isValid_next htop) (by decide) (Field.writable_msgType rfl)
      hbody now).imp ?_
    rintro frame t ⟨ht, _⟩
    exact ⟨rfl, .on ht hsucc.le (UInt64.le_refl _) (List.Subset.refl _)⟩
  case resendRequest =>
    obtain ⟨first, last, hfirst, hlast⟩ := hp.asks htype
    have hbegun : requestedNumber p.message .beginSeqNo "BeginSeqNo" = .ok first := by
      rw [requestedNumber, hfirst]
    have hrequested : requestedNumber p.message .endSeqNo "EndSeqNo" = .ok last := by
      rw [requestedNumber, hlast]
    rw [handedOver_of_eq htype rfl]
    refine (ends_serveResend_planned h.servable.keyed hc hbegun hrequested now).imp ?_
    rintro _ _ ⟨frames, ms, heartbeat, rfl, rfl, _⟩
    exact ⟨rfl, hstays _ (h.clock heartbeat)⟩
  case sequenceReset =>
    obtain ⟨following, hnew, hlt⟩ := hp.fills htype
    rw [handedOver_of_eq htype rfl]
    refine (ends_applySequenceReset_stands h hnew (SeqNum.succ_le_of_lt hlt)).imp ?_
    intro _ t ht
    exact ⟨rfl, .on ht (Nat.le_succ _) (SeqNum.succ_le_of_lt hlt) (List.Subset.refl _)⟩
  case logout =>
    rw [handedOver_of_eq htype rfl]
    exact ends_onLogout_said hc h htop now
  case logon =>
    rw [handedOver_of_eq htype rfl]
    exact ⟨rfl, hstays s h⟩

/-! ## All that waits -/

/-- Taking the expected message leaves what was parked behind it. -/
theorem Stands.takeReady (h : Stands c state next expected parked asked s) :
    ∃ parked', parked' ⊆ parked ∧ Stands c state next expected parked' asked s.released := by
  refine ⟨_, ?_, { h with parked_eq := rfl }⟩
  rw [← h.parked_eq]
  exact (List.dropWhile_sublist _).subset

/-- The messages whose turn has come are taken. The induction is on how many may be taken; each uses
up one number at most. -/
theorem ends_replay_said (hc : Speakable c) (h : Stands c state next expected parked asked s)
    (hsaid : ∀ e ∈ parked, IsSaid c e.1 e.2) (count : Nat)
    (htop : next.toNat + count ≤ SeqNum.top.toNat) (now : Moment) :
    Ends (replay now count) s
      (fun r t => (∀ m ∈ r.delivered, ∃ e ∈ parked, e.2.message = m) ∧
        (parked = [] → r = .empty) ∧ Goes c state (next.toNat + count) expected parked asked t)
      Never := by
  induction count generalizing s next expected parked with
  | zero =>
    exact ⟨List.forall_mem_nil _, fun _ => rfl,
      .on h (Nat.le_refl _) (UInt64.le_refl _) (List.Subset.refl _)⟩
  | succ count ih =>
    obtain ⟨rest, hrest, ht⟩ := h.takeReady
    refine ends_replay_succ h.isOpen (fun _ => ?_) fun p hready => ?_
    · exact ⟨List.forall_mem_nil _, fun _ => rfl,
        .on ht (Nat.le_add_right _ _) (UInt64.le_refl _) hrest⟩
    · obtain rfl := h.expected_eq
      have hmem : (s.sequences.expectedIncoming, p) ∈ parked := by
        rw [← h.parked_eq]
        exact GapRecovery.find?_eq_some_iff.mp hready
      have hp : IsSaid c s.sequences.expectedIncoming p := hsaid _ hmem
      have hsome (r : Reaction) (hnil : parked = []) : r = .empty :=
        absurd (hnil ▸ hmem) List.not_mem_nil
      refine ends_observe_next hp.valid rfl ?_
      refine ends_accept_counted ht hp.valid true now fun u hu _ => ?_
      have hone (m : Message) (hm : m ∈ handedOver p.message) : ∃ e ∈ parked, e.2.message = m := by
        unfold handedOver at hm
        split at hm
        · cases hm
        · exact ⟨_, hmem, (List.mem_singleton.mp hm).symm⟩
      refine (ends_dispatch_said hc hp hu (by omega) now).imp ?_
      rintro taken v ⟨htaken, hgoes⟩
      cases hgoes with
      | @on next' expected' parked' hv hbound hle hparked =>
        have hback : parked' ⊆ parked := List.Subset.trans hparked hrest
        refine (ih hv (fun e he => hsaid e (hback he)) (by omega)).imp ?_
        rintro more w ⟨hmore, _, hgoes⟩
        refine ⟨?_, hsome _, ?_⟩
        · rw [Reaction.delivered_append, htaken]
          refine List.forall_mem_append.mpr ⟨hone, fun m hm => ?_⟩
          obtain ⟨e, he, heq⟩ := hmore m hm
          exact ⟨e, hback he, heq⟩
        · have hle := UInt64.le_trans (SeqNum.le_succ_of_isValid hp.valid) hle
          cases hgoes with
          | on hw hbound' hle' hparked' =>
            exact .on hw (by omega) (UInt64.le_trans hle hle') (List.Subset.trans hparked' hback)
          | ended hended hpending hle' => exact .ended hended hpending (UInt64.le_trans hle hle')
      | ended hended hpending hle =>
        refine (ends_replay_of_ended hended now count).imp ?_
        rintro _ _ ⟨rfl, rfl⟩
        refine ⟨?_, hsome _, .ended hended hpending ?_⟩
        · rw [Reaction.append_empty, htaken]
          exact hone
        · exact UInt64.le_trans (SeqNum.le_succ_of_isValid hp.valid) hle

/-- A request that the expected number has passed is closed, and what is missing before the messages
that still wait is asked for. -/
theorem ends_closeGap_said (hc : Speakable c) (h : Stands c state next expected parked asked s)
    (htop : next.toNat < SeqNum.top.toNat) (now : Moment) :
    Ends (closeGap now) s
      (fun r t => r.delivered = [] ∧ (parked = [] → r = .empty) ∧
        t.sequences.expectedIncoming = expected ∧ ∀ range ∈ t.recovery.pending,
          (asked = some range.last ∧ expected ≤ range.last) ∨ range.first = expected) Never := by
  have hparked : s.advanced.recovery.parked = parked := (parked_onAdvanced ..).trans h.parked_eq
  have hclosed : Stands c state next expected parked
      (s.advanced.recovery.pending.map ResendRange.last) s.advanced :=
    { h with
      room := (GapRecovery.maxBuffered_onAdvanced ..).symm ▸ h.room
      parked_eq := hparked
      asked_eq := rfl }
  refine ends_closeGap (fun _ => ⟨rfl, fun _ => rfl, h.expected_eq, fun range hrange => .inl ?_⟩)
    fun first hfirst _ _ => ?_
  · obtain ⟨hpending, hle⟩ := GapRecovery.mem_pending_onAdvanced hrange
    rw [h.expected_eq] at hle
    refine ⟨?_, hle⟩
    rw [← h.asked_eq, Option.mem_def.mp hpending]
    rfl
  · refine (ends_requestResend_stands hc hclosed (h.isValid_next htop) _ _ now).imp ?_
    rintro r t ⟨ht, hpending, hdelivered, _⟩
    refine ⟨hdelivered, fun hnone => ?_, ht.expected_eq, fun range hrange => .inr ?_⟩
    · rw [GapRecovery.first?, hparked, hnone] at hfirst
      cases hfirst
    · rw [hpending] at hrange
      obtain rfl := Option.mem_some_iff.mp hrange
      exact h.expected_eq

/-- All that waits and whose turn has come is taken, and no call fails. -/
theorem ends_drain_said (hc : Speakable c) (h : Stands c state next expected parked asked s)
    (hsaid : ∀ e ∈ parked, IsSaid c e.1 e.2)
    (htop : next.toNat + parked.length < SeqNum.top.toNat) (now : Moment) :
    Ends (drain now) s
      (fun r t => (∀ m ∈ r.delivered, ∃ e ∈ parked, e.2.message = m) ∧
        (parked = [] → r = .empty) ∧ expected ≤ t.sequences.expectedIncoming ∧
        ∀ range ∈ t.recovery.pending,
          (asked = some range.last ∧ expected ≤ range.last) ∨ expected ≤ range.first) Never := by
  have hsize : s.recovery.size = parked.length := by rw [GapRecovery.size, h.parked_eq]
  refine ends_drain.mpr ?_
  rw [hsize]
  refine (ends_replay_said hc h hsaid parked.length htop.le now).imp ?_
  rintro taken t ⟨htaken, hempty, hgoes⟩
  cases hgoes with
  | @on next' expected' parked' ht hbound hle hback =>
    refine ⟨fun hended => absurd hended ht.not_terminated, fun _ => ?_⟩
    refine (ends_closeGap_said hc ht (by omega) now).imp ?_
    rintro more u ⟨hdelivered, hnothing, hexpected, hpending⟩
    refine ⟨?_, ?_, hexpected ▸ hle, fun range hrange => ?_⟩
    · rw [Reaction.delivered_append, hdelivered, List.append_nil]
      exact htaken
    · intro hnil
      rw [hempty hnil, hnothing (List.subset_nil.mp (hnil ▸ hback))]
      rfl
    · rcases hpending range hrange with ⟨hasked, hlast⟩ | hfirst
      · exact .inl ⟨hasked, UInt64.le_trans hle hlast⟩
      · exact .inr (hfirst ▸ hle)
  | ended hended hpending hle =>
    refine ⟨fun _ => ⟨htaken, hempty, hle, fun range hrange => ?_⟩, fun hopen => ?_⟩
    · rw [hpending] at hrange
      cases hrange
    · rw [hended] at hopen
      cases hopen

end FixProtocol.Session
