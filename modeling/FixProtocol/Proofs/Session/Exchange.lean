import FixProtocol.Proofs.Session.Resuming

/-!
# How a session answers its counterparty

- `Stands`: where a session stands: its state, its two numbers, what is parked and what it asked
  for.
- `ends_emit_stands`, `ends_requestResend_stands`: what it writes, and where it then stands.
- `ends_establish_answers`, `ends_writeRequest`: the other side can read it.
- `ends_process_logon`: the first frame of the counterparty, in order or from behind a gap.
- `ends_process_request`, `ends_process_tiled`: what follows when one side has missed something.
- `ends_process_behind`: a request that arrives from behind a gap is not answered.
-/

namespace FixProtocol.Session

open Call

variable {c d : SessionConfig} {s t : Session MemoryStore} {state : SessionState}
  {next expected n : SeqNum} {parked : List (SeqNum × Parked)} {asked : Option SeqNum}

/-- Where a session stands: its numbers, what is parked, and the last number that it asked for. Its
journals end before its numbers, and what it has sent can be sent again. -/
structure Stands (c : SessionConfig) (state : SessionState) (next expected : SeqNum)
    (parked : List (SeqNum × Parked)) (asked : Option SeqNum) (s : Session MemoryStore) : Prop where
  config_eq : s.config = c
  state_eq : s.state = state
  isOpen : s.terminated = false
  next_eq : s.sequences.nextOutgoing = next
  expected_eq : s.sequences.expectedIncoming = expected
  inbound : s.store.inbound.last < expected
  outbound : s.store.outbound.last < next
  servable : Servable c s.store.outbound.entries
  room : 0 < s.recovery.maxBuffered
  parked_eq : s.recovery.parked = parked
  asked_eq : s.recovery.pending.map ResendRange.last = asked

/-- Nothing can go wrong. -/
def Never : Error → Session MemoryStore → Prop :=
  fun _ _ => False

/-- The times of a session do not matter. -/
theorem Stands.clock (h : Stands c state next expected parked asked s)
    (heartbeat : HeartbeatMonitor) :
    Stands c state next expected parked asked { s with heartbeat } :=
  { h with }

theorem Stands.heard (h : Stands c state next expected parked asked s) (now : Moment) :
    Stands c state next expected parked asked (s.heard now) :=
  h.clock _

theorem Stands.not_terminated (h : Stands c state next expected parked asked s) :
    ¬ s.terminated = true := by
  rw [h.isOpen]
  exact Bool.false_ne_true

/-! ## Writing -/

/-- A message of the session layer is never sent again. -/
theorem resendable?_eq_none {type : MsgType} {time : Timestamp} {body : List Field} {frame : Bytes}
    (htype : (MsgType.ofCode type.code).isApp = false)
    (hencode : Wire.encode (s.header type n time ++ body) = .ok frame) :
    Resend.resendable? s.config.beginString frame = none := by
  cases hm : Resend.resendable? s.config.beginString frame with
  | none => rfl
  | some m =>
    exfalso
    obtain ⟨hdecode, happ⟩ := Resend.resendable?_eq_some_iff.mp hm
    obtain ⟨_, rfl⟩ := (decode_header_iff hencode).mp hdecode
    rw [msgType_header, htype] at happ
    cases happ

/-- A message of the session layer is numbered and kept. -/
theorem ends_emit_stands {type : MsgType} {body : List Field} (hc : Speakable c)
    (h : Stands c state next expected parked asked s) (hnext : next.isValid = true)
    (htype : (MsgType.ofCode type.code).isApp = false)
    (hwritable : Field.Writable (.ofText .msgType type.code))
    (hbody : ∀ f ∈ body, Wire.IsBody f) (now : Moment) :
    Ends (emit type body now) s
      (fun frame t => Stands c state (next + 1) expected parked asked t ∧
        t.store.inbound = s.store.inbound ∧ t.recovery = s.recovery ∧
        Wire.encode (s.header type next now.utc ++ body) = .ok frame) Never := by
  obtain rfl := h.config_eq
  obtain rfl := h.next_eq
  refine (ends_emit_ok hc hwritable hbody h.outbound now).imp ?_
  rintro frame _ ⟨hencode, j, hj, rfl⟩
  have hlast := (Journal.last_append hj).2
  have hentries : j.entries = s.store.outbound.entries ++ [(s.sequences.nextOutgoing, frame)] :=
    Journal.entries_append hj
  refine ⟨{ h with next_eq := rfl, outbound := ?_, servable := ?_ }, rfl, rfl, hencode⟩
  · show j.last < s.sequences.nextOutgoing + 1
    rw [hlast]
    exact SeqNum.lt_succ_of_isValid hnext
  · show Servable s.config j.entries
    rw [hentries]
    refine h.servable.concat (headed_of_encode hencode) fun m hm => ?_
    -- What the session layer wrote is never sent again, however long it is.
    rw [resendable?_eq_none htype hencode] at hm
    cases hm

/-- A logon that declares an interval, as the side with the settings `d` reads it. -/
structure IsLogon (d : SessionConfig) (n : SeqNum) (seconds : Nat) (p : Parked) : Prop where
  genuine : Genuine .any d n p
  type : p.message.msgType = .logon
  interval : p.message.nat64? .heartBtInt = some (UInt64.ofNat seconds)

/-- A logon of the counterparty says which interval it declares. -/
theorem isLogon_header {σ : Type} {s : Session σ} {m : SeqNum} {seconds : Nat} {time : Timestamp}
    {frame : Bytes} (hseconds : seconds ≤ SessionConfig.maxHeartbeatSeconds)
    (h : Genuine .any d n ⟨⟨s.header .logon m time ++
      [.ofNat .encryptMethod 0, .ofNat .heartBtInt seconds]⟩, frame⟩) :
    IsLogon d n seconds ⟨⟨s.header .logon m time ++
      [.ofNat .encryptMethod 0, .ofNat .heartBtInt seconds]⟩, frame⟩ where
  genuine := h
  type := msgType_header
  interval := by
    have hmax : seconds ≤ 3600 := hseconds
    exact nat64?_header (by decide) rfl (Field.nat64_ofNat (by omega))

/-- A resend request, as the side with the settings `d` reads it. -/
structure IsRequest (d : SessionConfig) (n first last : SeqNum) (p : Parked) : Prop where
  genuine : Genuine .any d n p
  type : p.message.msgType = .resendRequest
  first_eq : p.message.nat64? .beginSeqNo = some first
  last_eq : p.message.nat64? .endSeqNo = some last

theorem IsRequest.isPlainReset_eq {first last : SeqNum} {p : Parked}
    (h : IsRequest d n first last p) : isPlainReset p.message = false := by
  rw [isPlainReset, h.type]
  rfl

theorem ends_writeLogon (hc : Speakable c) (hd : Mirrored c d)
    (h : Stands c state next expected parked asked s) (hnext : next.isValid = true) {seconds : Nat}
    (hseconds : seconds ≤ SessionConfig.maxHeartbeatSeconds) (now : Moment) :
    Ends (emit .logon [.ofNat .encryptMethod 0, .ofNat .heartBtInt seconds] now) s
      (fun frame t => Stands c state (next + 1) expected parked asked t ∧
        t.store.inbound = s.store.inbound ∧ ∃ m, IsLogon d next seconds ⟨m, frame⟩) Never := by
  have hmax : seconds ≤ 3600 := hseconds
  have hshort : ∀ f ∈ [Field.ofNat .encryptMethod 0, .ofNat .heartBtInt seconds],
      f.value.length ≤ 4 := by
    intro f hf
    simp only [List.mem_cons, List.not_mem_nil, or_false] at hf
    rcases hf with rfl | rfl
    · exact Numeral.length_ofNat_le (by decide) (by decide)
    · exact Numeral.length_ofNat_le (by decide) (by omega)
  have hlength := Nat.le_trans (Wire.length_fieldBytes_le hshort)
    (show 2 * (4 + 12) ≤ 1000 by decide)
  refine (ends_emit_stands hc h hnext (by decide) (Field.writable_msgType rfl)
    (isBody_logon seconds) now).imp ?_
  rintro frame t ⟨ht, hinbound, _, hencode⟩
  have hd : Mirrored s.config d := h.config_eq.symm ▸ hd
  have hgenuine := genuine_of_encode hd hnext (by decide) hlength hencode
  exact ⟨ht, hinbound, _, isLogon_header hseconds hgenuine⟩

/-- What a side writes as a request, the other side takes for one. -/
theorem isRequest_of_encode {σ : Type} {s : Session σ} (hd : Mirrored s.config d)
    (hn : n.isValid = true) {first last : SeqNum} {time : Timestamp} {frame : Bytes}
    (hencode : Wire.encode (s.header .resendRequest n time ++
      [.ofSeqNum .beginSeqNo first, .ofSeqNum .endSeqNo last]) = .ok frame) :
    IsRequest d n first last ⟨⟨s.header .resendRequest n time ++
      [.ofSeqNum .beginSeqNo first, .ofSeqNum .endSeqNo last]⟩, frame⟩ where
  genuine := by
    have hshort : ∀ f ∈ [Field.ofSeqNum .beginSeqNo first, .ofSeqNum .endSeqNo last],
        f.value.length ≤ 20 := by
      intro f hf
      simp only [List.mem_cons, List.not_mem_nil, or_false] at hf
      rcases hf with rfl | rfl
      · exact Field.length_ofSeqNum_le .beginSeqNo first
      · exact Field.length_ofSeqNum_le .endSeqNo last
    have hlength := Nat.le_trans (Wire.length_fieldBytes_le hshort)
      (show 2 * (20 + 12) ≤ 1000 by decide)
    exact genuine_of_encode hd hn (by decide) hlength hencode
  type := msgType_header
  first_eq := nat64?_header (by decide) rfl (Field.nat64_ofSeqNum .beginSeqNo first)
  last_eq := nat64?_header (by decide) rfl (Field.nat64_ofSeqNum .endSeqNo last)

/-- A request is written and noted. -/
theorem ends_requestResend_stands (hc : Speakable c)
    (h : Stands c state next expected parked asked s) (hnext : next.isValid = true)
    (first last : SeqNum) (now : Moment) :
    Ends (requestResend first last now) s
      (fun r t => Stands c state (next + 1) expected parked (some last) t ∧
        t.recovery.pending = some ⟨first, last, 1, now.elapsed⟩ ∧ r.delivered = [] ∧
        ∃ frame, r.outbound = [frame] ∧
          Wire.encode (s.header .resendRequest next now.utc ++
            [.ofSeqNum .beginSeqNo first, .ofSeqNum .endSeqNo last]) = .ok frame) Never := by
  refine ends_requestResend.mpr ((ends_emit_stands hc h hnext (by decide)
    (Field.writable_msgType rfl) (isBody_request first last) now).imp ?_)
  rintro frame t ⟨ht, _, _, hencode⟩
  exact ⟨{ ht with asked_eq := rfl }, rfl, rfl, frame, rfl, hencode⟩

theorem ends_writeRequest (hc : Speakable c) (hd : Mirrored c d)
    (h : Stands c state next expected parked asked s) (hnext : next.isValid = true)
    (first last : SeqNum) (now : Moment) :
    Ends (requestResend first last now) s
      (fun r t => Stands c state (next + 1) expected parked (some last) t ∧
        ∃ frame m, r.outbound = [frame] ∧ IsRequest d next first last ⟨m, frame⟩) Never := by
  refine (ends_requestResend_stands hc h hnext first last now).imp ?_
  rintro r t ⟨ht, _, _, frame, houtbound, hencode⟩
  have hd : Mirrored s.config d := h.config_eq.symm ▸ hd
  exact ⟨ht, frame, _, houtbound, isRequest_of_encode hd hnext hencode⟩

/-! ## Logging on -/

/-- What a side writes when it logs on, and the number that it goes on with: nothing if it began,
and the answer if it did not. -/
inductive Answers (c d : SessionConfig) (seconds : Nat) (next : SeqNum) :
    List Bytes → SeqNum → Prop
  | initiator (h : c.role = .initiator) : Answers c d seconds next [] next
  | acceptor (h : c.role = .acceptor) {frame : Bytes} {m : Message}
      (hm : IsLogon d next seconds ⟨m, frame⟩) : Answers c d seconds next [frame] (next + 1)

section
variable {seconds : Nat} {frames : List Bytes} {next' : SeqNum}

theorem Answers.isValid (h : Answers c d seconds next frames next') (hnext : next.isValid = true)
    (hfollowing : c.role = .acceptor → (next + 1).isValid = true) : next'.isValid = true := by
  cases h with
  | initiator => exact hnext
  | acceptor hrole => exact hfollowing hrole

theorem Answers.of_initiator (h : Answers c d seconds next frames next')
    (hrole : c.role = .initiator) : frames = [] ∧ next' = next := by
  cases h with
  | initiator => exact ⟨rfl, rfl⟩
  | acceptor hacceptor => exact absurd (hrole.symm.trans hacceptor) (by decide)

theorem Answers.of_acceptor (h : Answers c d seconds next frames next')
    (hrole : c.role = .acceptor) :
    ∃ frame m, frames = [frame] ∧ IsLogon d next seconds ⟨m, frame⟩ ∧ next' = next + 1 := by
  cases h with
  | initiator hinitiator => exact absurd (hrole.symm.trans hinitiator) (by decide)
  | acceptor _ hm => exact ⟨_, _, rfl, hm, rfl⟩

end

theorem ends_establish_answers (hc : Speakable c) (hd : Mirrored c d)
    (h : Stands c state next expected parked asked s) (hnext : next.isValid = true) {seconds : Nat}
    (hseconds : seconds ≤ SessionConfig.maxHeartbeatSeconds) (now : Moment) :
    Ends (establish seconds now) s
      (fun r t => ∃ next', Answers c d seconds next r.outbound next' ∧
        t.store.inbound = s.store.inbound ∧ Stands c .loggedOn next' expected parked asked t)
      Never := by
  refine ends_establish (fun hrole => ?_) fun hrole => ?_
  · exact ⟨next, .initiator (h.config_eq ▸ hrole), rfl, { h with state_eq := rfl }⟩
  · refine (ends_writeLogon hc hd h hnext hseconds now).imp ?_
    rintro frame t ⟨ht, hinbound, m, hm⟩
    exact ⟨_, .acceptor (h.config_eq ▸ hrole) hm, hinbound, { ht with state_eq := rfl }⟩

/-- A message that a session logs on with. -/
structure Accepts (s : Session MemoryStore) (m : Message) (seconds : Nat) : Prop where
  checkLogon : s.checkLogon m = .ok ()
  agreeHeartbeat : s.agreeHeartbeat m = .ok seconds
  le : seconds ≤ SessionConfig.maxHeartbeatSeconds

theorem toNat_ofNat_seconds {seconds : Nat} (h : seconds ≤ SessionConfig.maxHeartbeatSeconds) :
    (UInt64.ofNat seconds).toNat = seconds := by
  have : seconds ≤ 3600 := h
  rw [UInt64.toNat_ofNat']
  omega

/-- A side that waits for a logon with an interval: the acceptor takes any that is valid, and the
initiator its own. -/
inductive Awaits (c : SessionConfig) : SessionState → Nat → Prop
  | acceptor {seconds : Nat} (hrole : c.role = .acceptor) (hpos : 1 ≤ seconds)
      (hseconds : seconds ≤ SessionConfig.maxHeartbeatSeconds) : Awaits c .disconnected seconds
  | initiator (hrole : c.role = .initiator)
      (hseconds : c.heartbeatSeconds ≤ SessionConfig.maxHeartbeatSeconds) :
      Awaits c .logonSent c.heartbeatSeconds

theorem Awaits.isEstablished_eq {seconds : Nat} (hw : Awaits c state seconds) :
    state.isEstablished = false := by
  cases hw with
  | acceptor => rfl
  | initiator => rfl

theorem Awaits.accepts {seconds : Nat} {p : Parked} (hw : Awaits s.config s.state seconds)
    (hp : IsLogon s.config n seconds p) : Accepts s p.message seconds := by
  generalize hstate : s.state = state at hw
  cases hw with
  | acceptor hrole hpos hseconds =>
    refine ⟨?_, ?_, hseconds⟩
    · unfold checkLogon
      rw [hstate, hp.type]
      exact if_pos hrole
    · unfold agreeHeartbeat
      rw [hp.interval, hrole]
      simp only [toNat_ofNat_seconds hseconds]
      exact if_pos ⟨hpos, hseconds⟩
  | initiator hrole hseconds =>
    refine ⟨?_, ?_, hseconds⟩
    · unfold checkLogon
      rw [hstate, hp.type]
    · unfold agreeHeartbeat
      rw [hp.interval, hrole]
      simp only [toNat_ofNat_seconds hseconds]
      exact if_pos trivial

theorem Stands.accepts {seconds : Nat} {p : Parked}
    (h : Stands c state next expected parked asked s) (hw : Awaits c state seconds)
    (hp : IsLogon c n seconds p) : Accepts s p.message seconds := by
  obtain rfl := h.config_eq
  obtain rfl := h.state_eq
  exact hw.accepts hp

/-! ## Messages in order -/

variable {p q : Parked} {N : SeqNum} {Q : Reaction → Session MemoryStore → Prop}
  {E : Error → Session MemoryStore → Prop}

/-- What a call that cannot go wrong leaves behind. -/
theorem receive_of_ends {s : Session MemoryStore} {frame : Bytes} {now : Moment}
    {Q : Reaction → Session MemoryStore → Prop} (h : Ends (process frame now) s Q Never) :
    ∃ r t, s.receive frame now = (.ok r, t) ∧ Q r t := by
  unfold Ends at h
  unfold receive Call.settle
  cases heq : process frame now s with
  | ok r t =>
    rw [heq] at h
    exact ⟨r, t, rfl, h⟩
  | error e t =>
    rw [heq] at h
    exact h.elim

/-- The expected message is counted. -/
theorem Stands.counted (h : Stands c state next n parked asked s) (hn : n.isValid = true) :
    Stands c state next (n + 1) parked asked (s.counted n) :=
  { h with
    expected_eq := rfl
    inbound := UInt64.lt_trans h.inbound (SeqNum.lt_succ_of_isValid hn) }

/-- A message above all that were kept, and below the expected one, is kept. -/
theorem Stands.keep (h : Stands c state next expected parked asked s)
    (hbelow : s.store.inbound.last < n) (hn : n < expected) (frame : Bytes) :
    ∃ store, MessageStore.append s.store .inbound n frame = (.ok (), store) ∧
      Stands c state next expected parked asked { s with store } := by
  obtain ⟨j, hj, hstore⟩ := MemoryStore.append_of_lt (d := .inbound) (s := s.store) hbelow frame
  refine ⟨_, hstore, { h with inbound := ?_ }⟩
  show j.last < expected
  rw [(Journal.last_append hj).2]
  exact hn

/-- A message with the expected number is counted and kept, and then does what it asks for. -/
theorem ends_accept_counted (h : Stands c state next n parked asked s) (hn : n.isValid = true)
    (replaying : Bool) (now : Moment)
    (hdispatch : ∀ t, Stands c state next (n + 1) parked asked t →
      t.store.outbound = s.store.outbound → Ends (dispatch p.message replaying now) t Q E) :
    Ends (accept n p replaying now) (s.counted n) Q E := by
  have hbelow : (s.counted n).store.inbound.last < n := h.inbound
  obtain ⟨store, hstore, ht⟩ := (h.counted hn).keep hbelow (SeqNum.lt_succ_of_isValid hn) p.frame
  exact ends_accept_ok hstore (hdispatch _ ht (outbound_of_append_inbound hstore))

/-- A message can be parked when none is. -/
theorem Stands.park (h : Stands c state next expected [] asked s) (n : SeqNum) (p : Parked) :
    ∃ recovery, s.recovery.park n p = .ok recovery ∧
      Stands c state next expected [(n, p)] asked { s with recovery } := by
  have hroom : s.recovery.hasRoom n = true := by
    refine GapRecovery.hasRoom_iff.mpr (.inl ?_)
    rw [GapRecovery.size, h.parked_eq]
    exact h.room
  refine ⟨_, if_pos hroom, { h with parked_eq := ?_ }⟩
  show GapRecovery.insertAscending n p s.recovery.parked = [(n, p)]
  rw [h.parked_eq]
  rfl

/-- Messages from behind a gap are not taken while the gap is open. -/
theorem Stands.takeReady_behind (h : Stands c state next expected parked asked s)
    (hbehind : ∀ e ∈ parked, expected < e.1) :
    s.recovery.find? s.sequences.expectedIncoming = none ∧
      Stands c state next expected parked asked s.released := by
  obtain rfl := h.expected_eq
  have hnone : s.recovery.find? s.sequences.expectedIncoming = none := by
    refine GapRecovery.lookup_eq_none_of_lt fun n hn => ?_
    obtain ⟨e, he, rfl⟩ := List.mem_map.mp hn
    exact hbehind e (h.parked_eq ▸ he)
  refine ⟨hnone, { h with parked_eq := ?_ }⟩
  show s.recovery.parked.dropWhile _ = _
  rw [h.parked_eq]
  cases parked with
  | nil => rfl
  | cons e es =>
    refine List.dropWhile_cons_of_neg ?_
    rw [decide_eq_true_iff]
    exact UInt64.not_le.mpr (hbehind e List.mem_cons_self)

/-- It is taken as soon as it is the expected one. -/
theorem Stands.takeReady_next (h : Stands c state next N [(N, q)] asked s) :
    s.recovery.find? s.sequences.expectedIncoming = some q ∧
      Stands c state next N [] asked s.released := by
  obtain rfl := h.expected_eq
  have hsome : s.recovery.find? s.sequences.expectedIncoming = some q := by
    rw [GapRecovery.find?, h.parked_eq, List.lookup_cons, beq_self_eq_true]
  refine ⟨hsome, { h with parked_eq := ?_ }⟩
  show s.recovery.parked.dropWhile _ = _
  rw [h.parked_eq, List.dropWhile_cons, if_pos (decide_eq_true (UInt64.le_refl _)),
    List.dropWhile_nil]

/-- A request that is not fulfilled yet stays open. -/
theorem ends_closeGap_open {last : SeqNum} (h : Stands c state next expected parked (some last) s)
    (hle : expected ≤ last) (now : Moment) :
    Ends (closeGap now) s
      (fun r t => r = .empty ∧ Stands c state next expected parked (some last) t) Never := by
  obtain ⟨range, hrange, hlast⟩ := Option.map_eq_some_iff.mp h.asked_eq
  have hopen : (s.recovery.onAdvanced s.sequences.expectedIncoming).2 = s.recovery := by
    rw [GapRecovery.onAdvanced, hrange]
    simp only
    rw [hlast, h.expected_eq, if_neg (UInt64.not_lt.mpr hle)]
  have hrequesting : s.recovery.isRequesting = true := by
    rw [GapRecovery.isRequesting, hrange]
    rfl
  have hsame : s.advanced = s := by rw [advanced, hopen]
  refine ends_closeGap (fun _ => ⟨rfl, hsame.symm ▸ h⟩) fun first _ hidle _ => ?_
  rw [hsame, hrequesting] at hidle
  cases hidle

/-- What waits behind an open request stays, and so does the request. -/
theorem ends_drain_behind {last : SeqNum} (h : Stands c state next expected parked (some last) s)
    (hle : expected ≤ last) (hbehind : ∀ e ∈ parked, last < e.1) (now : Moment) :
    Ends (drain now) s
      (fun r t => r = .empty ∧ Stands c state next expected parked (some last) t) Never := by
  have hreplay (count : Nat) : Ends (replay now count) s
      (fun r t => r = .empty ∧ Stands c state next expected parked (some last) t) Never := by
    cases count with
    | zero => exact ⟨rfl, h⟩
    | succ count =>
      obtain ⟨hready, ht⟩ :=
        h.takeReady_behind fun e he => UInt64.lt_of_le_of_lt hle (hbehind e he)
      refine ends_replay_succ h.isOpen (fun _ => ⟨rfl, ht⟩) fun p hp => ?_
      cases hready.symm.trans hp
  refine ends_drain_keeps (hreplay _) fun _ ht => ?_
  obtain ⟨rfl, ht⟩ := ht
  exact ends_closeGap_open ht hle now

/-- When nothing is parked, no request stays open that is fulfilled. -/
theorem ends_closeGap_closed (h : Stands c state next expected [] asked s)
    (hasked : ∀ last ∈ asked, last < expected) (now : Moment) :
    Ends (closeGap now) s
      (fun r t => r = .empty ∧ Stands c state next expected [] none t) Never := by
  have hclosed : s.advanced.recovery.pending = none := by
    show (s.recovery.onAdvanced s.sequences.expectedIncoming).2.pending = none
    unfold GapRecovery.onAdvanced
    cases hpending : s.recovery.pending with
    | none => exact hpending
    | some range =>
      have hlt : range.last < expected := by
        refine hasked _ ?_
        rw [← h.asked_eq, hpending]
        rfl
      simp only
      rw [h.expected_eq, if_pos hlt]
  have hparked : s.advanced.recovery.parked = [] := by
    rw [advanced, parked_onAdvanced, h.parked_eq]
  have hroom : 0 < s.advanced.recovery.maxBuffered := by
    have hroom := h.room
    show 0 < (s.recovery.onAdvanced s.sequences.expectedIncoming).2.maxBuffered
    unfold GapRecovery.onAdvanced
    split
    · split
      · exact hroom
      · exact hroom
    · exact hroom
  refine ends_closeGap (fun _ => ⟨rfl, { h with
    room := hroom
    parked_eq := hparked
    asked_eq := by rw [hclosed]; rfl }⟩) fun first hfirst _ _ => ?_
  rw [GapRecovery.first?, hparked] at hfirst
  cases hfirst

/-- When nothing is parked, nothing more is asked for. -/
theorem ends_closeGap_of_nil {σ : Type} [MessageStore σ] {s : Session σ}
    {E : Error → Session σ → Prop} (hparked : s.recovery.parked = []) (now : Moment) :
    Ends (closeGap now) s (fun r t => r = .empty ∧ t = s.advanced) E := by
  refine ends_closeGap (fun _ => ⟨rfl, rfl⟩) fun first hfirst _ _ => ?_
  rw [GapRecovery.first?, advanced, parked_onAdvanced, hparked] at hfirst
  cases hfirst

/-- Nothing waits, so nothing happens. -/
theorem ends_drain_idle {σ : Type} [MessageStore σ] {s : Session σ}
    (hparked : s.recovery.parked = []) (hpending : s.recovery.pending = none) (now : Moment) :
    Ends (drain now) s (fun r t => r = .empty ∧ t = s) (fun _ _ => False) := by
  have hsize : s.recovery.size = 0 := by rw [GapRecovery.size, hparked, List.length_nil]
  have hadvanced : s.advanced = s := by rw [advanced, GapRecovery.onAdvanced, hpending]
  refine ends_drain_keeps ?_ fun _ ht => ?_
  · rw [hsize]
    exact ⟨rfl, rfl⟩
  · obtain ⟨rfl, rfl⟩ := ht
    refine (ends_closeGap_of_nil hparked now).imp ?_
    rintro _ _ ⟨rfl, rfl⟩
    exact ⟨rfl, hadvanced⟩

theorem ends_drain_settled (h : Stands c state next expected [] none s) (now : Moment) :
    Ends (drain now) s
      (fun r t => r = .empty ∧ Stands c state next expected [] none t) Never := by
  refine (ends_drain_idle h.parked_eq (Option.map_eq_none_iff.mp h.asked_eq) now).imp ?_
  rintro r t ⟨rfl, rfl⟩
  exact ⟨rfl, h⟩

/-! ## The first frame of the counterparty -/

/-- Before logon, a logon of the counterparty passes the checks, and then its number decides. -/
theorem ends_process_awaited {seconds : Nat} (hw : Awaits c state seconds)
    (h : Stands c state next expected parked asked s) (hp : IsLogon c n seconds p) (now : Moment)
    (hphase : ∀ t, Stands c state next expected parked asked t → Accepts t p.message seconds →
      Ends (onLogonPhase n p now) t Q E) :
    Ends (process p.frame now) s Q E := by
  have hearly : s.state.isEstablished = false := h.state_eq ▸ hw.isEstablished_eq
  have ht := h.heard now
  exact ends_process_early h.isOpen hearly (h.config_eq.symm ▸ hp.genuine)
    (hphase _ ht (ht.accepts hw hp))

/-- A logon that nothing is missing before is answered, if it is this side's turn, and counted. -/
theorem ends_process_logon {seconds : Nat} (hc : Speakable c) (hd : Mirrored c d)
    (hw : Awaits c state seconds) (h : Stands c state next n [] none s)
    (hnext : next.isValid = true) (hp : IsLogon c n seconds p) (now : Moment) :
    Ends (process p.frame now) s
      (fun r t => ∃ next', Answers c d seconds next r.outbound next' ∧
        Stands c .loggedOn next' (n + 1) [] none t) Never := by
  refine ends_process_awaited hw h hp now fun t ht haccepts => ?_
  have hn := hp.genuine.valid
  refine ends_onLogonPhase_next hn haccepts.checkLogon haccepts.agreeHeartbeat ht.expected_eq.symm
    ((ends_establish_answers hc hd (ht.counted hn) hnext haccepts.le now).imp ?_)
  rintro r u ⟨next', hanswers, hinbound, hu⟩
  -- The answer went to the other journal, so there is still room for the logon.
  have hbelow : u.store.inbound.last < n := hinbound ▸ ht.inbound
  obtain ⟨store, hstore, hv⟩ := hu.keep hbelow (SeqNum.lt_succ_of_isValid hn) p.frame
  exact (ends_append_ok hstore).mpr ⟨next', hanswers, hv⟩

/-- A logon from behind a gap is answered, if it is this side's turn, and parked; then the messages
before it are asked for. -/
theorem ends_process_logon_gap {seconds : Nat} (hc : Speakable c) (hd : Mirrored c d)
    (hw : Awaits c state seconds) (h : Stands c state next expected [] none s)
    (hnext : next.isValid = true) (hfollowing : c.role = .acceptor → (next + 1).isValid = true)
    (hp : IsLogon c n seconds p) (hlt : expected < n) (now : Moment) :
    Ends (process p.frame now) s
      (fun r t => ∃ next' frames request m, r.outbound = frames ++ [request] ∧
        Answers c d seconds next frames next' ∧ IsRequest d next' expected (n - 1) ⟨m, request⟩ ∧
        Stands c .loggedOn (next' + 1) expected [(n, p)] (some (n - 1)) t) Never := by
  refine ends_process_awaited hw h hp now fun t ht haccepts => ?_
  have hgt : t.sequences.expectedIncoming < n := by
    rw [ht.expected_eq]
    exact hlt
  refine ends_onLogonPhase_ahead hp.genuine.valid haccepts.checkLogon haccepts.agreeHeartbeat hgt
    ((ends_establish_answers hc hd ht hnext haccepts.le now).imp ?_)
  rintro r u ⟨next', hanswers, _, hu⟩
  have hvalid : next'.isValid = true := hanswers.isValid hnext hfollowing
  obtain ⟨recovery, hpark, hparked⟩ := hu.park n p
  rw [ends_park_ok hpark, ht.expected_eq]
  refine (ends_writeRequest hc hd hparked hvalid expected (n - 1) now).imp ?_
  rintro r' v ⟨hv, request, m, houtbound, hm⟩
  refine ⟨next', r.outbound, request, m, ?_, hanswers, hm, hv⟩
  rw [Reaction.outbound_append, houtbound]

/-- A numbered message that is the expected one is taken, and then what waits is looked at. -/
theorem ends_process_next (hstate : state = .loggedOn ∨ state = .logoutSent)
    (h : Stands c state next n parked asked s)
    (hp : Genuine .any c n p) (hplain : isPlainReset p.message = false) (now : Moment)
    (htake : ∀ t, Stands c state next (n + 1) parked asked t →
      t.store.outbound = s.store.outbound →
      Ends (dispatch p.message false now) t
        (fun r u => Ends (drain now) u (fun r' v => Q (r ++ r') v) E) E) :
    Ends (process p.frame now) s Q E := by
  have ht := h.heard now
  have hestablished : s.state.isEstablished = true :=
    SessionState.isEstablished_iff.mpr (h.state_eq.symm ▸ hstate)
  exact ends_process_numbered h.isOpen hestablished (h.config_eq.symm ▸ hp) hplain
    (ends_onNumbered_next hp.valid ht.expected_eq.symm
      (ends_accept_counted ht hp.valid false now htake))

/-- A request for messages that were sent is answered by frames that tile them. -/
theorem ends_process_request {first last : SeqNum} (hc : Speakable c) (hd : Mirrored c d)
    (h : Stands c .loggedOn next n [] none s) (hp : IsRequest c n first last p)
    (hfirst : .first ≤ first) (hle : first ≤ last) (hlast : last < next) (now : Moment) :
    Ends (process p.frame now) s
      (fun r t => Tiles d r.outbound first (last + 1) ∧ Stands c .loggedOn next (n + 1) [] none t)
      Never := by
  refine ends_process_next (.inl rfl) h hp.genuine hp.isPlainReset_eq now fun t ht _ =>
    ends_dispatch_resendRequest hp.type ?_
  have hservable : Servable t.config t.store.outbound.entries := by
    rw [ht.config_eq]
    exact ht.servable
  refine (ends_serveResend_tiles (d := d) (by rw [ht.config_eq]; exact hc)
    (by rw [ht.config_eq]; exact hd) hservable hp.first_eq hp.last_eq hfirst hle
    (by rw [ht.next_eq]; exact hlast) now).imp ?_
  rintro r u ⟨rfl, frames, rfl, htiles⟩
  refine (ends_drain_settled (ht.clock _) now).imp ?_
  rintro r v ⟨rfl, hv⟩
  refine ⟨?_, hv⟩
  rw [Reaction.append_empty]
  exact htiles

/-- Where a session stands that waits for the messages before the logon with the number `N`: either
some of them are still missing, or the logon was taken as well. -/
def Filling (c : SessionConfig) (next N : SeqNum) (q : Parked) (expected : SeqNum)
    (s : Session MemoryStore) : Prop :=
  (expected < N ∧ Stands c .loggedOn next expected [(N, q)] (some (N - 1)) s) ∨
    (expected = N ∧ Stands c .loggedOn next (N + 1) [] none s)

/-- The logon waits while messages before it are missing, and is taken after them. -/
theorem ends_drain_filling (h : Stands c .loggedOn next expected [(N, q)] (some (N - 1)) s)
    (hq : Genuine .any c N q) (htype : q.message.msgType = .logon) (hle : expected ≤ N)
    (now : Moment) :
    Ends (drain now) s (fun r t => r = .empty ∧ Filling c next N q expected t) Never := by
  rcases UInt64.lt_or_eq_of_le hle with hlt | rfl
  -- Something is still missing: the logon stays, and so does the request.
  · have hbehind : ∀ e ∈ [(N, q)], N - 1 < e.1 := by
      intro e he
      rw [List.mem_singleton.mp he]
      exact SeqNum.sub_one_lt_of_isValid hq.valid
    refine (ends_drain_behind h (SeqNum.le_sub_one hlt) hbehind now).imp ?_
    rintro r u ⟨rfl, hu⟩
    exact ⟨rfl, .inl ⟨hlt, hu⟩⟩
  -- It is the logon's turn. Taking it asks for nothing, and the number after it closes the request.
  · have hsize : s.recovery.size = 1 := by rw [GapRecovery.size, h.parked_eq]; rfl
    have hreplay : Ends (replay now s.recovery.size) s
        (fun r t => r = .empty ∧
          Stands c .loggedOn next (expected + 1) [] (some (expected - 1)) t) Never := by
      rw [hsize]
      obtain ⟨hready, ht⟩ := h.takeReady_next
      refine ends_replay_succ h.isOpen (fun hnone => ?_) fun p hp => ?_
      · cases hready.symm.trans hnone
      · cases hready.symm.trans hp
        rw [h.expected_eq]
        exact ends_observe_next hq.valid ht.expected_eq.symm
          (ends_accept_counted ht hq.valid true now fun u hu _ =>
            ends_dispatch_logon htype (fun _ => ⟨rfl, hu⟩) nofun)
    have hclosed (last : SeqNum) (hlast : last ∈ some (expected - 1)) : last < expected + 1 := by
      obtain rfl := Option.mem_some_iff.mp hlast
      exact UInt64.lt_trans (SeqNum.sub_one_lt_of_isValid hq.valid)
        (SeqNum.lt_succ_of_isValid hq.valid)
    refine ends_drain.mpr (hreplay.imp ?_)
    rintro _ t ⟨rfl, ht⟩
    refine ⟨fun hended => absurd hended ht.not_terminated, fun _ =>
      (ends_closeGap_closed ht hclosed now).imp ?_⟩
    rintro r v ⟨rfl, hv⟩
    exact ⟨rfl, .inr ⟨rfl, hv⟩⟩

theorem isPlainReset_of_isApp {m : Message} (h : m.msgType.isApp = true) :
    isPlainReset m = false := by
  have hne : m.msgType ≠ .sequenceReset := by
    intro htype
    rw [htype] at h
    cases h
  rw [isPlainReset, decide_eq_false hne, Bool.false_and]

/-- The expected number moves on to the one that a gap fill names. -/
theorem ends_applySequenceReset_stands {m : Message} {following : SeqNum}
    (h : Stands c state next expected parked asked s)
    (hnew : m.nat64? .newSeqNo = some following) (hle : expected ≤ following) :
    Ends (applySequenceReset m) s (fun _ t => Stands c state next following parked asked t)
      Never := by
  refine ends_applySequenceReset (fun hnone => ?_) (fun number hnumber hlt => ?_)
    fun number hnumber _ => ?_
  · cases hnew.symm.trans hnone
  · cases hnew.symm.trans hnumber
    exact absurd hle (UInt64.not_le.mpr (h.expected_eq ▸ hlt))
  · cases hnew.symm.trans hnumber
    exact { h with expected_eq := rfl, inbound := UInt64.lt_of_lt_of_le h.inbound hle }

/-- The first of the frames that tile a range is taken: the expected number moves on to the next, a
message that was sent again is handed over and a gap fill hands nothing over, and then what waits is
looked at. -/
theorem ends_process_tiled {first : SeqNum} {Q : Reaction → Session MemoryStore → Prop}
    {frame : Bytes} {frames : List Bytes} (hstate : state = .loggedOn ∨ state = .logoutSent)
    (h : Stands c state next n parked asked s) (htiles : Tiles c (frame :: frames) n first)
    (now : Moment)
    (hdrain : ∀ m following t, Message.decode c.beginString frame = .ok m →
      Tiles c frames following first → Stands c state next following parked asked t →
      Ends (drain now) t (fun r => Q (⟨[], [m].filter (·.msgType.isApp), []⟩ ++ r)) Never) :
    Ends (process frame now) s Q Never := by
  cases htiles with
  | @again _ m _ _ _ hp happ tail =>
    refine ends_process_next hstate h hp (isPlainReset_of_isApp happ) now fun t ht _ => ?_
    have hone : [m].filter (·.msgType.isApp) = [m] := List.filter_cons_of_pos happ
    have hends := hdrain m (n + 1) t hp.decoded tail ht
    rw [hone] at hends
    exact ends_dispatch_application (isSessionLevel_of_isApp happ) hends
  | @fill _ m _ _ following _ hp hreset hplain hnew hlt tail =>
    refine ends_process_next hstate h hp hplain now fun t ht _ => ?_
    have happ : ¬ m.msgType.isApp = true := by
      rw [hreset]
      decide
    have hnone : [m].filter (·.msgType.isApp) = [] := List.filter_cons_of_neg happ
    -- The gap fill counts as a message itself, and then moves the number on past those it stands
    -- for.
    refine ends_dispatch_sequenceReset hreset
      ((ends_applySequenceReset_stands ht hnew (SeqNum.succ_le_of_lt hlt)).imp ?_)
    intro _ u hu
    have hends := hdrain m following u hp.decoded tail hu
    rw [hnone] at hends
    exact hends

/-- One of the frames that fill the gap before a logon moves the expected number on to the next. -/
theorem ends_process_tile {frame : Bytes} {frames : List Bytes}
    (h : Stands c .loggedOn next n [(N, q)] (some (N - 1)) s) (hq : Genuine .any c N q)
    (htype : q.message.msgType = .logon) (htiles : Tiles c (frame :: frames) n N) (now : Moment) :
    Ends (process frame now) s
      (fun r t => r.outbound = [] ∧ ∃ n', Tiles c frames n' N ∧ Filling c next N q n' t) Never := by
  refine ends_process_tiled (.inl rfl) h htiles now fun m following t _ tail ht => ?_
  refine (ends_drain_filling ht hq htype tail.le now).imp ?_
  rintro r u ⟨rfl, hu⟩
  exact ⟨rfl, following, tail, hu⟩

/-- A request from behind a gap is not answered: it is parked, and the gap stays open. -/
theorem ends_process_behind {first last asked : SeqNum}
    (h : Stands c .loggedOn next expected parked (some asked) s) (hp : IsRequest c n first last p)
    (hlt : expected < n) (now : Moment) :
    Ends (process p.frame now) s
      (fun r t => r.outbound = [] ∧ t.recovery.isRequesting = true) Anyhow := by
  have ht := h.heard now
  have hgt : (s.heard now).sequences.expectedIncoming < n := by
    rw [heard, h.expected_eq]
    exact hlt
  have hestablished : s.state.isEstablished = true := by
    rw [h.state_eq]
    rfl
  refine ends_process_numbered h.isOpen hestablished (h.config_eq.symm ▸ hp.genuine)
    hp.isPlainReset_eq
    (ends_onNumbered_ahead hp.genuine.valid hgt (fun recovery hpark => ?_) fun _ _ => trivial)
  obtain ⟨range, hrange, _⟩ := Option.map_eq_some_iff.mp ht.asked_eq
  have hrequesting : recovery.isRequesting = true := by
    rw [GapRecovery.isRequesting, GapRecovery.pending_park hpark, hrange]
    rfl
  refine ⟨fun _ => ⟨rfl, hrequesting⟩, fun hidle => ?_⟩
  rw [hrequesting] at hidle
  cases hidle

/-! ## Beginning -/

/-- Where a new session stands: at the counters of its store. -/
theorem stands_of_open {store : MemoryStore} {start : Nat} (h : open? c store start = .ok s)
    (hstore : Resumable c store) :
    Stands c .disconnected s.sequences.nextOutgoing s.sequences.expectedIncoming [] none s := by
  obtain ⟨hvalid, rfl⟩ := open?_eq_ok_iff.mp h
  obtain ⟨_, _, _, _, _, _, _, _, _, hbuffered⟩ := SessionConfig.validate_eq_ok_iff.mp hvalid
  exact
    { config_eq := rfl
      state_eq := rfl
      isOpen := rfl
      next_eq := rfl
      expected_eq := rfl
      inbound := SeqNum.lt_max_left _ hstore.inbound
      outbound := SeqNum.lt_max_left _ hstore.outbound
      servable := hstore.servable
      room := Nat.pos_of_ne_zero hbuffered
      parked_eq := rfl
      asked_eq := rfl }

/-- The numbers of a new session are those of messages, and there are two more to send. -/
theorem bounds_of_open {store : MemoryStore} {start : Nat} (h : open? c store start = .ok s)
    (hstore : Resumable c store) :
    .first ≤ s.sequences.expectedIncoming ∧ .first ≤ s.sequences.nextOutgoing ∧
      s.sequences.nextOutgoing < .greatest := by
  obtain ⟨_, rfl⟩ := open?_eq_ok_iff.mp h
  refine ⟨SeqNum.le_max_right _ _, SeqNum.le_max_right _ _, ?_⟩
  have hroom := hstore.room
  show (if store.outbound.nextSeq ≤ .first then .first else store.outbound.nextSeq) < .greatest
  split <;> grind

/-- The initiator begins with a logon. -/
theorem ends_logon_initiator (hc : Speakable c) (hd : Mirrored c d)
    (h : Stands c .disconnected next expected parked asked s) (hrole : c.role = .initiator)
    (hnext : next.isValid = true) (now : Moment) :
    Ends (logon now) s
      (fun frame t => Stands c .logonSent (next + 1) expected parked asked t ∧
        ∃ m, IsLogon d next c.heartbeatSeconds ⟨m, frame⟩) Never := by
  obtain rfl := h.config_eq
  obtain ⟨_, _, ⟨_, hseconds⟩, _⟩ := SessionConfig.validate_eq_ok_iff.mp hc.valid
  refine ends_logon (fun hrefused => absurd h.state_eq (hrefused h.isOpen hrole)) fun _ _ _ =>
    (ends_writeLogon hc hd h hnext hseconds now).imp ?_
  rintro frame t ⟨ht, _, m, hm⟩
  exact ⟨{ ht with state_eq := rfl }, m, hm⟩

end FixProtocol.Session
