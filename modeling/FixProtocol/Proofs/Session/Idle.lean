import FixProtocol.Proofs.Session.Writing
import FixProtocol.Proofs.Wire.Contents

/-!
# Sessions between two calls

While a call works, messages may be parked whose turn has come. When it answers, there are none: the
session has ended, or all that is parked waits behind a gap, and the gap was asked for.

- `HasEnded`: nothing is parked and nothing is requested.
- `Idles`: what is known of an open session between two calls.
- `Keeps`, `Utters`, `Advances`, `Rests`: how much of a session a call leaves alone.
- `ends_drain_waits`, `ends_onNumbered_rests`, `ends_onLogonPhase_idles`, `ends_retryResend_waits`:
  the calls that must restore what is known.
-/

namespace FixProtocol

namespace SequenceTracker

/-- Looking at a number never lowers the expected one. -/
theorem le_observe (t : SequenceTracker) (n : SeqNum) :
    t.expectedIncoming ≤ (t.observe n).2.expectedIncoming := by
  rcases SeqNum.lt_trichotomy n t.expectedIncoming with hlt | heq | hgt
  · rw [observe_of_lt hlt]
    exact UInt64.le_refl _
  · by_cases htop : n = .top
    · have hclassify : t.classify n = .gap t.expectedIncoming n := if_pos htop
      rw [observe, hclassify]
      exact UInt64.le_refl _
    · rw [observe_of_eq htop heq, ← heq]
      exact SeqNum.le_succ_of_lt_top (SeqNum.lt_top_of_ne htop)
  · rw [observe_of_gt hgt]
    exact UInt64.le_refl _

end SequenceTracker

namespace GapRecovery

variable {r : GapRecovery} {n : SeqNum}

theorem parked_eq_nil_of_first? (h : r.first? = none) : r.parked = [] :=
  List.head?_eq_none_iff.mp (Option.map_eq_none_iff.mp h)

theorem exists_mem_of_first? (h : r.first? = some n) : ∃ p, (n, p) ∈ r.parked := by
  obtain ⟨e, he, rfl⟩ := Option.map_eq_some_iff.mp h
  exact ⟨e.2, List.mem_of_head? he⟩

/-- What is still parked when a number was taken waits behind it. -/
theorem lt_of_mem_takeReady {e : SeqNum × Parked} (he : e ∈ (r.takeReady n).2.parked) :
    n < e.1 := by
  -- Everything up to the number is gone, so what is found under the entry's number is above it.
  refine UInt64.not_le.mp fun hle => ?_
  have hfound := r.find?_takeReady n e.1
  rw [if_pos hle, find?, List.lookup_eq_none_iff] at hfound
  have hne := hfound e he
  rw [bne_self_eq_false] at hne
  cases hne

/-- A message that is taken is no longer parked. -/
theorem size_takeReady_lt {p : Parked} (h : (r.takeReady n).1 = some p) :
    (r.takeReady n).2.size < r.size := by
  obtain ⟨front, back, hparked, _⟩ := List.lookup_eq_some_iff.mp h
  have hsublist : (r.takeReady n).2.parked.Sublist r.parked := List.dropWhile_sublist _
  refine Nat.lt_of_le_of_ne hsublist.length_le fun heq => ?_
  have hmem : (n, p) ∈ (r.takeReady n).2.parked := by
    rw [hsublist.eq_of_length heq, hparked]
    exact List.mem_append_right _ List.mem_cons_self
  exact absurd (lt_of_mem_takeReady hmem) (UInt64.lt_irrefl _)

/-- A request that stays open is the one that was open, and has not been passed. -/
theorem mem_pending_onAdvanced {range : ResendRange} (h : range ∈ (r.onAdvanced n).2.pending) :
    range ∈ r.pending ∧ n ≤ range.last := by
  unfold onAdvanced at h
  cases hpending : r.pending with
  | none =>
    rw [hpending] at h
    rw [hpending] at h
    cases h
  | some open? =>
    rw [hpending] at h
    by_cases hlt : open?.last < n
    · simp only [hlt, if_true] at h
      cases h
    · simp only [hlt, if_false, hpending] at h
      exact ⟨h, Option.mem_some_iff.mp h ▸ UInt64.not_lt.mp hlt⟩

end GapRecovery

namespace Session

open Call

variable {σ : Type} {s t u : Session σ} {now : Moment}

/-! ## What is known between two calls -/

/-- The session has ended: nothing is parked and nothing is requested. -/
structure HasEnded (s : Session σ) : Prop where
  terminated : s.terminated = true
  state : s.state = .disconnected
  parked : s.recovery.parked = []
  pending : s.recovery.pending = none

/-- All that is parked waits behind a gap, and the gap was asked for: the open request begins no
later than the gap and ends no earlier. -/
structure Waits (s : Session σ) : Prop where
  behind : ∀ e ∈ s.recovery.parked, s.sequences.expectedIncoming < e.1
  asked : s.recovery.parked ≠ [] → s.recovery.isRequesting = true
  range : ∀ range ∈ s.recovery.pending, range.first ≤ s.sequences.expectedIncoming ∧
    s.sequences.expectedIncoming ≤ range.last

/-- A side in a state: only the one that begins waits for an answer, and whoever has written a
message has names that can be written. -/
structure Introduced (c : SessionConfig) (state : SessionState) : Prop where
  valid : c.validate = .ok ()
  began : state = .logonSent → c.role = .initiator
  named : state ≠ .disconnected → Speakable c

/-- An open session between two calls. Nothing is parked before it is logged on. -/
structure Idles (s : Session σ) : Prop where
  isOpen : s.terminated = false
  waits : Waits s
  early : s.state.isEstablished = false → s.recovery.parked = [] ∧ s.recovery.pending = none
  introduced : Introduced s.config s.state

/-- Whoever exchanges messages can write them. -/
theorem Idles.speakable (h : Idles s) (hstate : s.state.isEstablished = true) :
    Speakable s.config := by
  refine h.introduced.named fun heq => ?_
  rw [heq] at hstate
  cases hstate

theorem hasEnded_terminate (s : Session σ) (now : Moment) : HasEnded (s.terminate now) :=
  ⟨rfl, rfl, rfl, rfl⟩

theorem waits_of_empty (hparked : s.recovery.parked = []) (hpending : s.recovery.pending = none) :
    Waits s where
  behind := by
    rw [hparked]
    exact nofun
  asked := fun h => absurd hparked h
  range := by
    rw [hpending]
    exact nofun

/-! ## How much a call leaves alone -/

/-- From `s` to `t` nothing was received and nothing was asked for. -/
structure Keeps (s t : Session σ) : Prop where
  config : t.config = s.config
  terminated : t.terminated = s.terminated
  recovery : t.recovery = s.recovery
  expected : t.sequences.expectedIncoming = s.sequences.expectedIncoming

/-- From `s` to `t` messages were written at most. -/
structure Utters (s t : Session σ) : Prop extends Keeps s t where
  state : t.state = s.state

/-- From `s` to `t` the session goes on in its state. -/
structure Remains (s t : Session σ) : Prop where
  config : t.config = s.config
  state : t.state = s.state
  terminated : t.terminated = s.terminated

/-- From `s` to `t` the expected number has moved on at most. -/
structure Advances (s t : Session σ) : Prop extends Remains s t where
  recovery : t.recovery = s.recovery
  expected : s.sequences.expectedIncoming ≤ t.sequences.expectedIncoming

/-- From `s` to `t` the session has ended, or goes on with all that is parked behind a gap that was
asked for. -/
inductive Rests (s t : Session σ) : Prop
  | ended (h : HasEnded t)
  | goesOn (hremains : Remains s t) (hwaits : Waits t)

theorem Utters.refl (s : Session σ) : Utters s s :=
  ⟨⟨rfl, rfl, rfl, rfl⟩, rfl⟩

theorem Remains.refl (s : Session σ) : Remains s s :=
  ⟨rfl, rfl, rfl⟩

theorem Remains.trans (h : Remains s t) (h' : Remains t u) : Remains s u :=
  ⟨h'.config.trans h.config, h'.state.trans h.state, h'.terminated.trans h.terminated⟩

theorem Utters.remains (h : Utters s t) : Remains s t :=
  ⟨h.config, h.state, h.terminated⟩

theorem Utters.advances (h : Utters s t) : Advances s t :=
  ⟨h.remains, h.recovery, by rw [h.expected]; exact UInt64.le_refl _⟩

theorem Rests.after (h : Remains s t) (h' : Rests t u) : Rests s u := by
  cases h' with
  | ended h' => exact .ended h'
  | goesOn hremains hwaits => exact .goesOn (h.trans hremains) hwaits

/-- Writing leaves what waits as it is. -/
theorem Keeps.waits (h : Keeps s t) (hs : Waits s) : Waits t where
  behind := by
    rw [h.recovery, h.expected]
    exact hs.behind
  asked := by
    rw [h.recovery]
    exact hs.asked
  range := by
    rw [h.recovery, h.expected]
    exact hs.range

variable [MessageStore σ] {number : SeqNum} {p : Parked} {type : MsgType} {body : List Field}

/-- A message that cannot be sent leaves the session as it is. -/
theorem Refusal.utters {e : Error} (h : Refusal s e t) : Utters s t := by
  cases h with
  | idle => exact .refl s
  | unkept => exact ⟨⟨rfl, rfl, rfl, rfl⟩, rfl⟩

/-! ## Writing -/

theorem Emits.utters {frame : Bytes} (h : Emits s type body now frame t) : Utters s t := by
  obtain ⟨_, _, rfl⟩ := h.kept
  exact ⟨⟨rfl, rfl, rfl, rfl⟩, rfl⟩

/-- What was written carries what was to be written. -/
theorem Emits.carries {frame : Bytes} (h : Emits s type body now frame t) :
    Wire.Carries s.config.beginString frame
      ⟨s.header type s.sequences.nextOutgoing now.utc ++ body⟩ :=
  Wire.carries_of_encode h.encode

/-- What was written has names that can be written. -/
theorem Emits.speakable {frame : Bytes} (h : Emits s type body now frame t)
    (hvalid : s.config.validate = .ok ()) : Speakable s.config :=
  speakable_of_encode hvalid h.encode

/-- Asking for what is missing is all that messages behind a gap need. -/
theorem ends_requestResend_waits {last : SeqNum}
    (hbehind : ∀ e ∈ s.recovery.parked, s.sequences.expectedIncoming < e.1)
    (hle : s.sequences.expectedIncoming ≤ last) (now : Moment) :
    Ends (requestResend s.sequences.expectedIncoming last now) s
      (fun r t => r.delivered = [] ∧ Remains s t ∧ Waits t) Anyhow := by
  refine ends_requestResend.mpr (ends_emit_of_emits ?_)
  rintro frame t ⟨_, store, _, rfl⟩
  refine ⟨rfl, ⟨rfl, rfl, rfl⟩, hbehind, fun _ => rfl, ?_⟩
  rintro range ⟨⟩
  exact ⟨UInt64.le_refl _, hle⟩

/-! ## What the owner asks for -/

/-- Only a side that begins sends a logon, before anything else. -/
theorem ends_logon_emits (now : Moment) :
    Ends (logon now) s
      (fun frame t => s.terminated = false ∧ s.config.role = .initiator ∧
        s.state = .disconnected ∧ ∃ u,
          Emits s .logon [.ofNat .encryptMethod 0, .ofNat .heartBtInt s.config.heartbeatSeconds] now
            frame u ∧ t = u.enter .logonSent now)
      (Refusal s) := by
  refine ends_logon (fun _ => .idle) fun hopen hrole hstate => ?_
  exact (ends_emit_emits ..).imp fun frame u hemits => ⟨hopen, hrole, hstate, u, hemits, rfl⟩

/-- A message of the application is sent as it is, by a session that is logged on. -/
theorem ends_send_emits (type : MsgType) (fields : List Field) (now : Moment) :
    Ends (send type fields now) s
      (fun frame t => s.terminated = false ∧ s.state = .loggedOn ∧
        checkSend type fields = .ok () ∧ Emits s type fields now frame t)
      (Refusal s) := by
  refine ends_send (fun _ => .idle) fun hopen hstate hcheck => ?_
  exact (ends_emit_emits ..).imp fun frame t hemits => ⟨hopen, hstate, hcheck, hemits⟩

theorem ends_logout_emits (text : Option String) (now : Moment) :
    Ends (logout text now) s
      (fun frame t => s.terminated = false ∧ s.state = .loggedOn ∧ ∃ u,
        Emits s .logout (text.map (Field.ofText .text)).toList now frame u ∧
          t = u.enter .logoutSent now)
      (Refusal s) := by
  refine ends_logout (fun _ => .idle) fun hopen hstate => ?_
  exact (ends_emit_emits ..).imp fun frame u hemits => ⟨hopen, hstate, u, hemits, rfl⟩

/-! ## Messages in order -/

theorem ends_applySequenceReset_advances (m : Message) :
    Ends (applySequenceReset m) s (fun _ t => Advances s t) Anyhow :=
  ends_applySequenceReset (fun _ => trivial) (fun _ _ _ => trivial)
    fun _ _ hle => ⟨⟨rfl, rfl, rfl⟩, rfl, hle⟩

theorem ends_onLogout_ended (now : Moment) :
    Ends (onLogout now) s (fun _ t => HasEnded t) Anyhow :=
  ends_onLogout (fun _ => hasEnded_terminate s now)
    fun _ => ends_emit_of_emits fun _ t _ => hasEnded_terminate t now

/-- Serving a request changes nothing but the store and the time of the last message. -/
theorem Serves.utters {r : Reaction} (h : Serves now s r t) : Utters s t := by
  cases h with
  | nothing => exact .refl s
  | again => exact ⟨⟨rfl, rfl, rfl, rfl⟩, rfl⟩

/-- A message in order moves the expected number on at most, and what is parked stays parked; only a
logout ends the session. -/
theorem ends_dispatch_advances (m : Message) (replaying : Bool) (now : Moment) :
    Ends (dispatch m replaying now) s
      (fun _ t => m.msgType = .logout ∧ HasEnded t ∨ Advances s t) Anyhow := by
  refine ends_dispatch ?heartbeat ?testRequest ?resendRequest ?sequenceReset ?logout ?logon
    ?application
  case heartbeat => exact fun _ => .inr ⟨⟨rfl, rfl, rfl⟩, rfl, UInt64.le_refl _⟩
  case testRequest => exact fun _ => ends_emit_of_emits fun _ _ h => .inr h.utters.advances
  case resendRequest =>
    exact fun _ => (ends_serveResend_serves m now).anyhow fun _ _ h => .inr h.utters.advances
  case sequenceReset => exact fun _ => (ends_applySequenceReset_advances m).imp fun _ _ h => .inr h
  case logout => exact fun htype => (ends_onLogout_ended now).imp fun _ _ h => .inl ⟨htype, h⟩
  case logon => exact fun _ => ⟨fun _ => .inr (Utters.refl s).advances, fun _ => trivial⟩
  case application => exact fun _ => .inr (Utters.refl s).advances

theorem ends_accept_advances (n : SeqNum) (p : Parked) (replaying : Bool) (now : Moment) :
    Ends (accept n p replaying now) s (fun _ t => HasEnded t ∨ Advances s t) Anyhow := by
  refine ends_accept (fun store _ => ?_) fun _ _ _ => trivial
  refine (ends_dispatch_advances p.message replaying now).imp ?_
  rintro _ t (⟨_, hended⟩ | hadvances)
  · exact .inl hended
  · exact .inr ⟨⟨hadvances.config, hadvances.state, hadvances.terminated⟩, hadvances.recovery,
      hadvances.expected⟩

/-! ## Messages from behind a gap -/

/-- From `s` to `t` the messages whose turn had come were taken. The open request is the same. -/
structure Replays (s t : Session σ) : Prop extends Remains s t where
  pending : t.recovery.pending = s.recovery.pending
  expected : s.sequences.expectedIncoming ≤ t.sequences.expectedIncoming
  behind : ∀ e ∈ t.recovery.parked, t.sequences.expectedIncoming < e.1

/-- All messages whose turn has come are taken, as each step takes one and there is a step for each
that is parked. The induction is on how many may be taken. -/
theorem ends_replay_replays (hopen : s.terminated = false) (now : Moment) {count : Nat}
    (hcount : s.recovery.size ≤ count) :
    Ends (replay now count) s (fun _ t => HasEnded t ∨ Replays s t) Anyhow := by
  induction count generalizing s with
  | zero =>
    have hnone : s.recovery.parked = [] := List.eq_nil_of_length_eq_zero (Nat.le_zero.mp hcount)
    refine .inr ⟨.refl s, rfl, UInt64.le_refl _, ?_⟩
    rw [hnone]
    exact nofun
  | succ count ih =>
    refine ends_replay_succ hopen (fun _ => ?_) fun p hready => ends_observe_iff.mpr ?_
    · exact .inr ⟨⟨rfl, rfl, rfl⟩, rfl, UInt64.le_refl _, fun e => GapRecovery.lt_of_mem_takeReady⟩
    · have hfewer := GapRecovery.size_takeReady_lt hready
      refine (ends_accept_advances ..).imp ?_
      rintro _ t (hended | hadvances)
      · refine (ends_replay_of_ended hended.terminated now count).imp fun _ _ h => ?_
        exact .inl (h.2 ▸ hended)
      · have hleft : t.recovery.size ≤ count := by
          rw [hadvances.recovery]
          exact Nat.le_of_lt_succ (Nat.lt_of_lt_of_le hfewer hcount)
        refine (ih (hadvances.terminated.trans hopen) hleft).imp ?_
        rintro _ u (hended | hreplays)
        · exact .inl hended
        · have hexpected := SequenceTracker.le_observe s.sequences s.sequences.expectedIncoming
          exact .inr ⟨⟨hreplays.config.trans hadvances.config,
            hreplays.state.trans hadvances.state, hreplays.terminated.trans hadvances.terminated⟩,
            hreplays.pending.trans (by rw [hadvances.recovery]; rfl),
            UInt64.le_trans hexpected (UInt64.le_trans hadvances.expected hreplays.expected),
            hreplays.behind⟩

/-- What is parked behind the expected number is asked for, unless it was. -/
theorem ends_closeGap_waits
    (hbehind : ∀ e ∈ s.recovery.parked, s.sequences.expectedIncoming < e.1)
    (hfirst : ∀ range ∈ s.recovery.pending, range.first ≤ s.sequences.expectedIncoming)
    (now : Moment) : Ends (closeGap now) s (fun _ t => Remains s t ∧ Waits t) Anyhow := by
  have hparked : s.advanced.recovery.parked = s.recovery.parked := parked_onAdvanced ..
  have hrange (range : ResendRange) (h : range ∈ s.advanced.recovery.pending) :
      range.first ≤ s.sequences.expectedIncoming ∧ s.sequences.expectedIncoming ≤ range.last := by
    obtain ⟨hpending, hlast⟩ := GapRecovery.mem_pending_onAdvanced h
    exact ⟨hfirst range hpending, hlast⟩
  rw [← hparked] at hbehind
  refine ends_closeGap (fun hidle => ⟨⟨rfl, rfl, rfl⟩, hbehind, fun hne => ?_, hrange⟩)
    fun first _ _ hlt => ?_
  -- Whatever waits has its turn still to come, so the gap before it was asked for.
  · cases hfound : s.advanced.recovery.first? with
    | none => exact absurd (GapRecovery.parked_eq_nil_of_first? hfound) hne
    | some first =>
      obtain ⟨p, hmem⟩ := GapRecovery.exists_mem_of_first? hfound
      exact (hidle first hfound).resolve_right (UInt64.not_le.mpr (hbehind (first, p) hmem))
  · refine (ends_requestResend_waits (s := s.advanced) hbehind (SeqNum.le_sub_one hlt) now).imp ?_
    rintro _ t ⟨_, hremains, hwaits⟩
    exact ⟨⟨hremains.config, hremains.state, hremains.terminated⟩, hwaits⟩

/-- After the messages whose turn has come, all that is parked waits behind a gap that was asked
for. -/
theorem ends_drain_waits (hopen : s.terminated = false)
    (hfirst : ∀ range ∈ s.recovery.pending, range.first ≤ s.sequences.expectedIncoming)
    (now : Moment) : Ends (drain now) s (fun _ t => Rests s t) Anyhow := by
  refine ends_drain.mpr ((ends_replay_replays hopen now (Nat.le_refl _)).imp ?_)
  rintro _ t (hended | hreplays)
  · refine ⟨fun _ => .ended hended, fun htopen => ?_⟩
    rw [hended.terminated] at htopen
    cases htopen
  · refine ⟨fun htended => ?_, fun _ => ?_⟩
    · rw [hreplays.terminated, hopen] at htended
      cases htended
    · have hfirst : ∀ range ∈ t.recovery.pending, range.first ≤ t.sequences.expectedIncoming := by
        rw [hreplays.pending]
        exact fun range h => UInt64.le_trans (hfirst range h) hreplays.expected
      refine (ends_closeGap_waits hreplays.behind hfirst now).imp ?_
      rintro _ u ⟨hremains, hwaits⟩
      exact .goesOn (hreplays.toRemains.trans hremains) hwaits

/-- A numbered message is taken, discarded or parked, and nothing is left whose turn has come. -/
theorem ends_onNumbered_rests (hopen : s.terminated = false) (hs : Waits s) {n : SeqNum}
    (hn : n.isValid = true) (p : Parked) (now : Moment) :
    Ends (onNumbered n p now) s (fun _ t => Rests s t) Anyhow := by
  refine ends_onNumbered hn (fun _ => .goesOn (.refl s) hs) (fun heq => ?_)
    (fun hgt recovery hpark => ?_) fun _ _ _ => trivial
  · have hcounted : s.sequences.expectedIncoming ≤ n + 1 := heq ▸ SeqNum.le_succ_of_isValid hn
    refine (ends_accept_advances (s := s.counted n) n p false now).imp ?_
    rintro _ t (hended | hadvances)
    · exact (ends_drain_of_ended hended.terminated now).imp fun _ _ h => .ended (h.2 ▸ hended)
    · have hfirst : ∀ range ∈ t.recovery.pending, range.first ≤ t.sequences.expectedIncoming := by
        rw [hadvances.recovery]
        exact fun range h =>
          UInt64.le_trans (hs.range range h).1 (UInt64.le_trans hcounted hadvances.expected)
      refine (ends_drain_waits (hadvances.terminated.trans hopen) hfirst now).imp ?_
      intro _ u hrests
      exact hrests.after ⟨hadvances.config, hadvances.state, hadvances.terminated⟩
  · have hbehind : ∀ e ∈ recovery.parked, s.sequences.expectedIncoming < e.1 := by
      intro e he
      rcases mem_of_mem_park hpark he with rfl | he
      · exact hgt
      · exact hs.behind e he
    have hpending : recovery.pending = s.recovery.pending := GapRecovery.pending_park hpark
    refine ⟨fun hrequesting => ?_, fun _ => ?_⟩
    · refine .goesOn ⟨rfl, rfl, rfl⟩ ⟨hbehind, fun _ => hrequesting, ?_⟩
      show ∀ range ∈ recovery.pending, _
      rw [hpending]
      exact hs.range
    · refine (ends_requestResend_waits (s := { s with recovery }) hbehind (SeqNum.le_sub_one hgt)
        now).imp ?_
      rintro _ t ⟨_, hremains, hwaits⟩
      exact .goesOn ⟨hremains.config, hremains.state, hremains.terminated⟩ hwaits

/-! ## Timers -/

/-- What is written when time passes. A resend request asks for the messages from the expected one
on, of which there is at least that one. -/
structure Prompts (s : Session σ) (frame : Bytes) (m : Message) : Prop where
  carries : Wire.Carries s.config.beginString frame m
  request : m.msgType = .resendRequest →
    m.nat64? .beginSeqNo = some s.sequences.expectedIncoming ∧
      ∃ last, m.nat64? .endSeqNo = some last ∧ s.sequences.expectedIncoming ≤ last

omit [MessageStore σ] in
theorem Prompts.utters {frame : Bytes} {m : Message} (h : Utters s t) (h' : Prompts t frame m) :
    Prompts s frame m where
  carries := h.config ▸ h'.carries
  request := h.expected ▸ h'.request

theorem ends_keepAlive_utters (now : Moment) :
    Ends (keepAlive now) s
      (fun r t => Utters s t ∧ ∀ frame ∈ r.outbound, ∃ m, Prompts s frame m) Anyhow := by
  have hwrite {type : MsgType} {body : List Field}
      (htype : MsgType.ofCode type.code ≠ .resendRequest) :
      Ends (emit type body now) (s.polled now)
        (fun frame t => Utters s t ∧
          ∀ frame' ∈ (Reaction.ofFrame frame).outbound, ∃ m, Prompts s frame' m) Anyhow := by
    refine ends_emit_of_emits fun frame t hemits => ?_
    have hutters := hemits.utters
    refine ⟨⟨⟨hutters.config, hutters.terminated, hutters.recovery, hutters.expected⟩,
      hutters.state⟩, fun frame' hframe => ?_⟩
    rw [List.mem_singleton.mp hframe]
    refine ⟨_, hemits.carries, fun hrequest => ?_⟩
    rw [msgType_header] at hrequest
    exact absurd hrequest htype
  exact ends_keepAlive (fun _ => ⟨⟨⟨rfl, rfl, rfl, rfl⟩, rfl⟩, List.forall_mem_nil _⟩)
    (fun _ => hwrite (by decide)) (fun _ _ => hwrite (by decide)) (fun _ _ => trivial)

/-- A request is repeated for what is still missing of it. -/
theorem ends_retryResend_waits (hs : Waits s) (now : Moment) :
    Ends (retryResend now) s
      (fun r t => Remains s t ∧ Waits t ∧
        ∀ frame ∈ r.outbound, ∃ m, Prompts s frame m) Anyhow := by
  refine ends_retryResend (fun hidle => ?_) (fun first last hagain => ?_) (fun _ _ => trivial)
  · have hsame : s.retried now = s := by
      unfold retried
      rw [GapRecovery.eq_of_pollRetry_none hidle]
    rw [hsame]
    exact ⟨.refl s, hs, List.forall_mem_nil _⟩
  · obtain ⟨range, hrange, hfirst, rfl, hpolled⟩ := GapRecovery.eq_of_pollRetry_reissue hagain
    obtain ⟨hle, hlast⟩ := hs.range range hrange
    have hmax : max range.first s.sequences.expectedIncoming = s.sequences.expectedIncoming :=
      if_pos hle
    obtain rfl := hfirst.trans hmax
    have hwaits : Waits (s.retried now) := by
      unfold retried
      rw [hpolled]
      refine ⟨hs.behind, fun _ => rfl, ?_⟩
      rintro _ ⟨⟩
      exact ⟨UInt64.le_refl _, hlast⟩
    refine ends_emit_of_emits fun frame t hemits => ?_
    have hutters := hemits.utters
    refine ⟨⟨hutters.config, hutters.state, hutters.terminated⟩, hutters.waits hwaits, ?_⟩
    intro frame' hframe
    rw [List.mem_singleton.mp hframe]
    refine ⟨_, hemits.carries, fun _ => ⟨?_, range.last, ?_, hlast⟩⟩
    · exact nat64?_header (by decide) rfl (Field.nat64_ofSeqNum .beginSeqNo _)
    · exact nat64?_header (by decide) rfl (Field.nat64_ofSeqNum .endSeqNo _)

end Session

end FixProtocol
