import FixProtocol.Proofs.Session.Moves

/-!
# One rule for each call

Each call of a session has one rule, which says how it ends by how the calls end that it makes. The
rule holds for whatever is to be known of the end, be it an invariant, a reaction, or that the call
cannot fail. All that is proved of how a call ends is proved from its rule, so that only the rule
looks into the text of the call. The text is read again only where a call is compared with another
one, step by step.

- `ends_emit`, `ends_park`, `ends_requestResend`: the calls that others are made of.
- `ends_dispatch`: what a message asks for, type by type.
- `ends_replay_keeps`, `ends_drain`: the messages that are parked.
- `ends_onLogonPhase`, `ends_onNumbered`, `ends_process`: what a frame does.
- `ends_keepAlive`, `ends_retryResend`, `ends_tick`: what time does.
- `Emits`, `Serves`, `KeptAlive`, `Retried`: all that a call does which makes one decision.
-/

namespace FixProtocol

/-- Do the messages of a session in this state count in the numbering? Before, only a logon is
understood. -/
def SessionState.isEstablished : SessionState → Bool
  | disconnected | logonSent => false
  | loggedOn | logoutSent => true

theorem SessionState.isEstablished_iff {state : SessionState} :
    state.isEstablished = true ↔ state = .loggedOn ∨ state = .logoutSent := by
  cases state <;> decide

namespace Session

open Call

variable {σ : Type}

/-- Nothing is said of a session whose call fails, as it ends then. -/
def Anyhow : Error → Session σ → Prop :=
  fun _ _ => True

end Session

theorem Ends.anyhow {σ α : Type} {c : Session.Call σ α} {s : Session σ}
    {Q Q' : α → Session σ → Prop} {E : Error → Session σ → Prop} (h : Ends c s Q E)
    (hQ : ∀ a t, Q a t → Q' a t) : Ends c s Q' Session.Anyhow :=
  h.mono hQ (fun _ _ _ => trivial)

namespace Session

open Call

variable {σ : Type}

/-- The session after a frame arrived that can be decoded. -/
def heard (s : Session σ) (now : Moment) : Session σ :=
  { s with heartbeat := s.heartbeat.onReceived now.elapsed }

/-- The session after the parked message with the expected number was taken out, with all older
ones. -/
def released (s : Session σ) : Session σ :=
  { s with recovery := (s.recovery.takeReady s.sequences.expectedIncoming).2 }

/-- The session after its open request was closed if it was fulfilled. -/
def advanced (s : Session σ) : Session σ :=
  { s with recovery := (s.recovery.onAdvanced s.sequences.expectedIncoming).2 }

variable [MessageStore σ] {s t : Session σ} {E : Error → Session σ → Prop} {n : SeqNum} {p : Parked}
  {now : Moment}

/-! ## Checks, the store, and what waits -/

section
variable {Q : Unit → Session σ → Prop}

omit [MessageStore σ] in
/-- A check fails, or the call goes on. -/
theorem ends_guard {c : Prop} [Decidable c] {e : Error} :
    Ends (if c then throw e else pure () : Call σ Unit) s Q E ↔ (c → E e s) ∧ (¬ c → Q () s) := by
  by_cases hc : c
  · rw [if_pos hc]
    exact ⟨fun h => ⟨fun _ => h, fun hnot => absurd hc hnot⟩, fun h => h.1 hc⟩
  · rw [if_neg hc]
    exact ⟨fun h => ⟨fun hc' => absurd hc' hc, fun _ => h⟩, fun h => h.2 hc⟩

omit [MessageStore σ] in
@[simp] theorem ends_ensureOpen :
    Ends ensureOpen s Q E ↔
      (s.terminated = true → E (.session (.invalidState "open session" "terminated")) s) ∧
        (s.terminated = false → Q () s) := by
  unfold ensureOpen
  rw [ends_bind, ends_get, ends_guard, Bool.not_eq_true]

omit [MessageStore σ] in
@[simp] theorem ends_ensureState {expected : SessionState} :
    Ends (ensureState expected) s Q E ↔
      (s.state ≠ expected → E (.session (.invalidState expected.name s.state.name)) s) ∧
        (s.state = expected → Q () s) := by
  unfold ensureState
  rw [ends_bind, ends_get, ends_guard, Decidable.not_not]

omit [MessageStore σ] in
@[simp] theorem ends_ensureInitiator :
    Ends ensureInitiator s Q E ↔
      (s.config.role ≠ .initiator →
        E (.session (.invalidState Role.initiator.name Role.acceptor.name)) s) ∧
        (s.config.role = .initiator → Q () s) := by
  unfold ensureInitiator
  rw [ends_bind, ends_get, ends_guard, Decidable.not_not]

@[simp] theorem ends_append {d : Direction} {frame : Bytes} :
    Ends (append d n frame) s Q E ↔
      (∀ store, MessageStore.append s.store d n frame = (.ok (), store) → Q () { s with store }) ∧
        ∀ e store, MessageStore.append s.store d n frame = (.error e, store) →
          E (.store e) { s with store } := by
  unfold append
  rw [ends_onStore]
  exact ⟨fun h => ⟨h.1 (), h.2⟩, fun h => ⟨fun _ => h.1, h.2⟩⟩

/-- A message that the store keeps. -/
theorem ends_append_ok {d : Direction} {frame : Bytes} {store : σ}
    (h : MessageStore.append s.store d n frame = (.ok (), store)) :
    Ends (append d n frame) s Q E ↔ Q () { s with store } := by
  rw [ends_append, h]
  refine ⟨fun hends => hends.1 store rfl, fun hends => ⟨?_, nofun⟩⟩
  rintro _ ⟨⟩
  exact hends

omit [MessageStore σ] in
@[simp] theorem ends_park :
    Ends (park n p) s Q E ↔
      (∀ recovery, s.recovery.park n p = .ok recovery → Q () { s with recovery }) ∧
        ∀ e, s.recovery.park n p = .error e → E (.session e) s := by
  unfold park
  simp only [ends_bind, ends_get, ends_ofExcept, ends_set]

omit [MessageStore σ] in
/-- A message for which there is room is parked. -/
theorem ends_park_ok {recovery : GapRecovery} (h : s.recovery.park n p = .ok recovery) :
    Ends (park n p) s Q E ↔ Q () { s with recovery } := by
  rw [ends_park, h]
  refine ⟨fun hends => hends.1 recovery rfl, fun hends => ⟨?_, nofun⟩⟩
  rintro _ ⟨⟩
  exact hends

end

omit [MessageStore σ] in
theorem ends_observe_iff {Q : SequenceOutcome → Session σ → Prop} :
    Ends (observe n) s Q E ↔
      Q (s.sequences.observe n).1 { s with sequences := (s.sequences.observe n).2 } :=
  Iff.rfl

omit [MessageStore σ] in
/-- A number is below the expected one, or it is the expected one and is counted, or there is a gap
before it. -/
theorem ends_observe {Q : SequenceOutcome → Session σ → Prop} (hn : n.isValid = true)
    (passed : n < s.sequences.expectedIncoming → Q (.duplicate s.sequences.expectedIncoming n) s)
    (counted : n = s.sequences.expectedIncoming → Q .inOrder (s.counted n))
    (ahead : s.sequences.expectedIncoming < n → Q (.gap s.sequences.expectedIncoming n) s) :
    Ends (observe n) s Q E := by
  rw [ends_observe_iff]
  rcases SeqNum.lt_trichotomy n s.sequences.expectedIncoming with hlt | heq | hgt
  · rw [SequenceTracker.observe_of_lt hlt]
    exact passed hlt
  · rw [SequenceTracker.observe_of_eq (SeqNum.ne_top_of_isValid hn) heq]
    exact counted heq
  · rw [SequenceTracker.observe_of_gt hgt]
    exact ahead hgt

omit [MessageStore σ] in
/-- The expected number is counted. -/
theorem ends_observe_next {Q : SequenceOutcome → Session σ → Prop} (hn : n.isValid = true)
    (heq : n = s.sequences.expectedIncoming) (h : Q .inOrder (s.counted n)) :
    Ends (observe n) s Q E := by
  rw [ends_observe_iff, SequenceTracker.observe_of_eq (SeqNum.ne_top_of_isValid hn) heq]
  exact h

/-! ## Writing -/

section
variable {type : MsgType} {body : List Field}

/-- A message is written if it can be, then it is kept, and counted if it was kept. -/
theorem ends_emit {Q : Bytes → Session σ → Prop} :
    Ends (emit type body now) s Q E ↔
      (∀ frame,
        Wire.encode (s.header type s.sequences.nextOutgoing now.utc ++ body) = .ok frame →
          (∀ store, MessageStore.append s.store .outbound s.sequences.nextOutgoing frame =
            (.ok (), store) → Q frame (s.written store now)) ∧
          ∀ e store, MessageStore.append s.store .outbound s.sequences.nextOutgoing frame =
            (.error e, store) → E (.store e) { s with store }) ∧
        ∀ e, Wire.encode (s.header type s.sequences.nextOutgoing now.utc ++ body) = .error e →
          E (.encode e) s := by
  unfold emit
  simp only [ends_bind, ends_get, ends_ofExcept, ends_append, ends_modify, ends_pure]
  exact Iff.rfl

/-- A message was written as `frame`, kept, and counted. -/
structure Emits (s : Session σ) (type : MsgType) (body : List Field) (now : Moment) (frame : Bytes)
    (t : Session σ) : Prop where
  encode : Wire.encode (s.header type s.sequences.nextOutgoing now.utc ++ body) = .ok frame
  kept : ∃ store, MessageStore.append s.store .outbound s.sequences.nextOutgoing frame =
    (.ok (), store) ∧ t = s.written store now

theorem ends_emit_emits (type : MsgType) (body : List Field) (now : Moment) :
    Ends (emit type body now) s (fun frame t => Emits s type body now frame t) (Refusal s) := by
  refine ends_emit.mpr ⟨fun frame hencode => ⟨?_, ?_⟩, fun e _ => .idle _ rfl⟩
  · intro store hstore
    exact ⟨hencode, store, hstore, rfl⟩
  · intro e store hstore
    exact .unkept hstore

end

/-- What is known of every message that is written and kept is known of a call that writes one. -/
theorem ends_emit_of_emits {type : MsgType} {body : List Field} {Q : Bytes → Session σ → Prop}
    (h : ∀ frame t, Emits s type body now frame t → Q frame t) :
    Ends (emit type body now) s Q Anyhow :=
  (ends_emit_emits type body now).anyhow h

section
variable {Q : Reaction → Session σ → Prop} {m : Message}

/-- A resend request is written, noted, and reported. -/
theorem ends_requestResend {first last : SeqNum} :
    Ends (requestResend first last now) s Q E ↔
      Ends (emit .resendRequest [.ofSeqNum .beginSeqNo first, .ofSeqNum .endSeqNo last] now) s
        (fun frame t =>
          Q ⟨[frame], [], [⟨.sequence (.gap first (last + 1)), .resendRequest first last⟩]⟩
            { t with recovery := t.recovery.start first last now.elapsed }) E := by
  unfold requestResend
  simp only [ends_bind, ends_modify, ends_pure]

/-! ## Messages in order -/

/-- Serving a request reads both its numbers, and then sends what was stored in its range, unless
nothing in it was sent. -/
theorem ends_serveResend {begun requested : SeqNum}
    (hbegun : requestedNumber m .beginSeqNo "BeginSeqNo" = .ok begun)
    (hrequested : requestedNumber m .endSeqNo "EndSeqNo" = .ok requested)
    (nothing : s.lastRequested requested < max begun .first → Q .empty s)
    (again : max begun .first ≤ s.lastRequested requested →
      (∀ stored store, MessageStore.range s.store .outbound (max begun .first)
          (s.lastRequested requested) = (.ok stored, store) →
        (∀ frames, ((Resend.plan (s.lastRequested requested) (max begun .first)
            (stored.map fun e => (e.1, Resend.resendable? s.config.beginString e.2))).mapM
              fun item => (s.resendMessage now.utc item).encode) = .ok frames →
          Q ⟨frames, [], []⟩ { s with store, heartbeat := s.heartbeat.onSent now.elapsed }) ∧
        ∀ e, ((Resend.plan (s.lastRequested requested) (max begun .first)
            (stored.map fun e => (e.1, Resend.resendable? s.config.beginString e.2))).mapM
              fun item => (s.resendMessage now.utc item).encode) = .error e →
          E (.encode e) { s with store }) ∧
      ∀ e store, MessageStore.range s.store .outbound (max begun .first)
          (s.lastRequested requested) = (.error e, store) → E (.store e) { s with store }) :
    Ends (serveResend m now) s Q E := by
  unfold serveResend
  simp only [ends_bind, ends_get]
  rw [ends_ofExcept_ok hbegun, ends_ofExcept_ok hrequested]
  split
  · next hlt => exact nothing hlt
  · next hnlt =>
    simp only [ends_bind, ends_get, ends_ofExcept, ends_onStore, ends_modify, ends_pure]
    exact again (UInt64.not_lt.mp hnlt)

omit [MessageStore σ] in
/-- Of a request only the numbers that were sent count. -/
theorem lastRequested_le_previous (s : Session σ) (requested : SeqNum) :
    s.lastRequested requested ≤ s.sequences.nextOutgoing.previous := by
  unfold lastRequested
  split
  · exact UInt64.le_refl _
  · exact Std.min_le_right

/-- A request is served: a range of the messages that were sent is read, and they are written again.
There may be none. -/
inductive Serves (now : Moment) (s : Session σ) : Reaction → Session σ → Prop
  | nothing : Serves now s .empty s
  | again {first last : SeqNum} {stored : List (SeqNum × Bytes)} {store : σ} {frames : List Bytes}
      (hfirst : .first ≤ first) (hle : first ≤ last)
      (hlast : last ≤ s.sequences.nextOutgoing.previous)
      (hrange : MessageStore.range s.store .outbound first last = (.ok stored, store))
      (hframes : ((Resend.plan last first (stored.map fun e =>
          (e.1, Resend.resendable? s.config.beginString e.2))).mapM
            fun item => (s.resendMessage now.utc item).encode) = .ok frames) :
      Serves now s ⟨frames, [], []⟩
        { s with store, heartbeat := s.heartbeat.onSent now.elapsed }

/-- A request is not served: it does not say what it asks for, or the store cannot read the range,
or one of the messages cannot be written again. -/
inductive Unserved (s : Session σ) : Error → Session σ → Prop
  | unclear (e : DecodeError) : Unserved s (.decode e) s
  | unread {first last : SeqNum} {e : StoreError} {store : σ}
      (h : MessageStore.range s.store .outbound first last = (.error e, store)) :
      Unserved s (.store e) { s with store }
  | unwritten {first last : SeqNum} {stored : List (SeqNum × Bytes)} {e : EncodeError} {store : σ}
      (h : MessageStore.range s.store .outbound first last = (.ok stored, store)) :
      Unserved s (.encode e) { s with store }

theorem ends_serveResend_serves (m : Message) (now : Moment) :
    Ends (serveResend m now) s (Serves now s) (Unserved s) := by
  cases hbegun : requestedNumber m .beginSeqNo "BeginSeqNo" with
  | error e =>
    unfold serveResend
    rw [ends_bind, hbegun]
    exact .unclear e
  | ok begun =>
    cases hrequested : requestedNumber m .endSeqNo "EndSeqNo" with
    | error e =>
      unfold serveResend
      rw [ends_bind, ends_ofExcept_ok hbegun, ends_bind, hrequested]
      exact .unclear e
    | ok requested =>
      refine ends_serveResend hbegun hrequested (fun _ => .nothing) fun hle =>
        ⟨fun stored store hrange => ⟨fun frames hframes => ?_, fun _ _ => .unwritten hrange⟩,
          fun _ _ hrange => .unread hrange⟩
      exact .again (SeqNum.le_max_right _ _) hle (s.lastRequested_le_previous requested) hrange
        hframes

/-- A sequence reset names the number that is expected from now on, which must not be below the
one that was expected. -/
theorem ends_applySequenceReset {Q : Unit → Session σ → Prop}
    (unnamed : m.nat64? .newSeqNo = none →
      E (.decode (.malformedField .newSeqNo "SequenceReset without NewSeqNo")) s)
    (back : ∀ number, m.nat64? .newSeqNo = some number → number < s.sequences.expectedIncoming →
      E (.session (.invalidSequenceReset s.sequences.expectedIncoming number)) s)
    (moved : ∀ number, m.nat64? .newSeqNo = some number → s.sequences.expectedIncoming ≤ number →
      Q () { s with
        sequences := { s.sequences with expectedIncoming := number }
        store := MessageStore.setNextSeq s.store .inbound number }) :
    Ends (applySequenceReset m) s Q E := by
  unfold applySequenceReset
  split
  · next hnone => exact unnamed hnone
  · next number hnumber =>
    simp only [ends_bind, ends_get, SequenceTracker.advanceTo]
    by_cases hle : s.sequences.expectedIncoming ≤ number
    · simp only [hle, if_true, ends_set]
      exact moved number hnumber hle
    · simp only [hle, if_false, ends_throw]
      exact back number hnumber (UInt64.not_le.mp hle)

/-- A logout is confirmed unless it is the answer itself, and then the session ends. -/
theorem ends_onLogout
    (answer : s.state = .logoutSent → Q .empty (s.terminate now))
    (confirmed : s.state ≠ .logoutSent →
      Ends (emit .logout [] now) s (fun frame t => Q (.ofFrame frame) (t.terminate now)) E) :
    Ends (onLogout now) s Q E := by
  unfold onLogout
  simp only [ends_bind, ends_get]
  split
  · next hstate => exact answer hstate
  · next hstate =>
    simp only [ends_bind, ends_map, ends_modify, ends_pure]
    exact confirmed hstate

/-! What a message asks for is decided by its type: first one rule for each, then all of them. -/

section
variable {replaying : Bool}

theorem ends_dispatch_heartbeat (htype : m.msgType = .heartbeat)
    (h : Q .empty { s with heartbeat := s.heartbeat.onHeartbeat (m.text? .testReqId) }) :
    Ends (dispatch m replaying now) s Q E := by
  unfold dispatch
  rw [htype]
  exact h

theorem ends_dispatch_testRequest (htype : m.msgType = .testRequest)
    (h : Ends (emit .heartbeat (m.get? .testReqId).toList now) s
      (fun frame t => Q (.ofFrame frame) t) E) :
    Ends (dispatch m replaying now) s Q E := by
  unfold dispatch
  rw [htype]
  exact ends_map.mpr h

theorem ends_dispatch_resendRequest (htype : m.msgType = .resendRequest)
    (h : Ends (serveResend m now) s Q E) : Ends (dispatch m replaying now) s Q E := by
  unfold dispatch
  rw [htype]
  exact h

theorem ends_dispatch_sequenceReset (htype : m.msgType = .sequenceReset)
    (h : Ends (applySequenceReset m) s (fun _ t => Q .empty t) E) :
    Ends (dispatch m replaying now) s Q E := by
  unfold dispatch
  rw [htype]
  exact ends_bind.mpr h

theorem ends_dispatch_logout (htype : m.msgType = .logout) (h : Ends (onLogout now) s Q E) :
    Ends (dispatch m replaying now) s Q E := by
  unfold dispatch
  rw [htype]
  exact h

theorem ends_dispatch_logon (htype : m.msgType = .logon) (parked : replaying = true → Q .empty s)
    (again : replaying = false → E (unexpected .logon s.state) s) :
    Ends (dispatch m replaying now) s Q E := by
  unfold dispatch
  rw [htype]
  cases replaying with
  | true => exact parked rfl
  | false => exact again rfl

theorem ends_dispatch_application (htype : m.msgType.isSessionLevel = false)
    (h : Q (.ofMessage m) s) : Ends (dispatch m replaying now) s Q E := by
  unfold dispatch
  split
  case h_7 => exact h
  all_goals
    next heq =>
      rw [heq] at htype
      cases htype

/-- A message does what its type asks for. -/
theorem ends_dispatch
    (heartbeat : m.msgType = .heartbeat →
      Q .empty { s with heartbeat := s.heartbeat.onHeartbeat (m.text? .testReqId) })
    (testRequest : m.msgType = .testRequest →
      Ends (emit .heartbeat (m.get? .testReqId).toList now) s
        (fun frame t => Q (.ofFrame frame) t) E)
    (resendRequest : m.msgType = .resendRequest → Ends (serveResend m now) s Q E)
    (sequenceReset : m.msgType = .sequenceReset →
      Ends (applySequenceReset m) s (fun _ t => Q .empty t) E)
    (logout : m.msgType = .logout → Ends (onLogout now) s Q E)
    (logon : m.msgType = .logon →
      (replaying = true → Q .empty s) ∧
        (replaying = false → E (unexpected .logon s.state) s))
    (application : m.msgType.isSessionLevel = false → Q (.ofMessage m) s) :
    Ends (dispatch m replaying now) s Q E := by
  cases htype : m.msgType with
  | heartbeat => exact ends_dispatch_heartbeat htype (heartbeat htype)
  | testRequest => exact ends_dispatch_testRequest htype (testRequest htype)
  | resendRequest => exact ends_dispatch_resendRequest htype (resendRequest htype)
  | sequenceReset => exact ends_dispatch_sequenceReset htype (sequenceReset htype)
  | logout => exact ends_dispatch_logout htype (logout htype)
  | logon => exact ends_dispatch_logon htype (logon htype).1 (logon htype).2
  | _ =>
    have hlevel : m.msgType.isSessionLevel = false := by rw [htype]; rfl
    exact ends_dispatch_application hlevel (application hlevel)

end

/-- A message that was counted is kept, and then does what it asks for. -/
theorem ends_accept {replaying : Bool}
    (kept : ∀ store, MessageStore.append s.store .inbound n p.frame = (.ok (), store) →
      Ends (dispatch p.message replaying now) { s with store } Q E)
    (refused : ∀ e store, MessageStore.append s.store .inbound n p.frame = (.error e, store) →
      E (.store e) { s with store }) :
    Ends (accept n p replaying now) s Q E := by
  unfold accept
  rw [ends_bind, ends_append]
  exact ⟨kept, refused⟩

/-- A message that was counted is kept if the store takes it. -/
theorem ends_accept_ok {replaying : Bool} {store : σ}
    (hstore : MessageStore.append s.store .inbound n p.frame = (.ok (), store))
    (h : Ends (dispatch p.message replaying now) { s with store } Q E) :
    Ends (accept n p replaying now) s Q E := by
  refine ends_accept (fun _ hkept => ?_) fun _ _ hrefused => ?_
  · cases hstore.symm.trans hkept
    exact h
  · cases hstore.symm.trans hrefused

/-! ## Messages from behind a gap -/

/-- A session that has ended takes nothing. -/
theorem ends_replay_of_ended (hended : s.terminated = true) (now : Moment) (count : Nat) :
    Ends (replay now count) s (fun r t => r = .empty ∧ t = s) E := by
  cases count with
  | zero => exact ⟨rfl, rfl⟩
  | succ count =>
    unfold replay
    rw [ends_bind, ends_get, if_pos hended]
    exact ⟨rfl, rfl⟩

/-- If the expected message is parked, it is counted and taken, and then what is left is looked
through. -/
theorem ends_replay_succ {count : Nat} (hopen : s.terminated = false)
    (nothing : s.recovery.find? s.sequences.expectedIncoming = none → Q .empty s.released)
    (taken : ∀ p, s.recovery.find? s.sequences.expectedIncoming = some p →
      Ends (observe s.sequences.expectedIncoming) s.released
        (fun _ t => Ends (accept s.sequences.expectedIncoming p true now) t
          (fun taken u => Ends (replay now count) u (fun more v => Q (taken ++ more) v) E) E) E) :
    Ends (replay now (count + 1)) s Q E := by
  unfold replay
  rw [ends_bind, ends_get, if_neg (Bool.eq_false_iff.mp hopen)]
  simp only [ends_bind, ends_set]
  split
  · next hready => exact nothing hready
  · next p hready =>
    simp only [ends_bind, ends_pure]
    exact taken p hready

end

/-- What holds before the parked messages are looked through, and holds again after each that is
taken, together with all that was added to the reaction, holds in the end. The induction is on how
many may be taken. -/
theorem ends_replay_keeps {P : Reaction → Session σ → Prop}
    (nothing : ∀ {r s}, s.terminated = false → P r s → P r s.released)
    (taken : ∀ {r s p}, s.terminated = false → P r s →
      s.recovery.find? s.sequences.expectedIncoming = some p →
      Ends (observe s.sequences.expectedIncoming) s.released
        (fun _ t => Ends (accept s.sequences.expectedIncoming p true now) t
          (fun r' u => P (r ++ r') u) E) E)
    (hs : P .empty s) (count : Nat) : Ends (replay now count) s P E := by
  -- What was added before is carried along.
  have hfrom {r : Reaction} {s : Session σ} (hs : P r s) :
      Ends (replay now count) s (fun r' t => P (r ++ r') t) E := by
    induction count generalizing r s with
    | zero =>
      show P (r ++ .empty) s
      rwa [Reaction.append_empty]
    | succ count ih =>
      cases hopen : s.terminated with
      | true =>
        refine (ends_replay_of_ended hopen now _).imp ?_
        rintro _ _ ⟨rfl, rfl⟩
        rwa [Reaction.append_empty]
      | false =>
        refine ends_replay_succ hopen (fun _ => ?_) fun p hready => ?_
        · rw [Reaction.append_empty]
          exact nothing hopen hs
        · refine (taken hopen hs hready).imp fun _ _ h => h.imp ?_
          intro r' u hu
          exact (ih hu).imp fun _ _ h => Reaction.append_assoc .. ▸ h
  exact hfrom hs

section
variable {Q : Reaction → Session σ → Prop} {m : Message}

/-- A request that was fulfilled is closed. If messages still wait behind a gap that was not asked
for, it is asked for. -/
theorem ends_closeGap
    (nothing : (∀ first, s.advanced.recovery.first? = some first →
      s.advanced.recovery.isRequesting = true ∨ first ≤ s.sequences.expectedIncoming) →
      Q .empty s.advanced)
    (asked : ∀ first, s.advanced.recovery.first? = some first →
      s.advanced.recovery.isRequesting = false → s.sequences.expectedIncoming < first →
      Ends (requestResend s.sequences.expectedIncoming (first - 1) now) s.advanced Q E) :
    Ends (closeGap now) s Q E := by
  unfold closeGap
  simp only [ends_bind, ends_modify, ends_get]
  split
  · next hnone =>
    refine nothing fun first hfirst => ?_
    cases hnone.symm.trans hfirst
  · next first hfirst =>
    split
    · next h =>
      refine nothing fun first' hfirst' => ?_
      rwa [← Option.some.inj (hfirst.symm.trans hfirst')]
    · next h =>
      obtain ⟨hidle, hbehind⟩ := not_or.mp h
      exact asked first hfirst (Bool.eq_false_iff.mpr hidle) (UInt64.not_le.mp hbehind)

/-- The messages whose turn has come are taken, and then the gap is looked at, unless the session
has ended. -/
theorem ends_drain :
    Ends (drain now) s Q E ↔
      Ends (replay now s.recovery.size) s
        (fun taken t => (t.terminated = true → Q taken t) ∧
          (t.terminated = false →
            Ends (closeGap now) t (fun asked u => Q (taken ++ asked) u) E)) E := by
  unfold drain
  simp only [ends_bind, ends_get]
  refine ⟨fun h => h.imp ?_, fun h => h.imp ?_⟩
  · intro taken t ht
    refine ⟨fun hended => ?_, fun hopen => ?_⟩
    · rwa [if_pos hended] at ht
    · rw [if_neg (Bool.eq_false_iff.mp hopen)] at ht
      simp only [ends_bind, ends_pure] at ht
      exact ht
  · rintro taken t ⟨hended, hopen⟩
    split
    · next h => exact hended h
    · next h =>
      simp only [ends_bind, ends_pure]
      exact hopen (Bool.eq_false_iff.mpr h)

theorem ends_drain_of_ended (hended : s.terminated = true) (now : Moment) :
    Ends (drain now) s (fun r t => r = .empty ∧ t = s) E := by
  refine ends_drain.mpr ((ends_replay_of_ended hended now _).imp ?_)
  rintro _ _ ⟨rfl, rfl⟩
  exact ⟨fun _ => ⟨rfl, rfl⟩, fun hopen => absurd hopen (ne_false_of_eq_true hended)⟩

/-- What holds after the parked messages were taken, and again when what is missing was asked for,
holds after both. -/
theorem ends_drain_keeps {P : Reaction → Session σ → Prop}
    (hreplay : Ends (replay now s.recovery.size) s P E)
    (closed : ∀ {r t}, t.terminated = false → P r t →
      Ends (closeGap now) t (fun r' u => P (r ++ r') u) E) :
    Ends (drain now) s P E :=
  ends_drain.mpr (hreplay.imp fun _ _ h => ⟨fun _ => h, fun hopen => closed hopen h⟩)

/-! ## Frames -/

/-- Logging on enters the state; the acceptor answers first. -/
theorem ends_establish {seconds : Nat}
    (initiator : s.config.role = .initiator →
      Q .empty ({ s with
        heartbeat := s.heartbeat.reset (seconds * 1000) now.elapsed }.enter .loggedOn now))
    (acceptor : s.config.role = .acceptor →
      Ends (emit .logon [.ofNat .encryptMethod 0, .ofNat .heartBtInt seconds] now) s
        (fun frame t => Q (.ofFrame frame)
          ({ t with
            heartbeat := t.heartbeat.reset (seconds * 1000) now.elapsed }.enter .loggedOn now)) E) :
    Ends (establish seconds now) s Q E := by
  unfold establish
  simp only [ends_bind, ends_get]
  split
  · next hrole => exact initiator hrole
  · next hrole =>
    simp only [ends_bind, ends_map, ends_modify, ends_pure]
    exact acceptor hrole

omit [MessageStore σ] in
theorem isRecoverable_of_checkLogon {e : Error} (h : s.checkLogon m = .error e) :
    e.isRecoverable = false := by
  unfold checkLogon unexpected at h
  split at h
  · cases h; rfl
  · cases h
  · split at h
    · cases h
    · cases h; rfl
  · cases h; rfl

/-- Before logon, a logon that is accepted logs on and is kept or parked; its number must not have
been passed. -/
theorem ends_onLogonPhase (hn : n.isValid = true)
    (refused : (∀ seconds, s.checkLogon p.message = .ok () →
        s.agreeHeartbeat p.message = .ok seconds → n < s.sequences.expectedIncoming) →
      ∀ e, e.isRecoverable = false → E e s)
    (kept : ∀ seconds, s.checkLogon p.message = .ok () →
      s.agreeHeartbeat p.message = .ok seconds → n = s.sequences.expectedIncoming →
      Ends (establish seconds now) (s.counted n)
        (fun answered t => Ends (append .inbound n p.frame) t (fun _ u => Q answered u) E) E)
    (parked : ∀ seconds, s.checkLogon p.message = .ok () →
      s.agreeHeartbeat p.message = .ok seconds → s.sequences.expectedIncoming < n →
      Ends (establish seconds now) s
        (fun answered t => Ends (park n p) t
          (fun _ u => Ends (requestResend s.sequences.expectedIncoming (n - 1) now) u
            (fun asked v => Q (answered ++ asked) v) E) E) E) :
    Ends (onLogonPhase n p now) s Q E := by
  unfold onLogonPhase
  simp only [ends_bind, ends_get, ends_ofExcept]
  refine ⟨fun _ hlogon => ⟨fun seconds hseconds => ?_, fun e he => ?_⟩, fun e he => ?_⟩
  · refine ends_observe hn (fun hlt => ?_) (fun heq => ?_) fun hgt => ?_
    · exact refused (fun _ _ _ => hlt) _ rfl
    · simp only [ends_bind, ends_pure]
      exact kept seconds hlogon hseconds heq
    · simp only [ends_bind, ends_pure]
      exact parked seconds hlogon hseconds hgt
  · refine refused (fun _ _ hseconds => ?_) _ rfl
    rw [he] at hseconds
    cases hseconds
  · refine refused (fun _ hlogon => ?_) e (isRecoverable_of_checkLogon he)
    rw [he] at hlogon
    cases hlogon

/-- The logon that is waited for is answered and kept if it has the expected number. -/
theorem ends_onLogonPhase_next {seconds : Nat} (hn : n.isValid = true)
    (hlogon : s.checkLogon p.message = .ok ())
    (hseconds : s.agreeHeartbeat p.message = .ok seconds) (heq : n = s.sequences.expectedIncoming)
    (h : Ends (establish seconds now) (s.counted n)
      (fun answered t => Ends (append .inbound n p.frame) t (fun _ u => Q answered u) E) E) :
    Ends (onLogonPhase n p now) s Q E := by
  refine ends_onLogonPhase hn (fun hrefused => ?_) (fun seconds' _ hseconds' _ => ?_)
    fun _ _ _ hgt => ?_
  · exact absurd (heq ▸ hrefused seconds hlogon hseconds) (UInt64.lt_irrefl _)
  · cases hseconds.symm.trans hseconds'
    exact h
  · exact absurd (heq ▸ hgt) (UInt64.lt_irrefl _)

/-- The logon that is waited for is answered and parked if there is a gap before it. -/
theorem ends_onLogonPhase_ahead {seconds : Nat} (hn : n.isValid = true)
    (hlogon : s.checkLogon p.message = .ok ())
    (hseconds : s.agreeHeartbeat p.message = .ok seconds) (hgt : s.sequences.expectedIncoming < n)
    (h : Ends (establish seconds now) s
      (fun answered t => Ends (park n p) t
        (fun _ u => Ends (requestResend s.sequences.expectedIncoming (n - 1) now) u
          (fun asked v => Q (answered ++ asked) v) E) E) E) :
    Ends (onLogonPhase n p now) s Q E := by
  refine ends_onLogonPhase hn (fun hrefused => ?_) (fun _ _ _ heq => ?_)
    fun seconds' _ hseconds' _ => ?_
  · exact absurd (hrefused seconds hlogon hseconds) (UInt64.lt_asymm hgt)
  · exact absurd (heq ▸ hgt) (UInt64.lt_irrefl _)
  · cases hseconds.symm.trans hseconds'
    exact h

/-- A numbered message is reported if its number was passed, taken if it is the expected one, and
parked if there is a gap before it; the gap is asked for unless it was. -/
theorem ends_onNumbered (hn : n.isValid = true)
    (passed : n < s.sequences.expectedIncoming →
      Q (.ofReport ⟨.sequence (.duplicate s.sequences.expectedIncoming n), .ignore⟩) s)
    (taken : n = s.sequences.expectedIncoming →
      Ends (accept n p false now) (s.counted n)
        (fun taken t => Ends (drain now) t (fun more u => Q (taken ++ more) u) E) E)
    (parked : s.sequences.expectedIncoming < n →
      ∀ recovery, s.recovery.park n p = .ok recovery →
        (recovery.isRequesting = true → Q .empty { s with recovery }) ∧
          (recovery.isRequesting = false →
            Ends (requestResend s.sequences.expectedIncoming (n - 1) now) { s with recovery } Q E))
    (refused : s.sequences.expectedIncoming < n →
      ∀ e, s.recovery.park n p = .error e → E (.session e) s) :
    Ends (onNumbered n p now) s Q E := by
  unfold onNumbered
  rw [ends_bind]
  refine ends_observe hn (fun hlt => passed hlt) (fun heq => ?_) fun hgt => ?_
  · simp only [ends_bind, ends_pure]
    exact taken heq
  · simp only [ends_bind, ends_get, ends_park]
    refine ⟨fun recovery hpark => ?_, refused hgt⟩
    obtain ⟨hrequesting, hidle⟩ := parked hgt recovery hpark
    split
    · next h => exact hrequesting h
    · next h => exact hidle (Bool.eq_false_iff.mpr h)

theorem ends_onNumbered_passed (hn : n.isValid = true) (hlt : n < s.sequences.expectedIncoming)
    (h : Q (.ofReport ⟨.sequence (.duplicate s.sequences.expectedIncoming n), .ignore⟩) s) :
    Ends (onNumbered n p now) s Q E :=
  ends_onNumbered hn (fun _ => h) (fun heq => absurd (heq ▸ hlt) (UInt64.lt_irrefl _))
    (fun hgt => absurd hlt (UInt64.lt_asymm hgt)) (fun hgt => absurd hlt (UInt64.lt_asymm hgt))

theorem ends_onNumbered_next (hn : n.isValid = true) (heq : n = s.sequences.expectedIncoming)
    (h : Ends (accept n p false now) (s.counted n)
      (fun taken t => Ends (drain now) t (fun more u => Q (taken ++ more) u) E) E) :
    Ends (onNumbered n p now) s Q E :=
  ends_onNumbered hn (fun hlt => absurd (heq ▸ hlt) (UInt64.lt_irrefl _)) (fun _ => h)
    (fun hgt => absurd (heq ▸ hgt) (UInt64.lt_irrefl _))
    (fun hgt => absurd (heq ▸ hgt) (UInt64.lt_irrefl _))

theorem ends_onNumbered_ahead (hn : n.isValid = true) (hgt : s.sequences.expectedIncoming < n)
    (parked : ∀ recovery, s.recovery.park n p = .ok recovery →
      (recovery.isRequesting = true → Q .empty { s with recovery }) ∧
        (recovery.isRequesting = false →
          Ends (requestResend s.sequences.expectedIncoming (n - 1) now) { s with recovery } Q E))
    (refused : ∀ e, s.recovery.park n p = .error e → E (.session e) s) :
    Ends (onNumbered n p now) s Q E :=
  ends_onNumbered hn (fun hlt => absurd hlt (UInt64.lt_asymm hgt))
    (fun heq => absurd (heq ▸ hgt) (UInt64.lt_irrefl _)) (fun _ => parked) (fun _ => refused)

end

omit [MessageStore σ] in
/-- A message that passes the checks is one of the counterparty. -/
theorem genuine_of_checks {I : Inputs} {frame : Bytes} {m : Message} (hframe : I.frame frame)
    (hdecode : Message.decode s.config.beginString frame = .ok m) (hids : s.checkCompIds m = .ok ())
    (hnumber : checkNumber m = .ok n) : Genuine I s.config n ⟨m, frame⟩ := by
  simp only [checkCompIds] at hids
  unfold checkNumber at hnumber
  split at hids
  · next h =>
    split at hnumber
    · next k hk =>
      obtain ⟨hnum, hvalid⟩ := Option.filter_eq_some_iff.mp hk
      cases hnumber
      exact ⟨hframe, hdecode, h.1, h.2, hnum, hvalid⟩
    · cases hnumber
  · cases hids

omit [MessageStore σ] in
theorem Genuine.checkCompIds_eq {I : Inputs} (hp : Genuine I s.config n p) :
    s.checkCompIds p.message = .ok () := by
  unfold checkCompIds
  rw [hp.sender, hp.target]
  exact if_pos ⟨rfl, rfl⟩

theorem Genuine.checkNumber_eq {I : Inputs} {c : SessionConfig} (hp : Genuine I c n p) :
    checkNumber p.message = .ok n := by
  unfold checkNumber
  rw [hp.numbered, Option.filter_some_pos hp.valid]

section
variable {Q : Reaction → Session σ → Prop} {I : Inputs} {frame : Bytes}

/-- The message of a frame is looked at if the session is open and it passes the checks, and then
the state decides. A frame that is refused is a sign of life all the same if it can be decoded. -/
theorem ends_process (hframe : I.frame frame)
    (refused : ∀ e t, e.isRecoverable = false →
      (t = s ∨ t = s.heard now) →
      (s.terminated = false → ∀ n m, ¬ Genuine I s.config n ⟨m, frame⟩) → E e t)
    (early : s.terminated = false → s.state.isEstablished = false → ∀ n m,
      Genuine I s.config n ⟨m, frame⟩ →
      Ends (onLogonPhase n ⟨m, frame⟩ now) (s.heard now) Q E)
    (reset : s.terminated = false → s.state.isEstablished = true → ∀ n m,
      Genuine I s.config n ⟨m, frame⟩ → isPlainReset m = true →
      Ends (applySequenceReset m) (s.heard now) (fun _ t => Ends (drain now) t Q E) E)
    (numbered : s.terminated = false → s.state.isEstablished = true → ∀ n m,
      Genuine I s.config n ⟨m, frame⟩ → isPlainReset m = false →
      Ends (onNumbered n ⟨m, frame⟩ now) (s.heard now) Q E) :
    Ends (process frame now) s Q E := by
  unfold process
  simp only [ends_bind, ends_ensureOpen, ends_get, ends_ofExcept, ends_modify]
  refine ⟨fun hended => ?_, fun hopen => ⟨fun m hdecode => ⟨fun _ hids => ⟨fun n hnumber => ?_,
    fun e he => ?_⟩, fun e he => ?_⟩, fun e he => ?_⟩⟩
  · exact refused _ _ rfl (.inl rfl) fun hopen => absurd hopen (ne_false_of_eq_true hended)
  · have hp : Genuine I s.config n ⟨m, frame⟩ := genuine_of_checks hframe hdecode hids hnumber
    have hlate (hstate : s.state.isEstablished = true) :
        Ends (if isPlainReset m then do
            applySequenceReset m
            drain now
          else onNumbered n ⟨m, frame⟩ now) (s.heard now) Q E := by
      split
      · next hplain => exact ends_bind.mpr (reset hopen hstate n m hp hplain)
      · next hplain => exact numbered hopen hstate n m hp (Bool.eq_false_iff.mpr hplain)
    split
    · next hstate => exact early hopen (by rw [hstate]; rfl) n m hp
    · next hstate => exact early hopen (by rw [hstate]; rfl) n m hp
    · next hstate => exact hlate (by rw [hstate]; rfl)
    · next hstate => exact hlate (by rw [hstate]; rfl)
  -- A message that fails a check is not one of the counterparty.
  · refine refused _ _ rfl (.inr rfl) fun _ n m' hp => ?_
    obtain rfl := Except.ok.inj (hdecode.symm.trans hp.decoded)
    rw [hp.checkNumber_eq] at he
    cases he
  · refine refused _ _ rfl (.inr rfl) fun _ n m' hp => ?_
    obtain rfl := Except.ok.inj (hdecode.symm.trans hp.decoded)
    rw [hp.checkCompIds_eq] at he
    cases he
  · refine refused _ _ rfl (.inl rfl) fun _ n m' hp => ?_
    rw [hp.decoded] at he
    cases he

omit [MessageStore σ] in
/-- A frame holds one message, under one number. -/
theorem Genuine.unique {c : SessionConfig} {n' : SeqNum} {m : Message} (hp : Genuine I c n p)
    (hp' : Genuine I c n' ⟨m, p.frame⟩) : n' = n ∧ m = p.message := by
  obtain rfl := Except.ok.inj (hp.decoded.symm.trans hp'.decoded)
  exact ⟨Option.some.inj (hp'.numbered.symm.trans hp.numbered), rfl⟩

/-- A message of the counterparty is not refused by an open session. -/
theorem ends_process_genuine (hopen : s.terminated = false) (hp : Genuine I s.config n p)
    (early : s.state.isEstablished = false → Ends (onLogonPhase n p now) (s.heard now) Q E)
    (reset : s.state.isEstablished = true → isPlainReset p.message = true →
      Ends (applySequenceReset p.message) (s.heard now) (fun _ t => Ends (drain now) t Q E) E)
    (numbered : s.state.isEstablished = true → isPlainReset p.message = false →
      Ends (onNumbered n p now) (s.heard now) Q E) :
    Ends (process p.frame now) s Q E := by
  refine ends_process hp.frame (fun _ _ _ _ hnone => absurd hp (hnone hopen n p.message))
    (fun _ hstate n' m hp' => ?_) (fun _ hstate n' m hp' hplain => ?_)
    fun _ hstate n' m hp' hplain => ?_
  all_goals obtain ⟨rfl, rfl⟩ := hp.unique hp'
  · exact early hstate
  · exact reset hstate hplain
  · exact numbered hstate hplain

theorem ends_process_early (hopen : s.terminated = false) (hstate : s.state.isEstablished = false)
    (hp : Genuine I s.config n p) (h : Ends (onLogonPhase n p now) (s.heard now) Q E) :
    Ends (process p.frame now) s Q E :=
  ends_process_genuine hopen hp (fun _ => h)
    (fun hlate => absurd hlate (ne_true_of_eq_false hstate))
    (fun hlate => absurd hlate (ne_true_of_eq_false hstate))

theorem ends_process_reset (hopen : s.terminated = false) (hstate : s.state.isEstablished = true)
    (hp : Genuine I s.config n p) (hplain : isPlainReset p.message = true)
    (h : Ends (applySequenceReset p.message) (s.heard now)
      (fun _ t => Ends (drain now) t Q E) E) :
    Ends (process p.frame now) s Q E :=
  ends_process_genuine hopen hp (fun hearly => absurd hearly (ne_false_of_eq_true hstate))
    (fun _ _ => h) (fun _ hcounts => absurd hcounts (ne_false_of_eq_true hplain))

theorem ends_process_numbered (hopen : s.terminated = false)
    (hstate : s.state.isEstablished = true) (hp : Genuine I s.config n p)
    (hplain : isPlainReset p.message = false) (h : Ends (onNumbered n p now) (s.heard now) Q E) :
    Ends (process p.frame now) s Q E :=
  ends_process_genuine hopen hp (fun hearly => absurd hearly (ne_false_of_eq_true hstate))
    (fun _ hreset => absurd hreset (ne_true_of_eq_false hplain)) (fun _ _ => h)

/-! ## Timers -/

/-- Nothing is due of a session in which no message is exchanged, or which still has time to
wait. -/
inductive Unhurried (s : Session σ) (now : Moment) : Prop
  | ended (h : s.terminated = true)
  | disconnected (h : s.state = .disconnected)
  | logonSent (h : s.state = .logonSent) (hearly : now.elapsed - s.since < s.config.logonTimeout)
  | logoutSent (h : s.state = .logoutSent)
      (hearly : now.elapsed - s.since < s.config.logoutTimeout)

/-- The session after its monitor was asked what is due. -/
def polled (s : Session σ) (now : Moment) : Session σ :=
  { s with heartbeat := (s.heartbeat.poll now).2 }

/-- The session after its open request was looked at. -/
def retried (s : Session σ) (now : Moment) : Session σ :=
  { s with
    recovery := (s.recovery.pollRetry now.elapsed s.sequences.expectedIncoming
      s.config.resendTimeout s.config.resendRetryLimit).2 }

/-- The monitor is asked what is due, and that is sent, or the session gives up. -/
theorem ends_keepAlive
    (nothing : (s.heartbeat.poll now).1 = none → Q .empty (s.polled now))
    (heartbeat : (s.heartbeat.poll now).1 = some .sendHeartbeat →
      Ends (emit .heartbeat [] now) (s.polled now) (fun frame t => Q (.ofFrame frame) t) E)
    (probe : ∀ id, (s.heartbeat.poll now).1 = some (.sendTestRequest id) →
      Ends (emit .testRequest [.ofText .testReqId id] now) (s.polled now)
        (fun frame t => Q (.ofFrame frame) t) E)
    (overdue : ∀ waited, (s.heartbeat.poll now).1 = some (.timedOut waited) →
      E (.session (.heartbeatTimeout waited)) (s.polled now)) :
    Ends (keepAlive now) s Q E := by
  unfold keepAlive
  simp only [ends_bind, ends_get, ends_set]
  split
  · next waited hdue => exact overdue waited hdue
  · next id hdue => exact ends_map.mpr (probe id hdue)
  · next hdue => exact ends_map.mpr (heartbeat hdue)
  · next hdue => exact nothing hdue

/-- The open request is repeated if its time is up, or the session gives up. -/
theorem ends_retryResend
    (nothing : (s.recovery.pollRetry now.elapsed s.sequences.expectedIncoming
      s.config.resendTimeout s.config.resendRetryLimit).1 = none → Q .empty (s.retried now))
    (again : ∀ first last, (s.recovery.pollRetry now.elapsed s.sequences.expectedIncoming
        s.config.resendTimeout s.config.resendRetryLimit).1 = some (.reissue first last) →
      Ends (emit .resendRequest [.ofSeqNum .beginSeqNo first, .ofSeqNum .endSeqNo last] now)
        (s.retried now) (fun frame t => Q (.ofFrame frame) t) E)
    (exhausted : ∀ e, (s.recovery.pollRetry now.elapsed s.sequences.expectedIncoming
        s.config.resendTimeout s.config.resendRetryLimit).1 = some (.exhausted e) →
      E (.session e) (s.retried now)) :
    Ends (retryResend now) s Q E := by
  unfold retryResend
  simp only [ends_bind, ends_get, ends_set]
  split
  · next first last hdue => exact ends_map.mpr (again first last hdue)
  · next e hdue => exact exhausted e hdue
  · next hdue => exact nothing hdue

end

theorem ends_keepAlive_of_none (h : s.heartbeat.poll now = (none, s.heartbeat)) :
    Ends (keepAlive now) s (fun r t => r = .empty ∧ t = s) E := by
  have hsame : s.polled now = s := by rw [polled, h]
  refine ends_keepAlive (fun _ => ⟨rfl, hsame⟩) (fun hdue => ?_) (fun _ hdue => ?_)
    fun _ hdue => ?_
  all_goals
    rw [h] at hdue
    cases hdue

theorem ends_retryResend_of_none
    (h : s.recovery.pollRetry now.elapsed s.sequences.expectedIncoming s.config.resendTimeout
      s.config.resendRetryLimit = (none, s.recovery)) :
    Ends (retryResend now) s (fun r t => r = .empty ∧ t = s) E := by
  have hsame : s.retried now = s := by rw [retried, h]
  refine ends_retryResend (fun _ => ⟨rfl, hsame⟩) (fun _ _ hdue => ?_) fun _ hdue => ?_
  all_goals
    rw [h] at hdue
    cases hdue

/-- What the monitor asks for is sent. -/
inductive KeptAlive (s : Session σ) (now : Moment) : Reaction → Session σ → Prop
  | nothing (hdue : (s.heartbeat.poll now).1 = none) : KeptAlive s now .empty (s.polled now)
  | heartbeat {frame : Bytes} {t : Session σ}
      (hdue : (s.heartbeat.poll now).1 = some .sendHeartbeat)
      (h : Emits (s.polled now) .heartbeat [] now frame t) : KeptAlive s now (.ofFrame frame) t
  | probe {id : String} {frame : Bytes} {t : Session σ}
      (hdue : (s.heartbeat.poll now).1 = some (.sendTestRequest id))
      (h : Emits (s.polled now) .testRequest [.ofText .testReqId id] now frame t) :
      KeptAlive s now (.ofFrame frame) t

/-- The open request is repeated if its time is up. -/
inductive Retried (s : Session σ) (now : Moment) : Reaction → Session σ → Prop
  | nothing (hdue : (s.recovery.pollRetry now.elapsed s.sequences.expectedIncoming
      s.config.resendTimeout s.config.resendRetryLimit).1 = none) :
      Retried s now .empty (s.retried now)
  | again {first last : SeqNum} {frame : Bytes} {t : Session σ}
      (hdue : (s.recovery.pollRetry now.elapsed s.sequences.expectedIncoming
        s.config.resendTimeout s.config.resendRetryLimit).1 = some (.reissue first last))
      (h : Emits (s.retried now) .resendRequest
        [.ofSeqNum .beginSeqNo first, .ofSeqNum .endSeqNo last] now frame t) :
      Retried s now (.ofFrame frame) t

theorem ends_keepAlive_keptAlive (now : Moment) :
    Ends (keepAlive now) s (KeptAlive s now) Anyhow :=
  ends_keepAlive .nothing (fun hdue => ends_emit_of_emits fun _ _ => .heartbeat hdue)
    (fun _ hdue => ends_emit_of_emits fun _ _ => .probe hdue) (fun _ _ => trivial)

theorem ends_retryResend_retried (now : Moment) :
    Ends (retryResend now) s (Retried s now) Anyhow :=
  ends_retryResend .nothing (fun _ _ hdue => ends_emit_of_emits fun _ _ => .again hdue)
    (fun _ _ => trivial)

/-- When time has passed, a wait may be over; a session that is logged on is kept alive, and then
asks again for what it misses. -/
theorem ends_tick {Q : Reaction → Session σ → Prop}
    (nothing : Unhurried s now → Q .empty s)
    (unanswered : s.terminated = false → s.state = .logonSent →
      s.config.logonTimeout ≤ now.elapsed - s.since →
      E (.session (.logonTimeout (now.elapsed - s.since))) s)
    (expired : s.terminated = false → s.state = .logoutSent →
      s.config.logoutTimeout ≤ now.elapsed - s.since → Q .empty (s.terminate now))
    (loggedOn : s.terminated = false → s.state = .loggedOn →
      Ends (keepAlive now) s
        (fun alive t => Ends (retryResend now) t (fun retried u => Q (alive ++ retried) u) E) E) :
    Ends (tick now) s Q E := by
  unfold tick
  simp only [ends_bind, ends_get]
  split
  · next hended => exact nothing (.ended hended)
  · next hopen =>
    have hopen : s.terminated = false := Bool.eq_false_iff.mpr hopen
    split
    · next hstate => exact nothing (.disconnected hstate)
    · next hstate =>
      split
      · next hover => exact unanswered hopen hstate hover
      · next hearly => exact nothing (.logonSent hstate (Nat.not_le.mp hearly))
    · next hstate =>
      split
      · next hover => exact expired hopen hstate hover
      · next hearly => exact nothing (.logoutSent hstate (Nat.not_le.mp hearly))
    · next hstate =>
      simp only [ends_bind, ends_pure]
      exact loggedOn hopen hstate

theorem ends_tick_of_ended (hended : s.terminated = true) (now : Moment) :
    Ends (tick now) s (fun r t => r = .empty ∧ t = s) E := by
  have hclosed : ¬ s.terminated = false := ne_false_of_eq_true hended
  exact ends_tick (fun _ => ⟨rfl, rfl⟩) (fun hopen => absurd hopen hclosed)
    (fun hopen => absurd hopen hclosed) (fun hopen => absurd hopen hclosed)

/-! ## What the owner asks for -/

section
variable {Q : Bytes → Session σ → Prop}

/-- Only an open session of the side that begins sends a logon, before anything else. -/
theorem ends_logon
    (refused : (s.terminated = false → s.config.role = .initiator → s.state ≠ .disconnected) →
      ∀ e, e.isRecoverable = false → E e s)
    (begun : s.terminated = false → s.config.role = .initiator → s.state = .disconnected →
      Ends (emit .logon [.ofNat .encryptMethod 0, .ofNat .heartBtInt s.config.heartbeatSeconds] now)
        s (fun frame t => Q frame (t.enter .logonSent now)) E) :
    Ends (logon now) s Q E := by
  unfold logon
  simp only [ends_bind, ends_ensureOpen, ends_ensureInitiator, ends_ensureState, ends_get,
    ends_modify, ends_pure]
  exact ⟨fun hended => refused (fun hopen => absurd hopen (ne_false_of_eq_true hended)) _ rfl,
    fun hopen => ⟨fun hrole => refused (fun _ h => absurd h hrole) _ rfl, fun hrole =>
      ⟨fun hstate => refused (fun _ _ => hstate) _ rfl, begun hopen hrole⟩⟩⟩

/-- A message of the application is sent by a session that is logged on, if it passes the checks. -/
theorem ends_send {type : MsgType} {fields : List Field}
    (refused : (s.terminated = false → s.state = .loggedOn → checkSend type fields ≠ .ok ()) →
      ∀ e, e.isRecoverable = false → E e s)
    (sent : s.terminated = false → s.state = .loggedOn → checkSend type fields = .ok () →
      Ends (emit type fields now) s Q E) :
    Ends (send type fields now) s Q E := by
  unfold send
  simp only [ends_bind, ends_ensureOpen, ends_ensureState, ends_ofExcept]
  refine ⟨fun hended => refused (fun hopen => absurd hopen (ne_false_of_eq_true hended)) _ rfl,
    fun hopen => ⟨fun hstate => refused (fun _ h => absurd h hstate) _ rfl, fun hstate =>
      ⟨fun _ hcheck => sent hopen hstate hcheck,
        fun e hcheck => refused (fun _ _ hok => ?_) _ rfl⟩⟩⟩
  cases hcheck.symm.trans hok

/-- A session that is logged on asks for its end, and waits for the answer. -/
theorem ends_logout {text : Option String}
    (refused : (s.terminated = false → s.state ≠ .loggedOn) →
      ∀ e, e.isRecoverable = false → E e s)
    (asked : s.terminated = false → s.state = .loggedOn →
      Ends (emit .logout (text.map (Field.ofText .text)).toList now) s
        (fun frame t => Q frame (t.enter .logoutSent now)) E) :
    Ends (logout text now) s Q E := by
  unfold logout
  simp only [ends_bind, ends_ensureOpen, ends_ensureState, ends_modify, ends_pure]
  exact ⟨fun hended => refused (fun hopen => absurd hopen (ne_false_of_eq_true hended)) _ rfl,
    fun hopen => ⟨fun hstate => refused (fun _ => hstate) _ rfl, asked hopen⟩⟩

end

end Session

end FixProtocol
