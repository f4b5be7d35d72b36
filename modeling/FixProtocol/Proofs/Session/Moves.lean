import FixProtocol.Proofs.Session.Ends

/-!
# What a session can do

Whatever a call is, it changes its session by a chain of small moves: a message is written, taken,
parked, a request is answered, and so on. Each kind of move is said once, with all that is known
when it is made, and every invariant of sessions follows from a look at each kind.

- `Session.Move`: one change, and what it adds to the reaction.
- `Session.Moves`: a chain of moves.
- `Session.Fault`: the change that a call may still make when it fails.
- `Session.Sound`: what is known of the messages that wait; every move keeps it.
-/

namespace FixProtocol

namespace Reaction

@[simp] theorem append_empty (r : Reaction) : r ++ empty = r := by
  obtain ⟨outbound, delivered, reported⟩ := r
  show (⟨outbound ++ [], delivered ++ [], reported ++ []⟩ : Reaction) = _
  simp only [List.append_nil]

theorem append_assoc (a b c : Reaction) : a ++ b ++ c = a ++ (b ++ c) := by
  show (⟨_ ++ _ ++ _, _ ++ _ ++ _, _ ++ _ ++ _⟩ : Reaction) = _
  simp only [List.append_assoc]
  rfl

end Reaction

/-- Does a session deal with messages of this type itself? All others are handed over. -/
def MsgType.isSessionLevel : MsgType → Bool
  | heartbeat | testRequest | resendRequest | sequenceReset | logout | logon => true
  | _ => false

/-! ## What timers find -/

/-- A monitor gives up, or asks for a test request and notes it, or finds that the other side is
heard in time, and then a heartbeat may be due. -/
theorem HeartbeatMonitor.poll_cases (m : HeartbeatMonitor) (now : Moment) :
    (∃ probe ∈ m.pending, m.grace ≤ now.elapsed - probe.2 ∧
        m.poll now = (some (.timedOut (now.elapsed - probe.2)), m)) ∨
      (m.pending = none ∧ m.interval ≤ now.elapsed - m.lastReceived ∧
        m.poll now = (some (.sendTestRequest now.testReqId),
          { m with pending := some (now.testReqId, now.elapsed), lastSent := now.elapsed })) ∨
      ((∃ probe ∈ m.pending, now.elapsed - probe.2 < m.grace) ∨
          m.pending = none ∧ now.elapsed - m.lastReceived < m.interval) ∧
        (m.interval ≤ now.elapsed - m.lastSent ∧ m.poll now = (some .sendHeartbeat, m) ∨
          now.elapsed - m.lastSent < m.interval ∧ m.poll now = (none, m)) := by
  have hdue (h : m.poll now = (m.heartbeatDue now.elapsed, m)) :
      m.interval ≤ now.elapsed - m.lastSent ∧ m.poll now = (some .sendHeartbeat, m) ∨
        now.elapsed - m.lastSent < m.interval ∧ m.poll now = (none, m) := by
    unfold heartbeatDue at h
    split at h
    · next hdue => exact .inl ⟨hdue, h⟩
    · next hearly => exact .inr ⟨Nat.not_le.mp hearly, h⟩
  rcases hpending : m.pending with _ | ⟨id, since⟩
  · by_cases hover : m.interval ≤ m.sinceReceived now.elapsed
    · refine .inr (.inl ⟨rfl, hover, ?_⟩)
      simp only [poll, hpending, if_pos hover]
    · refine .inr (.inr ⟨.inr ⟨rfl, Nat.not_le.mp hover⟩, hdue ?_⟩)
      simp only [poll, hpending, if_neg hover]
  · by_cases hover : m.grace ≤ now.elapsed - since
    · refine .inl ⟨(id, since), rfl, hover, ?_⟩
      simp only [poll, hpending, if_pos hover]
    · refine .inr (.inr ⟨.inl ⟨(id, since), rfl, Nat.not_le.mp hover⟩, hdue ?_⟩)
      simp only [poll, hpending, if_neg hover]

/-- A look at the open request finds nothing to do, gives up, or asks again for what is missing. -/
theorem GapRecovery.pollRetry_cases (r : GapRecovery) (now : Nat) (n : SeqNum)
    (timeout limit : Nat) :
    (r.pollRetry now n timeout limit = (none, r) ∧
        ∀ range ∈ r.pending, now - range.requestedAt < timeout) ∨
      (∃ range ∈ r.pending, timeout ≤ now - range.requestedAt ∧ limit ≤ range.attempts ∧
        r.pollRetry now n timeout limit =
          (some (.exhausted (.resendExhausted range.first range.last range.attempts)), r)) ∨
      ∃ range ∈ r.pending, timeout ≤ now - range.requestedAt ∧ range.attempts < limit ∧
        r.pollRetry now n timeout limit =
          (some (.reissue (max range.first n) range.last),
            { r with pending := some ⟨max range.first n, range.last, range.attempts + 1, now⟩ }) := by
  unfold pollRetry
  cases r.pending with
  | none => exact .inl ⟨rfl, fun range hrange => absurd hrange (Option.not_mem_none range)⟩
  | some range =>
    by_cases hearly : now - range.requestedAt < timeout
    · refine .inl ⟨if_pos hearly, fun range' hrange => ?_⟩
      rwa [← Option.mem_some_iff.mp hrange]
    · by_cases hspent : limit ≤ range.attempts
      · refine .inr (.inl ⟨range, rfl, Nat.not_lt.mp hearly, hspent, ?_⟩)
        simp only [if_neg hearly, if_pos hspent]
      · refine .inr (.inr ⟨range, rfl, Nat.not_lt.mp hearly, Nat.not_le.mp hspent, ?_⟩)
        simp only [if_neg hearly, if_neg hspent]

section
variable {r : GapRecovery} {now timeout limit : Nat} {n first last : SeqNum}

/-- If nothing is to be done, nothing changes. -/
theorem GapRecovery.eq_of_pollRetry_none (h : (r.pollRetry now n timeout limit).1 = none) :
    r.pollRetry now n timeout limit = (none, r) := by
  rcases r.pollRetry_cases now n timeout limit with
    ⟨heq, _⟩ | ⟨_, _, _, _, heq⟩ | ⟨_, _, _, _, heq⟩
  · exact heq
  · rw [heq] at h
    cases h
  · rw [heq] at h
    cases h

/-- What is asked for again is what is still missing of the open request. -/
theorem GapRecovery.eq_of_pollRetry_reissue
    (h : (r.pollRetry now n timeout limit).1 = some (.reissue first last)) :
    ∃ range ∈ r.pending, first = max range.first n ∧ last = range.last ∧
      (r.pollRetry now n timeout limit).2 =
        { r with pending := some ⟨first, last, range.attempts + 1, now⟩ } := by
  rcases r.pollRetry_cases now n timeout limit with
    ⟨heq, _⟩ | ⟨_, _, _, _, heq⟩ | ⟨range, hrange, _, _, heq⟩
  · rw [heq] at h
    cases h
  · rw [heq] at h
    cases h
  · rw [heq] at h ⊢
    cases h
    exact ⟨range, hrange, rfl, rfl, rfl⟩

/-- What is said when a request is given up. -/
theorem GapRecovery.eq_of_pollRetry_exhausted {e : SessionError}
    (h : (r.pollRetry now n timeout limit).1 = some (.exhausted e)) :
    ∃ range ∈ r.pending, e = .resendExhausted range.first range.last range.attempts := by
  rcases r.pollRetry_cases now n timeout limit with
    ⟨heq, _⟩ | ⟨range, hrange, _, _, heq⟩ | ⟨_, _, _, _, heq⟩
  · rw [heq] at h
    cases h
  · rw [heq] at h
    cases h
    exact ⟨range, hrange, rfl⟩
  · rw [heq] at h
    cases h

end

namespace Session

variable {σ : Type} [MessageStore σ]

/-- What may come to a session from outside: the frames that may arrive, and the types that the
application may send. -/
structure Inputs where
  frame : Bytes → Prop
  type : MsgType → Prop

/-- Anything may come. -/
def Inputs.any : Inputs :=
  ⟨fun _ => True, fun _ => True⟩

/-- What an operation brings is among the inputs. -/
def Operation.Within (I : Inputs) : Operation → Prop
  | .send type _ _ => I.type type
  | .receive frame _ => I.frame frame
  | _ => True

/-- The message of the counterparty under a number: its frame may arrive, reads as the message, and
passes the checks of both sides and of the number. -/
structure Genuine (I : Inputs) (c : SessionConfig) (n : SeqNum) (p : Parked) : Prop where
  frame : I.frame p.frame
  decoded : Message.decode c.beginString p.frame = .ok p.message
  sender : (p.message.text? .senderCompId).getD "" = c.target.text
  target : (p.message.text? .targetCompId).getD "" = c.sender.text
  numbered : p.message.seqNum? = some n
  valid : n.isValid = true

/-- The types and bodies of the messages that a session numbers, where the application may send the
types in `T`. -/
inductive Writes (T : MsgType → Prop) : MsgType → List Field → Prop
  | logon (seconds : Nat) :
      Writes T .logon [.ofNat .encryptMethod 0, .ofNat .heartBtInt seconds]
  | heartbeat (answer : Option Field) (h : ∀ f ∈ answer, f.tag = .testReqId) :
      Writes T .heartbeat answer.toList
  | testRequest (id : String) : Writes T .testRequest [.ofText .testReqId id]
  | resendRequest (first last : SeqNum) :
      Writes T .resendRequest [.ofSeqNum .beginSeqNo first, .ofSeqNum .endSeqNo last]
  | logout (text : Option String) : Writes T .logout (text.map (Field.ofText .text)).toList
  | application (type : MsgType) (fields : List Field) (h : T type)
      (hcheck : checkSend type fields = .ok ()) : Writes T type fields

/-- What a message in order hands over to the application. -/
def handedOver (m : Message) : List Message :=
  if m.msgType.isSessionLevel then [] else [m]

theorem handedOver_of_eq {m : Message} {type : MsgType} (h : m.msgType = type)
    (htype : type.isSessionLevel = true) : handedOver m = [] := by
  rw [handedOver, h, htype]
  rfl

theorem handedOver_of_not {m : Message} (h : m.msgType.isSessionLevel = false) :
    handedOver m = [m] := by
  rw [handedOver, h]
  rfl

/-- The session after it counted the number `n`. -/
def counted (s : Session σ) (n : SeqNum) : Session σ :=
  { s with sequences := { s.sequences with expectedIncoming := n + 1 } }

/-- The session after it numbered a message and the store kept it. -/
def written (s : Session σ) (store : σ) (now : Moment) : Session σ :=
  { s with
    store
    sequences := s.sequences.allocate
    heartbeat := s.heartbeat.onSent now.elapsed }

/-- One change of a session, and what it adds to the reaction. -/
inductive Move (I : Inputs) (s : Session σ) : Reaction → Session σ → Prop
  /-- The times of the last messages change, or the test request that waits. -/
  | clock (heartbeat : HeartbeatMonitor) : Move I s .empty { s with heartbeat }
  /-- A message is numbered, kept, and put out. -/
  | write {type : MsgType} {body : List Field} (now : Moment) {frame : Bytes} {store : σ}
      (hwrites : Writes I.type type body)
      (hencode : Wire.encode (s.header type s.sequences.nextOutgoing now.utc ++ body) = .ok frame)
      (hstore : MessageStore.append s.store .outbound s.sequences.nextOutgoing frame =
        (.ok (), store)) :
      Move I s (.ofFrame frame) (s.written store now)
  /-- A range of messages is sent again. -/
  | serve {first last : SeqNum} (now : Moment) {stored : List (SeqNum × Bytes)} {store : σ}
      {frames : List Bytes} (hfirst : .first ≤ first) (hle : first ≤ last)
      (hlast : last ≤ s.sequences.nextOutgoing.previous)
      (hrange : MessageStore.range s.store .outbound first last = (.ok stored, store))
      (hframes : ((Resend.plan last first (stored.map fun e =>
          (e.1, Resend.resendable? s.config.beginString e.2))).mapM
            fun item => (s.resendMessage now.utc item).encode) = .ok frames) :
      Move I s ⟨frames, [], []⟩ { s with store, heartbeat := s.heartbeat.onSent now.elapsed }
  /-- The message with the expected number is counted, kept, and handed over. -/
  | take {n : SeqNum} {p : Parked} {store : σ} (hp : Genuine I s.config n p)
      (hn : n = s.sequences.expectedIncoming)
      (hstore : MessageStore.append s.store .inbound n p.frame = (.ok (), store)) :
      Move I s ⟨[], handedOver p.message, []⟩ { s.counted n with store }
  /-- A logon with the expected number is counted. -/
  | countLogon {n : SeqNum} {p : Parked} (hp : Genuine I s.config n p)
      (htype : p.message.msgType = .logon) (hn : n = s.sequences.expectedIncoming) :
      Move I s .empty (s.counted n)
  /-- A logon that was counted is kept. -/
  | keepLogon {n : SeqNum} {p : Parked} {store : σ} (hp : Genuine I s.config n p)
      (htype : p.message.msgType = .logon) (hn : n + 1 = s.sequences.expectedIncoming)
      (hstore : MessageStore.append s.store .inbound n p.frame = (.ok (), store)) :
      Move I s .empty { s with store }
  /-- A sequence reset moves the expected number on. A gap fill does so after it was taken. -/
  | advance {n number : SeqNum} {p : Parked} (hp : Genuine I s.config n p)
      (htype : p.message.msgType = .sequenceReset)
      (hnumber : p.message.nat64? .newSeqNo = some number)
      (hplain : isPlainReset p.message = true ∨ n + 1 = s.sequences.expectedIncoming)
      (hle : s.sequences.expectedIncoming ≤ number) :
      Move I s .empty
        { s with
          sequences := { s.sequences with expectedIncoming := number }
          store := MessageStore.setNextSeq s.store .inbound number }
  /-- A message from behind a gap is parked. -/
  | park {n : SeqNum} {p : Parked} {recovery : GapRecovery} (hp : Genuine I s.config n p)
      (hlt : s.sequences.expectedIncoming < n) (hpark : s.recovery.park n p = .ok recovery) :
      Move I s .empty { s with recovery }
  /-- The parked message with the expected number is no longer parked, nor are older ones. -/
  | release :
      Move I s .empty
        { s with recovery := (s.recovery.takeReady s.sequences.expectedIncoming).2 }
  /-- A resend request was made. -/
  | start (first last : SeqNum) (now : Moment) (hle : first ≤ last) :
      Move I s ⟨[], [], [⟨.sequence (.gap first (last + 1)), .resendRequest first last⟩]⟩
        { s with recovery := s.recovery.start first last now.elapsed }
  /-- A resend request was fulfilled. -/
  | close :
      Move I s .empty
        { s with recovery := (s.recovery.onAdvanced s.sequences.expectedIncoming).2 }
  /-- A resend request is repeated if its time is up. -/
  | retry (now : Moment) :
      Move I s .empty
        { s with
          recovery := (s.recovery.pollRetry now.elapsed s.sequences.expectedIncoming
            s.config.resendTimeout s.config.resendRetryLimit).2 }
  /-- A message with a number below the expected one is reported. -/
  | duplicate {n : SeqNum} (hlt : n < s.sequences.expectedIncoming) :
      Move I s (.ofReport ⟨.sequence (.duplicate s.sequences.expectedIncoming n), .ignore⟩) s
  /-- A state is entered. A terminated session stays where it is. -/
  | enter {state : SessionState} (now : Moment) (hopen : s.terminated = false)
      (hstate : s.state.canBecome state = true) : Move I s .empty (s.enter state now)
  /-- The session ends. -/
  | terminate (now : Moment) : Move I s .empty (s.terminate now)

/-- A chain of moves, and what they add to the reaction together. -/
inductive Moves (I : Inputs) : Session σ → Reaction → Session σ → Prop
  | refl (s : Session σ) : Moves I s .empty s
  | cons {s t u : Session σ} {r r' : Reaction} (head : Move I s r t) (tail : Moves I t r' u) :
      Moves I s (r ++ r') u

/-- What a message that cannot be sent still changes: the store may have changed by refusing it. -/
inductive Refusal (s : Session σ) : Error → Session σ → Prop
  | idle (e : Error) (h : e.isRecoverable = false) : Refusal s e s
  | unkept {n : SeqNum} {frame : Bytes} {e : StoreError} {store : σ}
      (h : MessageStore.append s.store .outbound n frame = (.error e, store)) :
      Refusal s (.store e) { s with store }

/-- What a call still changes when it fails. -/
inductive Fault (I : Inputs) (s : Session σ) : Error → Session σ → Prop
  | refusal {e : Error} {t : Session σ} (h : Refusal s e t) : Fault I s e t
  /-- The range of messages to send again cannot be read. -/
  | unread {first last : SeqNum} {e : StoreError} {store : σ}
      (h : MessageStore.range s.store .outbound first last = (.error e, store)) :
      Fault I s (.store e) { s with store }
  /-- The messages to send again are read and cannot be written. -/
  | unwritten {first last : SeqNum} {stored : List (SeqNum × Bytes)} {e : EncodeError} {store : σ}
      (h : MessageStore.range s.store .outbound first last = (.ok stored, store)) :
      Fault I s (.encode e) { s with store }
  /-- A logon that was counted is not kept. -/
  | unkeptLogon {n : SeqNum} {p : Parked} {e : StoreError} {store : σ}
      (hp : Genuine I s.config n p) (htype : p.message.msgType = .logon)
      (hn : n + 1 = s.sequences.expectedIncoming)
      (h : MessageStore.append s.store .inbound n p.frame = (.error e, store)) :
      Fault I s (.store e) { s with store }
  /-- A message is counted and not kept. -/
  | missed {n : SeqNum} {p : Parked} {e : StoreError} {store : σ} (hp : Genuine I s.config n p)
      (hn : n = s.sequences.expectedIncoming)
      (h : MessageStore.append s.store .inbound n p.frame = (.error e, store)) :
      Fault I s (.store e) { s.counted n with store }

/-- A call that fails has made some moves and at most one change more. -/
def Fails (I : Inputs) (s : Session σ) (e : Error) (t : Session σ) : Prop :=
  ∃ r u, Moves I s r u ∧ Fault I u e t

/-- Every parked message is one of the counterparty, under its number. -/
def Sound (I : Inputs) (s : Session σ) : Prop :=
  ∀ e ∈ s.recovery.parked, Genuine I s.config e.1 e.2

variable {I : Inputs} {s t u : Session σ} {r r' : Reaction}

/-! ## Chains -/

theorem Move.single (h : Move I s r t) : Moves I s r t := by
  have := Moves.cons h (.refl t)
  rwa [Reaction.append_empty] at this

theorem Moves.trans (h : Moves I s r t) (h' : Moves I t r' u) : Moves I s (r ++ r') u := by
  induction h with
  | refl => exact h'
  | cons head _ ih =>
    rw [Reaction.append_assoc]
    exact .cons head (ih h')

/-- A chain goes on with a move. -/
theorem Moves.snoc (h : Moves I s r t) (h' : Move I t r' u) : Moves I s (r ++ r') u :=
  h.trans h'.single

/-- A chain goes on with a move that adds nothing to the reaction. -/
theorem Moves.silent (h : Moves I s r t) (h' : Move I t .empty u) : Moves I s r u := by
  have := h.snoc h'
  rwa [Reaction.append_empty] at this

theorem Fault.fails {e : Error} (h : Fault I s e t) : Fails I s e t :=
  ⟨.empty, s, .refl s, h⟩

theorem Refusal.fails {e : Error} (h : Refusal s e t) : Fails I s e t :=
  Fault.fails (.refusal h)

/-- What fails after some moves has failed. -/
theorem Moves.fails {e : Error} (h : Moves I s r t) (h' : Fails I t e u) : Fails I s e u := by
  obtain ⟨r', v, hmoves, hfault⟩ := h'
  exact ⟨r ++ r', v, h.trans hmoves, hfault⟩

theorem Fails.idle {e : Error} (h : e.isRecoverable = false) : Fails I s e s :=
  (Refusal.idle e h).fails

/-- No move changes the settings. -/
theorem Move.config_eq (h : Move I s r t) : t.config = s.config := by
  cases h <;> rfl

theorem Moves.config_eq (h : Moves I s r t) : t.config = s.config := by
  induction h with
  | refl => rfl
  | cons head _ ih => rw [ih, head.config_eq]

theorem Refusal.config_eq {e : Error} (h : Refusal s e t) : t.config = s.config := by
  cases h <;> rfl

theorem Fault.config_eq {e : Error} (h : Fault I s e t) : t.config = s.config := by
  cases h with
  | refusal h => exact h.config_eq
  | _ => rfl

/-! ## What waits -/

theorem mem_of_mem_insertAscending {n : SeqNum} {p : Parked} {ps : List (SeqNum × Parked)}
    {e : SeqNum × Parked} (h : e ∈ GapRecovery.insertAscending n p ps) : e = (n, p) ∨ e ∈ ps := by
  induction ps with
  | nil => exact .inl (List.mem_singleton.mp h)
  | cons q qs ih =>
    unfold GapRecovery.insertAscending at h
    split at h
    · exact List.mem_cons.mp h
    · split at h
      · rcases List.mem_cons.mp h with h | h
        · exact .inl h
        · exact .inr (List.mem_cons_of_mem _ h)
      · rcases List.mem_cons.mp h with rfl | h
        · exact .inr (List.mem_cons_self ..)
        · rcases ih h with h | h
          · exact .inl h
          · exact .inr (List.mem_cons_of_mem _ h)

theorem mem_of_mem_park {g g' : GapRecovery} {n : SeqNum} {p : Parked} {e : SeqNum × Parked}
    (h : g.park n p = .ok g') (he : e ∈ g'.parked) : e = (n, p) ∨ e ∈ g.parked := by
  obtain ⟨-, hparked, -⟩ := GapRecovery.park_eq_ok_iff.mp h
  exact mem_of_mem_insertAscending (hparked ▸ he)

theorem parked_onAdvanced (g : GapRecovery) (n : SeqNum) :
    (g.onAdvanced n).2.parked = g.parked := by
  unfold GapRecovery.onAdvanced
  split
  · split <;> rfl
  · rfl

theorem parked_pollRetry (g : GapRecovery) (now : Nat) (n : SeqNum) (timeout limit : Nat) :
    (g.pollRetry now n timeout limit).2.parked = g.parked := by
  rcases g.pollRetry_cases now n timeout limit with
    ⟨heq, _⟩ | ⟨_, _, _, _, heq⟩ | ⟨_, _, _, _, heq⟩
  all_goals rw [heq]

/-- Everything that waits after a move waited before, unless it was just parked. -/
theorem Move.mem_parked (h : Move I s r t) {e : SeqNum × Parked} (he : e ∈ t.recovery.parked) :
    e ∈ s.recovery.parked ∨ Genuine I s.config e.1 e.2 := by
  cases h with
  | park hp _ hpark =>
    rcases mem_of_mem_park hpark he with rfl | he
    · exact .inr hp
    · exact .inl he
  | release => exact .inl ((List.dropWhile_sublist _).mem he)
  | close => exact .inl (parked_onAdvanced .. ▸ he)
  | retry => exact .inl (parked_pollRetry .. ▸ he)
  | terminate => cases he
  | _ => exact .inl he

theorem Sound.move (hs : Sound I s) (h : Move I s r t) : Sound I t := by
  intro e he
  rw [h.config_eq]
  rcases h.mem_parked he with he | he
  · exact hs e he
  · exact he

theorem Sound.moves (hs : Sound I s) (h : Moves I s r t) : Sound I t := by
  induction h with
  | refl => exact hs
  | cons head _ ih => exact ih (hs.move head)

omit [MessageStore σ] in
theorem Sound.of_recovery_eq (hs : Sound I s) (hconfig : t.config = s.config)
    (hrecovery : t.recovery = s.recovery) : Sound I t := by
  unfold Sound
  rw [hconfig, hrecovery]
  exact hs

omit [MessageStore σ] in
/-- What is found under a number is of the counterparty. -/
theorem Sound.find? (hs : Sound I s) {n : SeqNum} {p : Parked} (h : s.recovery.find? n = some p) :
    Genuine I s.config n p := by
  obtain ⟨l, r, hl, -⟩ := List.lookup_eq_some_iff.mp h
  exact hs (n, p) (hl ▸ List.mem_append_right l (List.mem_cons_self ..))

end Session

end FixProtocol
