import FixProtocol.Proofs.Session.Deadlines
import FixProtocol.Proofs.Session.Tiling

/-!
# What a call does to the clocks

A session notes when it entered its state, last sent and received, and when it asked for an answer
or for what is missing. What a call writes down there agrees with the frames that it puts out: it
notes the time of the call if it has sent something of the kind, and else leaves the note as it was.

- `Wire.isOf`, `Wire.among`: is a frame of a type, is one among the frames?
- `Clocked`: what a call within a state leaves in the clocks.
- `Timely`: a call puts out no test request, and ends the session or leaves the clocks so.
- `Greeted`: what the logon of the counterparty leaves in the clocks.
- `ends_reset_timely`, `ends_onNumbered_timely`, `ends_onLogonPhase_greeted`, `ends_tick_clocked`:
  what frames and timer calls do.
-/

namespace FixProtocol

namespace Wire

/-- Does this frame hold a message of this type? -/
def isOf (type : MsgType) (frame : Bytes) : Bool :=
  (contents? frame).any fun m => m.msgType = type

/-- Is a message of this type among the frames? -/
def among (type : MsgType) (frames : List Bytes) : Bool :=
  frames.any (isOf type)

theorem among_append (type : MsgType) (frames more : List Bytes) :
    among type (frames ++ more) = (among type frames || among type more) :=
  List.any_append

theorem among_eq_false {type : MsgType} {frames : List Bytes}
    (h : ∀ frame ∈ frames, ∃ m, contents? frame = some m ∧ m.msgType ≠ type) :
    among type frames = false := by
  refine List.any_eq_false.mpr fun frame hframe => ?_
  obtain ⟨m, hm, htype⟩ := h frame hframe
  rw [isOf, hm]
  exact fun heq => htype (of_decide_eq_true heq)

theorem countP_of_among {type : MsgType} {frames : List Bytes} (h : among type frames = false) :
    frames.countP (isOf type) = 0 :=
  List.countP_eq_zero.mpr (List.any_eq_false.mp h)

end Wire

/-! ## Answers to a resend request -/

namespace Resend

variable {last next : SeqNum} {stored : List (SeqNum × Option Message)}

/-- Only what is stored and can be sent again is sent again. The induction is on what is stored. -/
theorem mem_of_again_mem_plan {n : SeqNum} {m : Message} (h : .again n m ∈ plan last next stored) :
    (n, some m) ∈ stored := by
  induction stored generalizing next with
  | nil =>
    have hfill := (mem_fillUpTo h).1
    cases hfill
  | cons e stored ih =>
    obtain ⟨number, o⟩ := e
    cases o with
    | none => exact List.mem_cons_of_mem _ (ih h)
    | some message =>
      rcases List.mem_append.mp h with h | h
      · have hfill := (mem_fillUpTo h).1
        cases hfill
      · rcases List.mem_cons.mp h with h | h
        · cases h
          exact List.mem_cons_self
        · exact List.mem_cons_of_mem _ (ih h)

/-- A request for at least one number has an answer. -/
theorem plan_ne_nil (hle : next ≤ last) (hlast : last < .top) : plan last next stored ≠ [] := by
  induction stored with
  | nil =>
    have hsucc : (last + 1).toNat = last.toNat + 1 := SeqNum.toNat_succ (UInt64.ne_of_lt hlast)
    have hlt : next < last + 1 := by
      rw [UInt64.lt_iff_toNat_lt, hsucc]
      exact Nat.lt_succ_of_le (UInt64.le_iff_toNat_le.mp hle)
    unfold plan fillUpTo
    rw [if_pos hlt]
    exact List.cons_ne_nil _ _
  | cons e stored ih =>
    obtain ⟨number, o⟩ := e
    cases o with
    | none => exact ih
    | some m => exact List.append_ne_nil_of_right_ne_nil _ (List.cons_ne_nil _ _)

end Resend

theorem ne_nil_of_mapM {ε α β : Type} {f : α → Except ε β} {xs : List α} {ys : List β}
    (h : xs.mapM f = .ok ys) (hxs : xs ≠ []) : ys ≠ [] := by
  cases xs with
  | nil => exact absurd rfl hxs
  | cons x xs =>
    rw [List.mapM_cons] at h
    obtain ⟨b, _, h⟩ := exists_of_bind_eq_ok h
    obtain ⟨bs, _, h⟩ := exists_of_bind_eq_ok h
    cases h
    exact List.cons_ne_nil _ _

namespace HeartbeatMonitor

variable {m : HeartbeatMonitor} {now : Moment}

/-- A heartbeat ends the wait of a test request, or changes nothing. -/
theorem onHeartbeat_cases (m : HeartbeatMonitor) (id : Option String) :
    m.onHeartbeat id = m ∨ m.onHeartbeat id = { m with pending := none } := by
  unfold onHeartbeat
  split
  · exact .inr rfl
  · exact .inl rfl

/-- A poll changes the monitor only to ask for a test request. -/
theorem snd_poll_of_ne (h : ∀ id, (m.poll now).1 ≠ some (.sendTestRequest id)) :
    (m.poll now).2 = m := by
  rcases m.poll_cases now with ⟨_, _, _, heq⟩ | ⟨_, _, heq⟩ | ⟨_, ⟨_, heq⟩ | ⟨_, heq⟩⟩
  · rw [heq]
  · rw [heq] at h
    exact absurd rfl (h _)
  · rw [heq]
  · rw [heq]

end HeartbeatMonitor

namespace Session

open Call

variable {σ : Type} {s t u : Session σ} {now : Moment}

/-- When the test request was made that waits. -/
def probedAt (s : Session σ) : Option Nat :=
  s.heartbeat.pending.map Prod.snd

/-- When the open resend request was made. -/
def askedAt (s : Session σ) : Option Nat :=
  s.recovery.pending.map ResendRange.requestedAt

/-- What was noted before is still noted at most; if something was sent, it is noted when. -/
def Dated (now : Nat) (sent : Bool) (before after : Option Nat) : Prop :=
  ∀ time ∈ after, if sent then time = now else time ∈ before

theorem Dated.same (now : Nat) (time : Option Nat) : Dated now false time time :=
  fun _ h => h

theorem Dated.none (now : Nat) (sent : Bool) (time : Option Nat) :
    Dated now sent time Option.none :=
  fun _ h => absurd h (Option.not_mem_none _)

theorem Dated.trans {now : Nat} {sent sent' : Bool} {a b c : Option Nat} (h : Dated now sent a b)
    (h' : Dated now sent' b c) : Dated now (sent || sent') a c := by
  intro time htime
  have hlast := h' time htime
  cases sent' with
  | true =>
    rw [Bool.or_true]
    exact hlast
  | false =>
    rw [Bool.or_false]
    exact h time hlast

/-- What a call at `now` that puts out `frames` leaves in the clocks, if the session goes on in its
state. -/
structure Clocked (now : Moment) (s : Session σ) (frames : List Bytes) (t : Session σ) : Prop
    extends Remains s t where
  since : t.since = s.since
  interval : t.heartbeat.interval = s.heartbeat.interval
  grace : t.heartbeat.grace = s.heartbeat.grace
  received : t.heartbeat.lastReceived = s.heartbeat.lastReceived
  sent : t.heartbeat.lastSent = if frames = [] then s.heartbeat.lastSent else now.elapsed
  probed : Dated now.elapsed (Wire.among .testRequest frames) s.probedAt t.probedAt
  asked : Dated now.elapsed (Wire.among .resendRequest frames) s.askedAt t.askedAt

theorem Clocked.refl (now : Moment) (s : Session σ) : Clocked now s [] s :=
  ⟨.refl s, rfl, rfl, rfl, rfl, rfl, .same _ _, .same _ _⟩

theorem Clocked.trans {frames more : List Bytes} (h : Clocked now s frames t)
    (h' : Clocked now t more u) : Clocked now s (frames ++ more) u where
  toRemains := h.toRemains.trans h'.toRemains
  since := h'.since.trans h.since
  interval := h'.interval.trans h.interval
  grace := h'.grace.trans h.grace
  received := h'.received.trans h.received
  sent := by
    rw [h'.sent, h.sent]
    by_cases hmore : more = []
    · rw [if_pos hmore, hmore, List.append_nil]
    · rw [if_neg hmore, if_neg fun happend => hmore (List.append_eq_nil_iff.mp happend).2]
  probed := by
    rw [Wire.among_append]
    exact h.probed.trans h'.probed
  asked := by
    rw [Wire.among_append]
    exact h.asked.trans h'.asked

/-- What a call does that answers a message: it puts out no test request, and it ends the session or
leaves the clocks as its frames say. -/
def Timely (now : Moment) (s : Session σ) (r : Reaction) (t : Session σ) : Prop :=
  Wire.among .testRequest r.outbound = false ∧ (HasEnded t ∨ Clocked now s r.outbound t)

theorem Clocked.timely (h : Clocked now s [] t) : Timely now s .empty t :=
  ⟨rfl, .inr h⟩

theorem Timely.clocked {r : Reaction} (h : Timely now s r t) (hopen : t.terminated = false) :
    Clocked now s r.outbound t := by
  refine h.2.resolve_left fun hended => ?_
  rw [hended.terminated] at hopen
  cases hopen

theorem Timely.after {r r' : Reaction} (h' : Timely now t r' u) (h : Clocked now s r.outbound t)
    (hquiet : Wire.among .testRequest r.outbound = false) : Timely now s (r ++ r') u := by
  refine ⟨?_, ?_⟩
  · rw [Reaction.outbound_append, Wire.among_append, hquiet, h'.1]
    rfl
  · rcases h'.2 with hended | hclocked
    · exact .inl hended
    · exact .inr (h.trans hclocked)

theorem Timely.afterSilent {r : Reaction} (h' : Timely now t r u) (h : Clocked now s [] t) :
    Timely now s r u :=
  ⟨h'.1, h'.2.imp_right fun h' => h.trans h'⟩

/-- Neither the numbering nor the store is any of the clocks' business. -/
theorem Timely.of_numbering {sequences : SequenceTracker} {store : σ} {r : Reaction}
    (h : Timely now { s with sequences, store } r t) : Timely now s r t :=
  ⟨h.1, h.2.imp_right fun h => { h with }⟩

variable [MessageStore σ] {type : MsgType} {body : List Field} {frame : Bytes}

/-! ## Writing -/

/-- What was written has the type that its code says. -/
theorem Emits.among (h : Emits s type body now frame t) (sought : MsgType) :
    Wire.among sought [frame] = decide (MsgType.ofCode type.code = sought) := by
  show (((Wire.contents? frame).any fun m => decide (m.msgType = sought)) || false) = _
  rw [h.carries.contents, Bool.or_false]
  show decide (Message.msgType _ = sought) = _
  rw [msgType_header]

/-- A message that is neither a test request nor a resend request leaves a note of its time. -/
theorem Emits.clocked (h : Emits s type body now frame t)
    (hprobe : MsgType.ofCode type.code ≠ .testRequest)
    (hrequest : MsgType.ofCode type.code ≠ .resendRequest) : Clocked now s [frame] t := by
  have hprobed := h.among .testRequest
  have hasked := h.among .resendRequest
  rw [decide_eq_false hprobe] at hprobed
  rw [decide_eq_false hrequest] at hasked
  obtain ⟨_, _, rfl⟩ := h.kept
  refine ⟨⟨rfl, rfl, rfl⟩, rfl, rfl, rfl, rfl, rfl, ?_, ?_⟩
  · rw [hprobed]
    exact .same _ _
  · rw [hasked]
    exact .same _ _

theorem Emits.timely (h : Emits s type body now frame t)
    (hprobe : MsgType.ofCode type.code ≠ .testRequest)
    (hrequest : MsgType.ofCode type.code ≠ .resendRequest) : Timely now s (.ofFrame frame) t :=
  ⟨(h.among _).trans (decide_eq_false hprobe), .inr (h.clocked hprobe hrequest)⟩

/-- A resend request leaves a note of its time, whatever was noted there before. -/
theorem Emits.clocked_request {before after : GapRecovery}
    (h : Emits { s with recovery := before } .resendRequest body now frame t)
    (hasked : ∀ range ∈ after.pending, range.requestedAt = now.elapsed) :
    Clocked now s [frame] { t with recovery := after } := by
  have hprobe := h.among .testRequest
  have hrequest := h.among .resendRequest
  obtain ⟨_, _, rfl⟩ := h.kept
  refine ⟨⟨rfl, rfl, rfl⟩, rfl, rfl, rfl, rfl, rfl, ?_, ?_⟩
  · rw [hprobe]
    exact .same _ _
  · rw [hrequest]
    intro time htime
    obtain ⟨range, hrange, rfl⟩ := Option.map_eq_some_iff.mp htime
    exact hasked range hrange

theorem ends_requestResend_clocked (first last : SeqNum) (now : Moment) :
    Ends (requestResend first last now) s
      (fun r t => Wire.among .testRequest r.outbound = false ∧ Clocked now s r.outbound t)
      Anyhow := by
  refine ends_requestResend.mpr (ends_emit_of_emits fun frame t hemits => ?_)
  refine ⟨hemits.among .testRequest, hemits.clocked_request ?_⟩
  rintro range ⟨⟩
  rfl

theorem ends_requestResend_timely (first last : SeqNum) (now : Moment) :
    Ends (requestResend first last now) s (Timely now s) Anyhow :=
  (ends_requestResend_clocked first last now).imp fun _ _ h => ⟨h.1, .inr h.2⟩

/-! ## Messages in order -/

omit [MessageStore σ] in
/-- An answer to a resend request is a message of the application or a sequence reset. -/
theorem among_of_sends {first last : SeqNum} {stored : List (SeqNum × Bytes)} {frames : List Bytes}
    (h : ((Resend.plan last first (stored.map fun e =>
        (e.1, Resend.resendable? s.config.beginString e.2))).mapM
      fun item => (s.resendMessage now.utc item).encode) = .ok frames)
    (happ : type.isApp = false) (hreset : type ≠ .sequenceReset) :
    Wire.among type frames = false := by
  refine Wire.among_eq_false fun frame hframe => ?_
  obtain ⟨item, hitem, hencode⟩ := exists_of_mem_mapM h hframe
  refine ⟨s.resendMessage now.utc item, ?_⟩
  cases item with
  | again n m =>
    obtain ⟨e, _, he⟩ := List.mem_map.mp (Resend.mem_of_again_mem_plan hitem)
    have hm : Resend.resendable? s.config.beginString e.2 = some m := congrArg Prod.snd he
    refine ⟨(carries_duplicate hm hencode).contents, fun htype => ?_⟩
    rw [resendMessage, Resend.msgType_duplicate] at htype
    rw [← htype, (Resend.resendable?_eq_some_iff.mp hm).2] at happ
    cases happ
  | fill a b =>
    refine ⟨(Wire.carries_of_encode hencode).contents, fun htype => hreset ?_⟩
    rw [← htype]
    exact msgType_gapFill

theorem Serves.timely {r : Reaction} (h : Serves now s r t) : Timely now s r t := by
  cases h with
  | nothing => exact (Clocked.refl now s).timely
  | @again _ _ _ _ frames _ hle hlast _ hframes =>
    have hsome : frames ≠ [] := ne_nil_of_mapM hframes
      (Resend.plan_ne_nil hle (SeqNum.lt_top_of_ne (SeqNum.ne_top_of_le_previous hlast)))
    have hprobed : Wire.among .testRequest frames = false :=
      among_of_sends hframes rfl (by decide)
    have hasked : Wire.among .resendRequest frames = false :=
      among_of_sends hframes rfl (by decide)
    refine ⟨hprobed, .inr ⟨⟨rfl, rfl, rfl⟩, rfl, rfl, rfl, rfl, (if_neg hsome).symm, ?_, ?_⟩⟩
    · rw [hprobed]
      exact .same _ _
    · rw [hasked]
      exact .same _ _

theorem ends_applySequenceReset_clocked (m : Message) (now : Moment) :
    Ends (applySequenceReset m) s (fun _ t => Clocked now s [] t) Anyhow :=
  ends_applySequenceReset (fun _ => trivial) (fun _ _ _ => trivial) fun _ _ _ =>
    ⟨⟨rfl, rfl, rfl⟩, rfl, rfl, rfl, rfl, rfl, .same _ _, .same _ _⟩

theorem ends_onLogout_timely (now : Moment) :
    Ends (onLogout now) s (Timely now s) Anyhow :=
  ends_onLogout (fun _ => ⟨rfl, .inl (hasEnded_terminate s now)⟩) fun _ =>
    ends_emit_of_emits fun _ t hemits =>
      ⟨hemits.among .testRequest, .inl (hasEnded_terminate t now)⟩

omit [MessageStore σ] in
/-- A heartbeat may answer the test request that waits. -/
theorem clocked_onHeartbeat (s : Session σ) (id : Option String) (now : Moment) :
    Clocked now s [] { s with heartbeat := s.heartbeat.onHeartbeat id } := by
  rcases s.heartbeat.onHeartbeat_cases id with heq | heq
  · rw [heq]
    exact .refl now s
  · rw [heq]
    exact ⟨⟨rfl, rfl, rfl⟩, rfl, rfl, rfl, rfl, rfl, .none _ _ _, .same _ _⟩

theorem ends_dispatch_timely (m : Message) (replaying : Bool) (now : Moment) :
    Ends (dispatch m replaying now) s (Timely now s) Anyhow := by
  refine ends_dispatch ?heartbeat ?testRequest ?resendRequest ?sequenceReset ?logout ?logon
    ?application
  case heartbeat => exact fun _ => (clocked_onHeartbeat s _ now).timely
  case testRequest =>
    exact fun _ => ends_emit_of_emits fun _ _ h => h.timely (by decide) (by decide)
  case resendRequest => exact fun _ => (ends_serveResend_serves m now).anyhow fun _ _ h => h.timely
  case sequenceReset =>
    exact fun _ => (ends_applySequenceReset_clocked m now).imp fun _ _ h => h.timely
  case logout => exact fun _ => ends_onLogout_timely now
  case logon => exact fun _ => ⟨fun _ => (Clocked.refl now s).timely, fun _ => trivial⟩
  case application => exact fun _ => ⟨rfl, .inr (.refl now s)⟩

theorem ends_accept_timely (n : SeqNum) (p : Parked) (replaying : Bool) (now : Moment) :
    Ends (accept n p replaying now) s (Timely now s) Anyhow :=
  ends_accept (fun _ _ => (ends_dispatch_timely p.message replaying now).imp
    fun _ _ h => h.of_numbering) (fun _ _ _ => trivial)

/-! ## Messages from behind a gap -/

omit [MessageStore σ] in
/-- The waiting messages are none of the clocks' business. -/
theorem clocked_recovery {recovery : GapRecovery} (now : Moment)
    (h : ∀ range ∈ recovery.pending, range ∈ s.recovery.pending) :
    Clocked now s [] { s with recovery } := by
  refine ⟨⟨rfl, rfl, rfl⟩, rfl, rfl, rfl, rfl, rfl, .same _ _, ?_⟩
  intro time htime
  obtain ⟨range, hrange, rfl⟩ := Option.map_eq_some_iff.mp htime
  exact Option.mem_map_of_mem _ (h range hrange)

omit [MessageStore σ] in
theorem clocked_park {recovery : GapRecovery} {n : SeqNum} {p : Parked}
    (h : s.recovery.park n p = .ok recovery) (now : Moment) :
    Clocked now s [] { s with recovery } := by
  refine clocked_recovery now ?_
  rw [GapRecovery.pending_park h]
  exact fun _ h => h

theorem ends_replay_timely (now : Moment) (count : Nat) :
    Ends (replay now count) s (Timely now s) Anyhow := by
  have hreleased {r : Reaction} {t : Session σ} (hopen : t.terminated = false)
      (h : Timely now s r t) : Clocked now s r.outbound t.released := by
    have hreleased : Clocked now t [] t.released := clocked_recovery now fun _ h => h
    have hclocked := (h.clocked hopen).trans hreleased
    rwa [List.append_nil] at hclocked
  refine ends_replay_keeps (P := Timely now s) (fun hopen h => ⟨h.1, .inr (hreleased hopen h)⟩)
    (fun hopen h _ => ends_observe_iff.mpr ?_) (Clocked.refl now s).timely count
  exact (ends_accept_timely ..).imp fun _ _ htaken =>
    htaken.of_numbering.after (hreleased hopen h) h.1

theorem ends_closeGap_timely (now : Moment) : Ends (closeGap now) s (Timely now s) Anyhow := by
  have hclosed : Clocked now s [] s.advanced :=
    clocked_recovery now fun _ h => (GapRecovery.mem_pending_onAdvanced h).1
  exact ends_closeGap (fun _ => hclosed.timely) fun _ _ _ _ =>
    (ends_requestResend_timely ..).imp fun _ _ h => h.afterSilent hclosed

theorem ends_drain_timely (now : Moment) : Ends (drain now) s (Timely now s) Anyhow :=
  ends_drain_keeps (ends_replay_timely now _) fun hopen h =>
    (ends_closeGap_timely now).imp fun _ _ h' => h'.after (h.clocked hopen) h.1

/-- After what was taken, what waits is taken, unless the session has ended. -/
theorem Timely.drain {taken : Reaction} (h : Timely now s taken t) :
    Ends (drain now) t (fun more u => Timely now s (taken ++ more) u) Anyhow := by
  obtain ⟨hquiet, hended | hclocked⟩ := h
  · refine (ends_drain_of_ended hended.terminated now).imp ?_
    rintro _ _ ⟨rfl, rfl⟩
    rw [Reaction.append_empty]
    exact ⟨hquiet, .inl hended⟩
  · exact (ends_drain_timely now).imp fun _ _ h => h.after hclocked hquiet

/-! ## Frames -/

theorem ends_onNumbered_timely {n : SeqNum} (hn : n.isValid = true) (p : Parked) (now : Moment) :
    Ends (onNumbered n p now) s (Timely now s) Anyhow := by
  refine ends_onNumbered hn (fun _ => ⟨rfl, .inr (.refl now s)⟩) (fun _ => ?_)
    (fun _ recovery hpark => ?_) (fun _ _ _ => trivial)
  · refine (ends_accept_timely ..).imp fun taken t htaken => ?_
    have htaken : Timely now s taken t := htaken.of_numbering
    exact htaken.drain
  · have hparked := clocked_park hpark now
    exact ⟨fun _ => hparked.timely, fun _ =>
      (ends_requestResend_timely ..).imp fun _ _ h => h.afterSilent hparked⟩

/-- What a plain reset does to a session that exchanges messages. -/
theorem ends_reset_timely (m : Message) (now : Moment) :
    Ends (applySequenceReset m) s
      (fun _ t => Ends (drain now) t (fun r u => Timely now s r u) Anyhow) Anyhow :=
  (ends_applySequenceReset_clocked m now).imp fun _ _ hreset =>
    (ends_drain_timely now).imp fun _ _ h => h.afterSilent hreset

/-! ## Logging on -/

/-- The interval that a side takes from a logon is not zero. -/
theorem Agrees.pos {c : SessionConfig} {seconds : Nat} (h : Agrees c seconds)
    (hvalid : c.validate = .ok ()) : 0 < seconds := by
  have hours := (SessionConfig.validate_eq_ok_iff.mp hvalid).2.2.1.1
  unfold Agrees at h
  split at h
  · rw [h]
    exact hours
  · exact h.1

/-- What the logon of the counterparty leaves in the clocks: all start anew. -/
structure Greeted (now : Moment) (s : Session σ) (frames : List Bytes) (t : Session σ) : Prop where
  config : t.config = s.config
  terminated : t.terminated = s.terminated
  state : t.state = .loggedOn
  since : t.since = now.elapsed
  interval : 0 < t.heartbeat.interval
  grace : t.heartbeat.grace = s.heartbeat.grace
  received : t.heartbeat.lastReceived = now.elapsed
  sent : t.heartbeat.lastSent = now.elapsed
  probed : t.probedAt = none
  asked : Dated now.elapsed (Wire.among .resendRequest frames) s.askedAt t.askedAt

theorem ends_establish_greeted {seconds : Nat} (hseconds : 0 < seconds) (now : Moment) :
    Ends (establish seconds now) s
      (fun r t => Wire.among .testRequest r.outbound = false ∧ Greeted now s r.outbound t)
      Anyhow := by
  have hinterval : 0 < seconds * 1000 := Nat.mul_pos hseconds (by decide)
  refine ends_establish (fun _ => ?_) fun _ => ends_emit_of_emits fun frame t hemits => ?_
  · exact ⟨rfl, rfl, rfl, rfl, rfl, hinterval, rfl, rfl, rfl, rfl, .same _ _⟩
  · have hclocked := hemits.clocked (by decide) (by decide)
    exact ⟨hemits.among .testRequest, hclocked.config, hclocked.terminated, rfl, rfl, hinterval,
      hclocked.grace, rfl, rfl, rfl, hclocked.asked⟩

omit [MessageStore σ] in
/-- What follows within the call leaves the clocks as its frames say. -/
theorem Greeted.after {frames more : List Bytes} (h : Greeted now s frames t)
    (h' : Clocked now t more u) (hquiet : Wire.among .testRequest more = false) :
    Greeted now s (frames ++ more) u where
  config := h'.config.trans h.config
  terminated := h'.terminated.trans h.terminated
  state := h'.state.trans h.state
  since := h'.since.trans h.since
  interval := h'.interval ▸ h.interval
  grace := h'.grace.trans h.grace
  received := h'.received.trans h.received
  sent := by
    rw [h'.sent, h.sent]
    exact ite_self _
  probed := by
    refine Option.eq_none_iff_forall_not_mem.mpr fun time htime => ?_
    have hprobed := h'.probed time htime
    rw [hquiet, h.probed] at hprobed
    exact absurd hprobed (Option.not_mem_none _)
  asked := by
    rw [Wire.among_append]
    exact h.asked.trans h'.asked

/-- Before logon, a message that does not fail is the logon that the session waits for. -/
theorem ends_onLogonPhase_greeted (hvalid : s.config.validate = .ok ()) {n : SeqNum}
    (hn : n.isValid = true) (p : Parked) (now : Moment) :
    Ends (onLogonPhase n p now) s
      (fun r t => Wire.among .testRequest r.outbound = false ∧ Greeted now s r.outbound t)
      Anyhow := by
  have hpos {seconds : Nat} (hseconds : s.agreeHeartbeat p.message = .ok seconds) : 0 < seconds :=
    (agrees_of_agreeHeartbeat hseconds).1.pos hvalid
  refine ends_onLogonPhase hn (fun _ _ _ => trivial) (fun seconds _ hseconds _ => ?_)
    fun seconds _ hseconds _ => ?_
  · refine (ends_establish_greeted (hpos hseconds) now).imp ?_
    rintro r t ⟨hquiet, hgreeted⟩
    exact ends_append.mpr ⟨fun store _ => ⟨hquiet, { hgreeted with }⟩, fun _ _ _ => trivial⟩
  · refine (ends_establish_greeted (hpos hseconds) now).imp ?_
    rintro r t ⟨hquiet, hgreeted⟩
    refine ends_park.mpr ⟨fun recovery hpark => ?_, fun _ _ => trivial⟩
    have hparked := clocked_park hpark now
    refine (ends_requestResend_clocked ..).imp ?_
    rintro r' u ⟨hquiet', hclocked⟩
    refine ⟨?_, hgreeted.after (hparked.trans hclocked) hquiet'⟩
    rw [Reaction.outbound_append, Wire.among_append, hquiet, hquiet']
    rfl

/-! ## Timer calls -/

/-- A session is kept alive by nothing, by a heartbeat, or, if none waits, by a test request. -/
theorem KeptAlive.cases {r : Reaction} (h : KeptAlive s now r t) :
    (r = .empty ∧ t = s) ∨
      (∃ frame, r = .ofFrame frame ∧ Emits s .heartbeat [] now frame t) ∨
      ∃ id frame, r = .ofFrame frame ∧ s.heartbeat.pending = none ∧
        (s.polled now).heartbeat =
          { s.heartbeat with pending := some (id, now.elapsed), lastSent := now.elapsed } ∧
        Emits (s.polled now) .testRequest [.ofText .testReqId id] now frame t := by
  have hsame (hdue : ∀ id, (s.heartbeat.poll now).1 ≠ some (.sendTestRequest id)) :
      s.polled now = s := by
    rw [polled, HeartbeatMonitor.snd_poll_of_ne hdue]
  cases h with
  | nothing hdue =>
    refine .inl ⟨rfl, hsame fun id hprobe => ?_⟩
    cases hdue.symm.trans hprobe
  | heartbeat hdue hemits =>
    refine .inr (.inl ⟨_, rfl, hsame (fun id hprobe => ?_) ▸ hemits⟩)
    cases hdue.symm.trans hprobe
  | probe hdue hemits =>
    obtain ⟨_, hnone, hpolled⟩ := HeartbeatMonitor.eq_of_poll_testRequest hdue
    exact .inr (.inr ⟨_, _, rfl, hnone, hpolled, hemits⟩)

/-- One test request is sent at most, and only if none waits. -/
theorem KeptAlive.clocked {r : Reaction} (h : KeptAlive s now r t) :
    (r.outbound.countP (Wire.isOf .testRequest) ≤ if s.heartbeat.pending.isSome then 0 else 1) ∧
      Clocked now s r.outbound t := by
  rcases h.cases with
    ⟨rfl, rfl⟩ | ⟨frame, rfl, hemits⟩ | ⟨id, frame, rfl, hnone, hpolled, hemits⟩
  · exact ⟨Nat.zero_le _, .refl now t⟩
  · refine ⟨?_, hemits.clocked (by decide) (by decide)⟩
    exact (Wire.countP_of_among (hemits.among .testRequest)).trans_le (Nat.zero_le _)
  · have hprobe : Wire.among .testRequest (Reaction.ofFrame frame).outbound = true :=
      hemits.among .testRequest
    have hrequest : Wire.among .resendRequest (Reaction.ofFrame frame).outbound = false :=
      hemits.among .resendRequest
    obtain ⟨_, _, rfl⟩ := hemits.kept
    refine ⟨?_, ⟨rfl, rfl, rfl⟩, rfl, s.heartbeat.interval_poll now,
      s.heartbeat.grace_poll now, ?_, rfl, ?_, ?_⟩
    · rw [hnone]
      exact List.countP_le_length
    · exact (congrArg HeartbeatMonitor.lastReceived hpolled :)
    · rw [hprobe]
      intro time htime
      obtain ⟨probe, hpending, rfl⟩ := Option.map_eq_some_iff.mp htime
      have hpending : (s.polled now).heartbeat.pending = some probe := hpending
      rw [hpolled] at hpending
      cases hpending
      rfl
    · rw [hrequest]
      exact .same _ _

theorem Retried.clocked {r : Reaction} (h : Retried s now r t) :
    Wire.among .testRequest r.outbound = false ∧ Clocked now s r.outbound t := by
  cases h with
  | nothing hdue =>
    have hsame := congrArg Prod.snd (GapRecovery.eq_of_pollRetry_none hdue)
    exact ⟨rfl, clocked_recovery now (by rw [hsame]; exact fun _ h => h)⟩
  | @again _ _ frame _ hdue hemits =>
    obtain ⟨_, _, _, _, hpolled⟩ := GapRecovery.eq_of_pollRetry_reissue hdue
    have hasked : ∀ range ∈ (s.retried now).recovery.pending,
        range.requestedAt = now.elapsed := by
      rw [retried, hpolled]
      rintro _ ⟨⟩
      rfl
    have hkept : t.recovery = (s.retried now).recovery := hemits.utters.recovery
    have hclocked : Clocked now s [frame] { t with recovery := (s.retried now).recovery } :=
      Emits.clocked_request hemits hasked
    rw [← hkept] at hclocked
    exact ⟨hemits.among .testRequest, hclocked⟩

/-- What a timer call does. -/
theorem ends_tick_clocked (now : Moment) :
    Ends (tick now) s
      (fun r t =>
        (r.outbound.countP (Wire.isOf .testRequest) ≤
          if s.heartbeat.pending.isSome then 0 else 1) ∧
        (t.terminated = true ∨ Clocked now s r.outbound t)) Anyhow := by
  refine ends_tick (fun _ => ⟨Nat.zero_le _, .inr (.refl now s)⟩) (fun _ _ _ => trivial)
    (fun _ _ _ => ⟨Nat.zero_le _, .inl rfl⟩) fun _ _ => ?_
  refine (ends_keepAlive_keptAlive now).imp fun alive t halive => ?_
  obtain ⟨hprobes, halive⟩ := halive.clocked
  refine (ends_retryResend_retried now).imp fun retried u hretried => ?_
  obtain ⟨hquiet, hretried⟩ := hretried.clocked
  refine ⟨?_, .inr (halive.trans hretried)⟩
  rw [Reaction.outbound_append, List.countP_append, Wire.countP_of_among hquiet]
  exact hprobes

end Session

end FixProtocol
