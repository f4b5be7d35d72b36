import FixProtocol.Proofs.Session.Punctuality
import FixProtocol.Proofs.Session.Taken

/-!
# Test requests that are answered

A test request waits until a heartbeat with its identifier is taken. Such a heartbeat does not count
before its turn: with a number that was passed it is a duplicate, and from behind a gap it is
parked. When a session gives up on its counterparty, no answer was taken since the request was made.

- `Echoes`, `Probes`: does a frame answer a test request, does it make one?
- `Heeds`: no answer was taken to the test request, if one still waits.
- `Listens`: an answer that arrives ends the wait, or has come out of turn.
- `attends_step`: an operation heeds answers, or makes a test request.
- `probed_before`: a test request that waits was made by a timer call, and has waited ever since.
- `timeout_unanswered`: a session that has given up has taken no answer.
-/

namespace FixProtocol

/-- A monitor gives up only if a test request waits that has no time left. -/
theorem HeartbeatMonitor.overdue_of_poll {m : HeartbeatMonitor} {now : Moment} {waited : Nat}
    (h : (m.poll now).1 = some (.timedOut waited)) :
    ∃ probe ∈ m.pending, waited = now.elapsed - probe.2 ∧ m.grace ≤ waited := by
  rcases m.poll_cases now with
    ⟨probe, hpending, hover, heq⟩ | ⟨_, _, heq⟩ | ⟨_, ⟨_, heq⟩ | ⟨_, heq⟩⟩
  all_goals
    rw [heq] at h
    cases h
  exact ⟨probe, hpending, rfl, hover⟩

namespace Session

open Call

/-- Does this frame answer the test request with this identifier? -/
def Echoes (c : SessionConfig) (id : String) (frame : Bytes) : Prop :=
  ∃ m, Message.decode c.beginString frame = .ok m ∧ m.msgType = .heartbeat ∧
    m.text? .testReqId = some id

/-- Does this frame hold the test request with this identifier? -/
def Probes (id : String) (frame : Bytes) : Prop :=
  ∃ m ∈ Wire.contents? frame, m.msgType = .testRequest ∧ m.text? .testReqId = some id

theorem Echoes.of_decoded {c : SessionConfig} {id : String} {p : Parked}
    (hp : Message.decode c.beginString p.frame = .ok p.message) (h : Echoes c id p.frame) :
    p.message.msgType = .heartbeat ∧ p.message.text? .testReqId = some id := by
  obtain ⟨m, hm, hanswer⟩ := h
  rw [hp] at hm
  cases hm
  exact hanswer

variable {σ : Type} {now : Moment}

section
variable {s t u : Session (Noted σ)}

/-- From `s` to `t` no answer was taken to the test request, if one still waits. -/
structure Heeds (s t : Session (Noted σ)) : Prop where
  config : t.config = s.config
  pending : t.heartbeat.pending = none ∨ t.heartbeat.pending = s.heartbeat.pending
  taken : ∀ probe ∈ t.heartbeat.pending, ∀ e ∈ t.store.taken,
    e ∈ s.store.taken ∨ ¬ Echoes s.config probe.1 e.2

theorem Heeds.same (hconfig : t.config = s.config)
    (hpending : t.heartbeat.pending = s.heartbeat.pending)
    (htaken : t.store.taken = s.store.taken) : Heeds s t :=
  ⟨hconfig, .inr hpending, fun _ _ _ he => .inl (htaken ▸ he)⟩

theorem Heeds.refl (s : Session (Noted σ)) : Heeds s s :=
  .same rfl rfl rfl

/-- Nothing is left to be answered. -/
theorem Heeds.none (hconfig : t.config = s.config) (hpending : t.heartbeat.pending = none) :
    Heeds s t :=
  ⟨hconfig, .inl hpending, by rw [hpending]; exact nofun⟩

theorem Heeds.pending_none (h : Heeds s t) (hnone : s.heartbeat.pending = Option.none) :
    t.heartbeat.pending = Option.none :=
  h.pending.elim (fun hnone => hnone) fun hsame => hsame.trans hnone

theorem Heeds.trans (h : Heeds s t) (h' : Heeds t u) : Heeds s u where
  config := h'.config.trans h.config
  pending := h'.pending.elim .inl fun hsame =>
    h.pending.imp (fun hnone => hsame.trans hnone) (fun hsame' => hsame.trans hsame')
  taken := fun probe hprobe e he => by
    have hwaits : probe ∈ t.heartbeat.pending := by
      rcases h'.pending with hnone | hsame
      · rw [hnone] at hprobe
        cases hprobe
      · rwa [hsame] at hprobe
    rcases h'.taken probe hprobe e he with he | hnot
    · exact h.taken probe hwaits e he
    · exact .inr (h.config ▸ hnot)

/-- A message was taken that is no answer. -/
theorem Heeds.take {n : SeqNum} {p : Parked} (hconfig : t.config = s.config)
    (hpending : t.heartbeat.pending = s.heartbeat.pending)
    (htaken : t.store.taken = s.store.taken ++ [(n, p.frame)])
    (hnot : ∀ probe ∈ s.heartbeat.pending, ¬ Echoes s.config probe.1 p.frame) : Heeds s t where
  config := hconfig
  pending := .inr hpending
  taken := fun probe hprobe e he => by
    rw [htaken] at he
    rw [hpending] at hprobe
    refine (List.mem_append.mp he).imp_right fun he => ?_
    rw [List.mem_singleton.mp he]
    exact hnot probe hprobe

variable [MessageStore σ] {type : MsgType} {body : List Field} {frame : Bytes} {n : SeqNum}
  {p : Parked}

/-! ## Messages in order -/

theorem Emits.heeds (h : Emits s type body now frame t) : Heeds s t := by
  obtain ⟨store, hstore, rfl⟩ := h.kept
  exact .same rfl rfl (Noted.taken_of_outbound hstore)

/-- A resend request has no effect on what is parked. -/
theorem ends_requestResend_heeds (first last : SeqNum) (now : Moment) :
    Ends (requestResend first last now) s
      (fun _ t => Heeds s t ∧ t.recovery.parked = s.recovery.parked) Anyhow := by
  refine ends_requestResend.mpr (ends_emit_of_emits fun frame t hemits => ?_)
  refine ⟨{ hemits.heeds with }, ?_⟩
  show t.recovery.parked = _
  rw [hemits.utters.recovery]

theorem Serves.heeds {r : Reaction} (h : Serves now s r t) : Heeds s t := by
  cases h with
  | nothing => exact .refl s
  | again _ _ _ hrange _ => exact .same rfl rfl (Noted.taken_of_range hrange)

theorem ends_applySequenceReset_heeds (m : Message) :
    Ends (applySequenceReset m) s (fun _ t => Heeds s t) Anyhow :=
  ends_applySequenceReset (fun _ => trivial) (fun _ _ _ => trivial) fun _ _ _ => .same rfl rfl rfl

theorem ends_onLogout_heeds (now : Moment) :
    Ends (onLogout now) s (fun _ t => Heeds s t) Anyhow :=
  ends_onLogout (fun _ => .same rfl rfl rfl) fun _ =>
    ends_emit_of_emits fun _ _ h => { h.heeds with }

/-- A message that was taken ends the wait if it answers. -/
theorem ends_dispatch_heeds (hp : Message.decode s.config.beginString p.frame = .ok p.message)
    (htaken : t.store.taken = s.store.taken ++ [(n, p.frame)]) (hconfig : t.config = s.config)
    (hpending : t.heartbeat.pending = s.heartbeat.pending) (replaying : Bool) (now : Moment) :
    Ends (dispatch p.message replaying now) t
      (fun _ u => Heeds s u ∧ ∀ probe ∈ s.heartbeat.pending,
        Echoes s.config probe.1 p.frame → u.heartbeat.pending = none) Anyhow := by
  -- Only a heartbeat is an answer.
  have hother {type : MsgType} {u : Session (Noted σ)} (htype : p.message.msgType = type)
      (hne : type ≠ .heartbeat) (h : Heeds t u) :
      Heeds s u ∧ ∀ probe ∈ s.heartbeat.pending,
        Echoes s.config probe.1 p.frame → u.heartbeat.pending = none := by
    have hnot (probe : String × Nat) : ¬ Echoes s.config probe.1 p.frame :=
      fun hechoes => hne (htype.symm.trans (hechoes.of_decoded hp).1)
    have htake : Heeds s t := .take hconfig hpending htaken fun probe _ => hnot probe
    exact ⟨htake.trans h, fun probe _ h => absurd h (hnot probe)⟩
  refine ends_dispatch ?heartbeat ?testRequest ?resendRequest ?sequenceReset ?logout ?logon
    ?application
  case heartbeat =>
    intro _
    by_cases hanswer : t.heartbeat.isAnswer (p.message.text? .testReqId) = true
    · have hnone : (t.heartbeat.onHeartbeat (p.message.text? .testReqId)).pending = none := by
        rw [HeartbeatMonitor.onHeartbeat, if_pos hanswer]
      exact ⟨.none hconfig hnone, fun _ _ _ => hnone⟩
    · have hnot : ∀ probe ∈ s.heartbeat.pending, ¬ Echoes s.config probe.1 p.frame := by
        rintro ⟨id, since⟩ hprobe hechoes
        rw [← hpending, Option.mem_def] at hprobe
        refine hanswer ?_
        unfold HeartbeatMonitor.isAnswer
        rw [hprobe, (hechoes.of_decoded hp).2]
        exact decide_eq_true rfl
      rw [HeartbeatMonitor.onHeartbeat, if_neg hanswer]
      exact ⟨.take hconfig hpending htaken hnot, fun probe h h' => absurd h' (hnot probe h)⟩
  case testRequest =>
    exact fun htype => ends_emit_of_emits fun _ _ h => hother htype (by decide) h.heeds
  case resendRequest =>
    exact fun htype => (ends_serveResend_serves p.message now).anyhow fun _ _ h =>
      hother htype (by decide) h.heeds
  case sequenceReset =>
    exact fun htype => (ends_applySequenceReset_heeds p.message).imp fun _ _ =>
      hother htype (by decide)
  case logout =>
    exact fun htype => (ends_onLogout_heeds now).imp fun _ _ => hother htype (by decide)
  case logon =>
    exact fun htype => ⟨fun _ => hother htype (by decide) (.refl t), fun _ => trivial⟩
  case application =>
    refine fun hlevel => hother rfl (fun htype => ?_) (.refl t)
    rw [htype] at hlevel
    cases hlevel

/-- A message that is taken ends the wait if it answers. -/
theorem ends_accept_heeds (hp : Message.decode s.config.beginString p.frame = .ok p.message)
    (n : SeqNum) (replaying : Bool) (now : Moment) :
    Ends (accept n p replaying now) s
      (fun _ t => Heeds s t ∧ ∀ probe ∈ s.heartbeat.pending,
        Echoes s.config probe.1 p.frame → t.heartbeat.pending = none) Anyhow :=
  ends_accept (fun store hstore => ends_dispatch_heeds (s := s) (t := { s with store }) hp
    (Noted.taken_of_inbound hstore) rfl rfl replaying now) (fun _ _ _ => trivial)

/-! ## Messages from behind a gap -/

theorem ends_replay_heeds (hs : Sound .any s) (now : Moment) (count : Nat) :
    Ends (replay now count) s (fun _ t => Heeds s t) Anyhow := by
  refine ends_replay_sound (P := fun _ t => Heeds s t) (fun _ h => h.trans (.same rfl rfl rfl))
    (fun {_ t p} _ _ h hp => ?_) hs (.refl s) count
  refine (ends_accept_heeds (s := t.released.counted t.sequences.expectedIncoming) hp.decoded _ true
    now).imp ?_
  rintro _ u ⟨htaken, _⟩
  have htaken : Heeds t u := { htaken with }
  exact h.trans htaken

theorem ends_closeGap_heeds (now : Moment) :
    Ends (closeGap now) s (fun _ t => Heeds s t) Anyhow :=
  ends_closeGap (fun _ => .same rfl rfl rfl) fun _ _ _ _ =>
    (ends_requestResend_heeds ..).imp fun _ _ h => { h.1 with }

theorem ends_drain_heeds (hs : Sound .any s) (now : Moment) :
    Ends (drain now) s (fun _ t => Heeds s t) Anyhow :=
  ends_drain_keeps (P := fun _ t => Heeds s t) (ends_replay_heeds hs now _) fun _ h =>
    (ends_closeGap_heeds now).imp fun _ _ => h.trans

/-! ## Frames -/

/-- An answer that arrives while its test request goes on waiting has come out of turn: its number
was passed, or it is parked. -/
def Untimely (n : SeqNum) (p : Parked) (s t : Session (Noted σ)) : Prop :=
  ∀ probe ∈ t.heartbeat.pending, Echoes s.config probe.1 p.frame →
    n < s.sequences.expectedIncoming ∨
      s.sequences.expectedIncoming < n ∧ t.recovery.find? n = some p

theorem ends_onNumbered_heeds (hs : Sound .any s) (hp : Genuine .any s.config n p)
    (now : Moment) :
    Ends (onNumbered n p now) s (fun _ t => Heeds s t ∧ Untimely n p s t) Anyhow := by
  refine ends_onNumbered hp.valid (fun hlt => ⟨.refl s, fun _ _ _ => .inl hlt⟩) (fun heq => ?_)
    (fun hgt recovery hpark => ?_) (fun _ _ _ => trivial)
  · refine (hs.accept hp heq
      (ends_accept_heeds (s := s.counted n) hp.decoded n false now)).imp ?_
    rintro _ t ⟨⟨htaken, hechoed⟩, ht⟩
    have htaken : Heeds s t := { htaken with }
    refine (ends_drain_heeds ht now).imp ?_
    intro _ u hdrained
    refine ⟨htaken.trans hdrained, fun probe hprobe hechoes => ?_⟩
    have hsame : probe ∈ s.heartbeat.pending := by
      rcases (htaken.trans hdrained).pending with hnone | hsame
      · rw [hnone] at hprobe
        cases hprobe
      · rwa [hsame] at hprobe
    rw [hdrained.pending_none (hechoed probe hsame hechoes)] at hprobe
    cases hprobe
  · have hfound : recovery.find? n = some p := by
      rw [GapRecovery.find?_park hpark, if_pos rfl]
    refine ⟨fun _ => ⟨.same rfl rfl rfl, fun _ _ _ => .inr ⟨hgt, hfound⟩⟩, fun _ => ?_⟩
    refine (ends_requestResend_heeds ..).imp ?_
    rintro _ t ⟨hasked, hparked⟩
    refine ⟨{ hasked with }, fun _ _ _ => .inr ⟨hgt, ?_⟩⟩
    rw [GapRecovery.find?, hparked]
    exact hfound

/-- What a plain reset does to a session that exchanges messages: it is no answer. -/
theorem ends_reset_heeds (hs : Sound .any s) (hp : Genuine .any s.config n p)
    (hplain : isPlainReset p.message = true) (now : Moment) :
    Ends (applySequenceReset p.message) s
      (fun _ t => Ends (drain now) t (fun _ u => Heeds s u ∧ Untimely n p s u) Anyhow) Anyhow := by
  have htype : p.message.msgType = .sequenceReset := msgType_of_isPlainReset hplain
  have huntimely (t : Session (Noted σ)) : Untimely n p s t := by
    intro probe _ hechoes
    have hheartbeat := (hechoes.of_decoded hp.decoded).1
    rw [htype] at hheartbeat
    cases hheartbeat
  refine (hs.reset hp hplain (ends_applySequenceReset_heeds p.message)).imp ?_
  rintro _ t ⟨hreset, ht⟩
  exact (ends_drain_heeds ht now).imp fun _ u h => ⟨hreset.trans h, huntimely u⟩

/-- What a frame does from `s` to `t`: an answer in it ends the wait, or has come out of turn. -/
structure Listens (frame : Bytes) (s t : Session (Noted σ)) : Prop extends Heeds s t where
  untimely : ∀ n m, Genuine .any s.config n ⟨m, frame⟩ → Untimely n ⟨m, frame⟩ s t

theorem ends_process_listens (hvalid : s.config.validate = .ok ()) (hs : Sound .any s)
    (frame : Bytes) (now : Moment) :
    Ends (process frame now) s (fun _ t => Listens frame s t) Anyhow := by
  have hnumbered {n : SeqNum} {m : Message} {t : Session (Noted σ)}
      (hp : Genuine .any s.config n ⟨m, frame⟩)
      (h : Heeds (s.heard now) t ∧ Untimely n ⟨m, frame⟩ (s.heard now) t) :
      Listens frame s t := by
    refine ⟨{ h.1 with }, fun n' m' hp' => ?_⟩
    obtain ⟨rfl, rfl⟩ := hp.unique hp'
    exact h.2
  refine ends_process (I := .any) trivial ?refused ?early ?reset ?numbered
  case refused => exact fun _ _ _ _ _ => trivial
  case early =>
    intro _ _ n m hp
    refine (ends_onLogonPhase_greeted (s := s.heard now) hvalid hp.valid ⟨m, frame⟩ now).imp ?_
    rintro r t ⟨_, hgreeted⟩
    have hnone : t.heartbeat.pending = none := Option.map_eq_none_iff.mp hgreeted.probed
    refine ⟨.none hgreeted.config hnone, fun _ _ _ probe hprobe => ?_⟩
    rw [hnone] at hprobe
    cases hprobe
  case reset =>
    exact fun _ _ n m hp hplain => (ends_reset_heeds (s := s.heard now) hs hp hplain now).imp
      fun _ _ h => h.imp fun _ _ => hnumbered hp
  case numbered =>
    exact fun _ _ n m hp _ => (ends_onNumbered_heeds (s := s.heard now) hs hp now).imp
      fun _ _ => hnumbered hp

/-! ## Timer calls -/

/-- From `s` to `t` a test request was made. -/
def Probed (s : Session σ) (now : Moment) (frames : List Bytes) (t : Session σ) : Prop :=
  s.heartbeat.pending = none ∧ ∃ id, t.heartbeat.pending = some (id, now.elapsed) ∧
    ∃ frame ∈ frames, Probes id frame

theorem KeptAlive.heeds {r : Reaction} (h : KeptAlive s now r t) :
    Heeds s t ∨ Probed s now r.outbound t := by
  rcases h.cases with
    ⟨_, rfl⟩ | ⟨_, _, hemits⟩ | ⟨id, frame, rfl, hnone, hpolled, hemits⟩
  · exact .inl (.refl t)
  · exact .inl hemits.heeds
  · refine .inr ⟨hnone, id, ?_, frame, List.mem_singleton_self frame, _, hemits.carries.contents,
      msgType_header, ?_⟩
    · rw [hemits.heartbeat, hpolled]
      rfl
    · exact Message.read?_eq_some (get?_header (by decide)) (Field.text_ofText .testReqId id)

theorem Retried.heeds {r : Reaction} (h : Retried s now r t) :
    Heeds s t ∧ t.heartbeat.pending = s.heartbeat.pending := by
  cases h with
  | nothing => exact ⟨.same rfl rfl rfl, rfl⟩
  | again _ hemits =>
    refine ⟨{ hemits.heeds with }, ?_⟩
    rw [hemits.heartbeat]
    rfl

theorem ends_tick_heeds (now : Moment) :
    Ends (tick now) s (fun r t => Heeds s t ∨ Probed s now r.outbound t) Anyhow := by
  refine ends_tick (fun _ => .inl (.refl s)) (fun _ _ _ => trivial)
    (fun _ _ _ => .inl (.same rfl rfl rfl)) fun _ _ => ?_
  refine (ends_keepAlive_keptAlive now).imp fun alive t halive => ?_
  refine (ends_retryResend_retried now).imp fun retried u hretried => ?_
  obtain ⟨hheeds, hsame⟩ := hretried.heeds
  rcases halive.heeds with halive | ⟨hnone, id, hpending, frame, hframe, hprobes⟩
  · exact .inl (halive.trans hheeds)
  · exact .inr ⟨hnone, id, hsame.trans hpending, frame, List.mem_append_left _ hframe, hprobes⟩

/-! ## Operations -/

/-- What an operation does that leaves the session open. -/
inductive Attends (s : Session (Noted σ)) : Operation → Outcome → Session (Noted σ) → Prop
  | heeds {op : Operation} {o : Outcome} {t : Session (Noted σ)} (h : Heeds s t)
      (hlistens : ∀ frame now, op = .receive frame now → Listens frame s t) : Attends s op o t
  | probes {now : Moment} {o : Outcome} {t : Session (Noted σ)} (h : Probed s now o.frames t) :
      Attends s (.timer now) o t

theorem attends_call {call : Call (Noted σ) Bytes} {Q : Bytes → Session (Noted σ) → Prop}
    {op : Operation} (hends : Ends call s Q (Refusal s)) (hQ : ∀ frame t, Q frame t → Heeds s t)
    (hop : op.isArrival = false) : Attends s op (.sent (call.run s).1) (call.run s).2 := by
  have hlistens (t : Session (Noted σ)) :
      ∀ frame now, op = .receive frame now → Listens frame s t := by
    rintro frame now rfl
    cases hop
  rcases run_cases hends with ⟨frame, t, hrun, hsent⟩ | ⟨e, t, hrun, hrefusal⟩
  · rw [hrun]
    exact .heeds (hQ frame t hsent) (hlistens t)
  · rw [hrun]
    refine .heeds ?_ (hlistens t)
    cases hrefusal with
    | idle => exact .refl s
    | unkept hstore => exact .same rfl rfl (Noted.taken_of_refused hstore)

theorem attends_step (hopen : s.terminated = false) (hvalid : s.config.validate = .ok ())
    (hs : Sound .any s) (op : Operation) (hopen' : (s.step op).2.terminated = false) :
    Attends s op (s.step op).1 (s.step op).2 := by
  cases op with
  | logon now =>
    refine attends_call (ends_logon_emits now) ?_ rfl
    rintro frame _ ⟨_, _, _, u, hemits, rfl⟩
    exact { hemits.heeds with }
  | send type fields now =>
    refine attends_call (ends_send_emits type fields now) ?_ rfl
    rintro frame t ⟨_, _, _, hemits⟩
    exact hemits.heeds
  | logout text now =>
    refine attends_call (ends_logout_emits text now) ?_ rfl
    rintro frame _ ⟨_, _, u, hemits, rfl⟩
    exact { hemits.heeds with }
  | receive frame now =>
    have hopen' : ((process frame now).settle s now).2.terminated = false := hopen'
    show Attends s _ (.reacted ((process frame now).settle s now).1)
      ((process frame now).settle s now).2
    rcases settle_cases (ends_process_listens hvalid hs frame now) now with
      ⟨r, t, hsettle, hlistens⟩ | ⟨e, t, hsettle⟩
    · rw [hsettle]
      refine .heeds hlistens.toHeeds ?_
      rintro _ _ ⟨⟩
      exact hlistens
    · rw [hsettle] at hopen'
      cases hopen'
  | timer now =>
    have hopen' : ((tick now).settle s now).2.terminated = false := hopen'
    show Attends s _ (.reacted ((tick now).settle s now).1) ((tick now).settle s now).2
    rcases settle_cases (ends_tick_heeds (s := s) now) now with
      ⟨r, t, hsettle, hheeds | hprobed⟩ | ⟨e, t, hsettle⟩
    · rw [hsettle]
      exact .heeds hheeds nofun
    · rw [hsettle]
      exact .probes hprobed
    · rw [hsettle] at hopen'
      cases hopen'
  | disconnect now =>
    have hended : s.disconnect now = s.terminate now := if_neg (Bool.eq_false_iff.mp hopen)
    have hopen' : (s.disconnect now).terminated = false := hopen'
    rw [hended] at hopen'
    cases hopen'

end

/-! ## Giving up -/

section
variable [MessageStore σ] {s t : Session σ}

/-- If a session gives up on its counterparty, a test request waits that has no time left. -/
def Overdue (s : Session σ) (now : Moment) (e : Error) : Prop :=
  ∀ waited, e = .session (.heartbeatTimeout waited) →
    ∃ probe ∈ s.heartbeat.pending, waited = now.elapsed - probe.2 ∧ s.heartbeat.grace ≤ waited

/-- What is not written fails for a reason of its own. -/
theorem ends_emit_overdue (type : MsgType) (body : List Field) (now : Moment) :
    Ends (emit type body now) t (fun _ _ => True) (fun e _ => Overdue s now e) := by
  refine ends_emit.mpr ⟨fun _ _ => ⟨fun _ _ => trivial, ?_⟩, ?_⟩
  · rintro _ _ _ _ ⟨⟩
  · rintro _ _ _ ⟨⟩

theorem ends_keepAlive_overdue (now : Moment) :
    Ends (keepAlive now) s (fun _ _ => True) (fun e _ => Overdue s now e) := by
  refine ends_keepAlive (fun _ => trivial) (fun _ => ends_emit_overdue ..)
    (fun _ _ => ends_emit_overdue ..) fun waited hdue => ?_
  rintro _ ⟨⟩
  exact HeartbeatMonitor.overdue_of_poll hdue

theorem ends_retryResend_overdue (now : Moment) :
    Ends (retryResend now) t (fun _ _ => True) (fun e _ => Overdue s now e) := by
  refine ends_retryResend (fun _ => trivial) (fun _ _ _ => ends_emit_overdue ..) fun e hdue => ?_
  obtain ⟨_, _, rfl⟩ := GapRecovery.eq_of_pollRetry_exhausted hdue
  rintro _ ⟨⟩

theorem ends_tick_overdue (now : Moment) :
    Ends (tick now) s (fun _ _ => True) (fun e _ => Overdue s now e) := by
  refine ends_tick (fun _ => trivial) (fun _ _ _ => ?_) (fun _ _ _ => trivial)
    fun _ _ => (ends_keepAlive_overdue now).imp fun _ _ _ => ends_retryResend_overdue now
  rintro _ ⟨⟩

end

/-! ## Runs -/

section
variable [MessageStore σ] {s s₀ : Session σ} {config : SessionConfig} {store : σ} {opened : Nat}
  {ops : List Operation} {op : Operation} {probe : String × Nat}

/-- An open session waits for the answer to a test request. -/
structure Probing (probe : String × Nat) (s : Session σ) : Prop where
  isOpen : s.terminated = false
  pending : s.heartbeat.pending = some probe

/-- What an operation does that leaves the session open, where it is noted what is taken. -/
theorem Settled.attends {v : Session (Noted σ)} (hs : Settled (v.bared Noted.store))
    (hsound : Sound .any v) (op : Operation) (hopen : (v.step op).2.terminated = false) :
    v.terminated = false ∧ Attends v op (v.step op).1 (v.step op).2 := by
  cases hs with
  | ended hended =>
    have hlasts : Lasts v v := ⟨hended.terminated, hended.state, rfl, rfl⟩
    rw [(lasts_step hlasts op).2.terminated] at hopen
    cases hopen
  | idle hidles =>
    exact ⟨hidles.isOpen, attends_step hidles.isOpen hidles.introduced.valid hsound op hopen⟩

/-- A session that waits has waited before, or has just made the test request. -/
theorem Settled.probing_step (hs : Settled s) (hsound : Sound .any s)
    (h : Probing probe (s.step op).2) :
    Probing probe s ∨ ∃ now, op = .timer now ∧ probe.2 = now.elapsed ∧
      ∃ frame ∈ (s.step op).1.frames, Probes probe.1 frame := by
  have hstep : s.step op = ((s.noted.step op).1, (s.noted.step op).2.bared Noted.store) :=
    step_bared Noted.wraps s.noted op
  rw [hstep] at h ⊢
  obtain ⟨hopen, hattends⟩ := Settled.attends (v := s.noted) hs hsound op h.isOpen
  have hpending : (s.noted.step op).2.heartbeat.pending = some probe := h.pending
  generalize (s.noted.step op).1 = o at hattends ⊢
  generalize (s.noted.step op).2 = t at hattends hpending
  cases hattends with
  | heeds h _ =>
    rcases h.pending with hnone | hsame
    · rw [hnone] at hpending
      cases hpending
    · exact .inl ⟨hopen, hsame.symm.trans hpending⟩
  | @probes now _ _ h =>
    obtain ⟨_, id, hnew, hprobes⟩ := h
    rw [hpending] at hnew
    cases hnew
    exact .inr ⟨now, rfl, rfl, hprobes⟩

/-- A test request that waits was made by a timer call, and has waited ever since. The induction is
on the operations, from the last. -/
theorem probed_before (h : open? config store opened = .ok s₀) (hs : Probing probe (s₀.run ops).2) :
    ∃ before now after, ops = before ++ [.timer now] ++ after ∧ probe.2 = now.elapsed ∧
      (∃ frame ∈ ((s₀.run before).2.step (.timer now)).1.frames, Probes probe.1 frame) ∧
      ∀ early, early <+: after → Probing probe (s₀.run (before ++ [.timer now] ++ early)).2 := by
  induction ops using List.reverseRecOn with
  | nil =>
    obtain ⟨_, rfl⟩ := open?_eq_ok_iff.mp h
    cases hs.pending
  | append_singleton ops op ih =>
    have hlast : Probing probe ((s₀.run ops).2.step op).2 := by
      rw [run_append] at hs
      exact hs
    rcases (settled_run_of_open h ops).probing_step (sound_run_of_open h ops) hlast with
      hbefore | ⟨now, rfl, htime, hprobes⟩
    · obtain ⟨before, now, after, rfl, htime, hprobes, hwaits⟩ := ih hbefore
      refine ⟨before, now, after ++ [op], List.append_assoc .., htime, hprobes,
        fun early hearly => ?_⟩
      rcases List.prefix_concat_iff.mp hearly with rfl | hearly
      · rw [← List.append_assoc]
        exact hs
      · exact hwaits early hearly
    · refine ⟨ops, now, [], (List.append_nil _).symm, htime, hprobes, fun early hearly => ?_⟩
      rw [List.prefix_nil.mp hearly, List.append_nil]
      exact hs

/-- While a test request waits, what is taken is no answer, and an answer that arrives has come out
of turn. -/
theorem heeds_of_probing (h : open? config store opened = .ok s₀) {begun early : List Operation}
    (hbefore : Probing probe (s₀.run (begun ++ early)).2)
    (hafter : Probing probe (s₀.run (begun ++ early ++ [op])).2) :
    let v := ((s₀.run begun).2.noted.run early).2
    v.config = config ∧ (v.step op).2.heartbeat.pending = some probe ∧ Heeds v (v.step op).2 ∧
      ∀ frame now, op = .receive frame now → Listens frame v (v.step op).2 := by
  intro v
  have hbare : v.bared Noted.store = (s₀.run (begun ++ early)).2 := by
    rw [run_append, run_noted]
  have hstep : (s₀.run (begun ++ early ++ [op])).2 = (v.step op).2.bared Noted.store := by
    rw [run_append, ← hbare]
    show ((v.bared Noted.store).step op).2 = _
    rw [step_bared Noted.wraps v op]
  rw [← hbare] at hbefore
  rw [hstep] at hafter
  have hsettled : Settled (v.bared Noted.store) := hbare ▸ settled_run_of_open h _
  have hsound : Sound .any (v.bared Noted.store) := hbare ▸ sound_run_of_open h _
  obtain ⟨_, hattends⟩ := hsettled.attends hsound op hafter.isOpen
  have hpending : v.heartbeat.pending = some probe := hbefore.pending
  refine ⟨(congrArg Session.config hbare).trans (config_run_of_open h _), hafter.pending, ?_⟩
  generalize (v.step op).1 = o at hattends
  generalize (v.step op).2 = t at hattends ⊢
  cases hattends with
  | heeds h hlistens => exact ⟨h, hlistens⟩
  | probes h =>
    rw [h.1] at hpending
    cases hpending

/-- While a test request waits, no answer is taken. The induction is on the operations, from the
last. -/
theorem not_echoes_of_taken (h : open? config store opened = .ok s₀) {begun after : List Operation}
    (hwaits : ∀ early, early <+: after → Probing probe (s₀.run (begun ++ early)).2) :
    ∀ e ∈ (s₀.run begun).2.taken after, ¬ Echoes config probe.1 e.2 := by
  induction after using List.reverseRecOn with
  | nil => exact nofun
  | append_singleton after op ih =>
    have hprefix : after <+: after ++ [op] := List.prefix_append ..
    have hlast := hwaits (after ++ [op]) (List.prefix_refl _)
    rw [← List.append_assoc] at hlast
    obtain ⟨hconfig, hpending, hheeds, _⟩ := heeds_of_probing h (hwaits after hprefix) hlast
    intro e he
    rw [taken, run_append] at he
    rcases hheeds.taken probe hpending e he with he | hnot
    · exact ih (fun early hearly => hwaits early (hearly.trans hprefix)) e he
    · rwa [hconfig] at hnot

/-- While a test request waits, an answer that arrives has come out of turn. -/
theorem untimely_of_probing (h : open? config store opened = .ok s₀) {begun early : List Operation}
    {n : SeqNum} {m : Message} {frame : Bytes} {now : Moment}
    (hbefore : Probing probe (s₀.run (begun ++ early)).2)
    (hafter : Probing probe (s₀.run (begun ++ early ++ [.receive frame now])).2)
    (hp : Genuine .any config n ⟨m, frame⟩) (hechoes : Echoes config probe.1 frame) :
    let t := ((s₀.run begun).2.run early).2
    n < t.sequences.expectedIncoming ∨
      t.sequences.expectedIncoming < n ∧
        (t.step (.receive frame now)).2.recovery.find? n = some ⟨m, frame⟩ := by
  intro t
  obtain ⟨hconfig, hpending, _, hlistens⟩ := heeds_of_probing h hbefore hafter
  have ht : t = ((s₀.run begun).2.noted.run early).2.bared Noted.store := by
    show ((s₀.run begun).2.run early).2 = _
    rw [run_noted]
  rw [← hconfig] at hp hechoes
  rw [ht, step_bared Noted.wraps]
  exact (hlistens frame now rfl).untimely n m hp probe hpending hechoes

/-- Over every run of a new session, whatever its store: when it gives up on its counterparty
because a test request has waited too long, that request was made by an earlier timer call, at least
the time of grace ago. Since then no answer to it was taken. Each answer that has arrived came out
of turn: either its number was passed, or it was parked behind a gap. -/
theorem timeout_unanswered (h : open? config store opened = .ok s₀) (ops : List Operation)
    {now : Moment} {waited : Nat}
    (hended : ((s₀.run ops).2.step (.timer now)).1.failure? =
      some ⟨.session (.heartbeatTimeout waited), .disconnect⟩) :
    ∃ before made after id, ops = before ++ [.timer made] ++ after ∧
      (∃ frame ∈ ((s₀.run before).2.step (.timer made)).1.frames, Probes id frame) ∧
      (s₀.run ops).2.heartbeat.pending = some (id, made.elapsed) ∧
      waited = now.elapsed - made.elapsed ∧ config.testRequestGrace ≤ waited ∧
      let s := (s₀.run (before ++ [.timer made])).2
      (∀ e ∈ s.taken after, ¬ Echoes config id e.2) ∧
      ∀ early frame arrived late n m, after = early ++ [.receive frame arrived] ++ late →
        Genuine .any config n ⟨m, frame⟩ → Echoes config id frame →
          let t := (s.run early).2
          n < t.sequences.expectedIncoming ∨
            t.sequences.expectedIncoming < n ∧
              (t.step (.receive frame arrived)).2.recovery.find? n = some ⟨m, frame⟩ := by
  have hsettled : Settled (s₀.run ops).2 := settled_run_of_open h ops
  have hpunctual := (settled_of_open h).punctual_run (fun _ => punctual_of_open h) ops
  have hfailed : ((tick now).settle (s₀.run ops).2 now).1 =
      .error ⟨.session (.heartbeatTimeout waited), .disconnect⟩ := by
    change Outcome.failure? (.reacted ((tick now).settle (s₀.run ops).2 now).1) = _ at hended
    generalize ((tick now).settle (s₀.run ops).2 now).1 = answer at hended ⊢
    cases answer with
    | ok r => cases hended
    | error failure =>
      cases hended
      rfl
  have hopen : (s₀.run ops).2.terminated = false := by
    cases hsettled with
    | ended hended' =>
      rw [(lasts_step hended'.lasts _).1] at hended
      cases hended
    | idle hidles => exact hidles.isOpen
  obtain ⟨_, hoverdue⟩ := error_of_settle (ends_tick_overdue now) hfailed
  obtain ⟨⟨id, since⟩, hpending, hwaited, hgrace⟩ := hoverdue waited rfl
  obtain ⟨before, made, after, rfl, rfl, hprobes, hwaits⟩ := probed_before h ⟨hopen, hpending⟩
  have hgrace : config.testRequestGrace ≤ waited := by
    rw [(hpunctual hopen).grace, config_run_of_open h] at hgrace
    exact hgrace
  refine ⟨before, made, after, id, rfl, hprobes, hpending, hwaited, hgrace,
    not_echoes_of_taken h hwaits, ?_⟩
  rintro early frame arrived late n m rfl hp hechoes
  have hbefore := hwaits early (List.append_assoc .. ▸ List.prefix_append ..)
  have hafter := hwaits (early ++ [.receive frame arrived]) (List.prefix_append ..)
  rw [← List.append_assoc] at hafter
  exact untimely_of_probing h hbefore hafter hp hechoes

end

open Sample

/-- The acceptor makes a test request after half a minute of silence. The answer comes a second
later, but one number too early, so it is parked. -/
def parkedEcho : List Operation :=
  [.receive (Sample.logon initiator) moment, .timer (moment.later 30000),
    .receive (Sample.frame initiator .heartbeat 3
      [.ofText .testReqId (moment.later 30000).testReqId]) (moment.later 31000)]

/-- After another half a minute the acceptor gives up. -/
theorem timeout_unanswered_parked :
    let s := ((fresh acceptor MemoryStore.empty 0).run parkedEcho).2
    (s.step (.timer (moment.later 60000))).1.failure? =
        some ⟨.session (.heartbeatTimeout 30000), .disconnect⟩ ∧
      ∃ made id, s.heartbeat.pending = some (id, made) ∧ 30000 = 60000 - made ∧
        acceptor.testRequestGrace ≤ 30000 := by
  intro s
  have hended : (s.step (.timer (moment.later 60000))).1.failure? =
      some ⟨.session (.heartbeatTimeout 30000), .disconnect⟩ := by
    decide +kernel
  obtain ⟨_, made, _, id, _, _, hpending, hwaited, hgrace, _⟩ :=
    timeout_unanswered open_acceptor parkedEcho hended
  exact ⟨hended, made.elapsed, id, hpending, hwaited, hgrace⟩

/-- It does so although the answer has arrived, from its counterparty and with a valid number. -/
theorem timeout_although_echoed :
    let s := ((fresh acceptor MemoryStore.empty 0).run parkedEcho).2
    let id := (moment.later 30000).testReqId
    let echo := Sample.frame initiator .heartbeat 3 [.ofText .testReqId id]
    open? acceptor MemoryStore.empty 0 = .ok (fresh acceptor MemoryStore.empty 0) ∧
      s.heartbeat.pending = some (id, 30000) ∧
      parkedEcho[2]? = some (.receive echo (moment.later 31000)) ∧
      (∃ m, Genuine .any acceptor 3 ⟨m, echo⟩) ∧ Echoes acceptor id echo ∧
      (s.step (.timer (moment.later 60000))).1.failure? =
        some ⟨.session (.heartbeatTimeout 30000), .disconnect⟩ := by
  intro s id echo
  have hread : ((Message.decode acceptor.beginString echo).toOption.any fun m =>
      decide (m.msgType = .heartbeat ∧ m.text? .testReqId = some id ∧
        (m.text? .senderCompId).getD "" = acceptor.target.text ∧
        (m.text? .targetCompId).getD "" = acceptor.sender.text ∧ m.seqNum? = some 3)) = true := by
    decide +kernel
  cases hdecode : Message.decode acceptor.beginString echo with
  | error e =>
    rw [hdecode] at hread
    cases hread
  | ok m =>
    rw [hdecode] at hread
    obtain ⟨htype, hid, hsender, htarget, hnumber⟩ := of_decide_eq_true hread
    exact ⟨open_acceptor, by decide +kernel, rfl,
      ⟨m, trivial, hdecode, hsender, htarget, hnumber, rfl⟩, ⟨m, hdecode, htype, hid⟩,
      by decide +kernel⟩

end Session

end FixProtocol
