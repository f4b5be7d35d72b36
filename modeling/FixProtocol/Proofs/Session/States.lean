import FixProtocol.Proofs.Session.Idle
import FixProtocol.Proofs.Session.Numbering

/-!
# Nothing happens before both sides have logged on

A session goes from state to state along few ways, and into the one where messages are exchanged
only with the logon that it waits for. Before that it hands nothing over and sends nothing but its
own logon.

- `Welcomes`: the logon that a side waits for.
- `Passes`: the ways from state to state, and what leads along each.
- `Settled`: what is known of every session that can be reached, between two calls.
- `Steps`: what an operation does to such a session.
- `run_passes_states`: every operation of every run takes one of the ways or stays where it is.
-/

namespace FixProtocol.Session

open Call

variable {σ : Type} {s t : Session σ} {now : Moment}

/-- The interval that a side takes from a logon, in seconds: the one that begins wants its own back,
and the one that answers takes any that is valid. -/
def Agrees (c : SessionConfig) (seconds : Nat) : Prop :=
  match c.role with
  | .initiator => seconds = c.heartbeatSeconds
  | .acceptor => 1 ≤ seconds ∧ seconds ≤ SessionConfig.maxHeartbeatSeconds

/-- The frame holds the logon of the counterparty that a side waits for, under the number `n`, where
`expected` is the one that it expects. -/
structure Welcomes (c : SessionConfig) (expected : SeqNum) (frame : Bytes) (m : Message)
    (n : SeqNum) : Prop where
  decoded : Message.decode c.beginString frame = .ok m
  sender : m.text? .senderCompId = some c.target.text
  target : m.text? .targetCompId = some c.sender.text
  numbered : m.seqNum? = some n
  valid : n.isValid = true
  not_late : expected ≤ n
  type : m.msgType = .logon
  interval : ∃ seconds, m.nat64? .heartBtInt = some seconds ∧ Agrees c seconds.toNat

/-- The ways from state to state, and the operations that lead along them. -/
inductive Passes (c : SessionConfig) (expected : SeqNum) :
    SessionState → Operation → SessionState → Prop
  /-- The side that begins sends a logon. -/
  | begins (hrole : c.role = .initiator) (now : Moment) :
      Passes c expected .disconnected (.logon now) .logonSent
  /-- The answer to it arrives. -/
  | answered (hrole : c.role = .initiator) {frame : Bytes} {m : Message} {n : SeqNum}
      (h : Welcomes c expected frame m n) (now : Moment) :
      Passes c expected .logonSent (.receive frame now) .loggedOn
  /-- A logon arrives at the side that answers. -/
  | accepted (hrole : c.role = .acceptor) {frame : Bytes} {m : Message} {n : SeqNum}
      (h : Welcomes c expected frame m n) (now : Moment) :
      Passes c expected .disconnected (.receive frame now) .loggedOn
  | leaves (text : Option String) (now : Moment) :
      Passes c expected .loggedOn (.logout text now) .logoutSent
  | ends (state : SessionState) (op : Operation) : Passes c expected state op .disconnected

/-- Does the operation ask for what only a session that is logged on does? -/
def Operation.needsLogon : Operation → Bool
  | .send .. | .logout .. => true
  | _ => false

/-! ## Logging on -/

theorem checkLogon_cases {m : Message} (h : s.checkLogon m = .ok ()) :
    m.msgType = .logon ∧
      (s.state = .logonSent ∨ s.state = .disconnected ∧ s.config.role = .acceptor) := by
  unfold checkLogon at h
  split at h
  · cases h
  · next hstate htype => exact ⟨htype, .inl hstate⟩
  · next hstate htype =>
    split at h
    · next hrole => exact ⟨htype, .inr ⟨hstate, hrole⟩⟩
    · cases h
  · cases h

/-- The interval that is taken from a logon is the one that it declares. -/
theorem agrees_of_agreeHeartbeat {m : Message} {seconds : Nat}
    (h : s.agreeHeartbeat m = .ok seconds) :
    Agrees s.config seconds ∧
      ∃ declared, m.nat64? .heartBtInt = some declared ∧ declared.toNat = seconds := by
  unfold agreeHeartbeat at h
  split at h
  · cases h
  · next declared hdeclared =>
    unfold Agrees
    generalize s.config.role = role at h ⊢
    cases role with
    | initiator =>
      simp only at h
      split at h
      · next hsame =>
        cases h
        exact ⟨hsame, declared, hdeclared, rfl⟩
      · cases h
    | acceptor =>
      simp only at h
      split at h
      · next hvalid =>
        cases h
        exact ⟨hvalid, declared, hdeclared, rfl⟩
      · cases h

/-- A name that was made from a text is not what is read where there is none. -/
theorem text?_of_getD {id : CompId} (hid : CompId.ofText? id.text = some id) {o : Option String}
    (h : o.getD "" = id.text) : o = some id.text := by
  obtain ⟨_, hne, _⟩ := CompId.ofText?_eq_some_iff.mp hid
  cases o with
  | none => exact absurd h.symm hne
  | some text => exact congrArg some h

variable [MessageStore σ]

/-- Logging on enters the state, and whoever answers has a name to answer with. -/
theorem ends_establish_keeps (hvalid : s.config.validate = .ok ())
    (hnamed : s.config.role = .initiator → Speakable s.config) (seconds : Nat) (now : Moment) :
    Ends (establish seconds now) s
      (fun r t => r.delivered = [] ∧ Keeps s t ∧ t.state = .loggedOn ∧ Speakable s.config)
      Anyhow := by
  refine ends_establish (fun hrole => ⟨rfl, ⟨rfl, rfl, rfl, rfl⟩, rfl, hnamed hrole⟩) fun _ =>
    ends_emit_of_emits fun frame t hemits => ?_
  have hutters := hemits.utters
  exact ⟨rfl, ⟨hutters.config, hutters.terminated, hutters.recovery, hutters.expected⟩, rfl,
    hemits.speakable hvalid⟩

section
omit [MessageStore σ]

/-- An open session that is logged on is in order when all that is parked waits behind a gap. -/
theorem Idles.loggedOn (hs : Idles s) (hconfig : t.config = s.config)
    (hopen : t.terminated = s.terminated) (hstate : t.state = .loggedOn) (hwaits : Waits t)
    (hspeakable : Speakable s.config) : Idles t where
  isOpen := hopen.trans hs.isOpen
  waits := hwaits
  early := by
    intro hearly
    rw [hstate] at hearly
    cases hearly
  introduced := by
    rw [hconfig, hstate]
    exact ⟨hs.introduced.valid, nofun, fun _ => hspeakable⟩

/-- The side that begins has written its logon when it waits for the answer. -/
theorem Idles.speakable_initiator (hs : Idles s)
    (hstate : s.state = .logonSent ∨ s.state = .disconnected ∧ s.config.role = .acceptor)
    (hrole : s.config.role = .initiator) : Speakable s.config := by
  refine hs.introduced.named fun hdisconnected => ?_
  rcases hstate with hsent | ⟨_, hacceptor⟩
  · rw [hsent] at hdisconnected
    cases hdisconnected
  · rw [hrole] at hacceptor
    cases hacceptor

/-- A logon takes each side along its way. The ways differ in the role only. -/
theorem Idles.passes_logon (hs : Idles s) {n : SeqNum} {p : Parked}
    (hstate : s.state = .logonSent ∨ s.state = .disconnected ∧ s.config.role = .acceptor)
    (hspeakable : Speakable s.config) (hp : Genuine .any s.config n p)
    (htype : p.message.msgType = .logon) {seconds : Nat}
    (hseconds : s.agreeHeartbeat p.message = .ok seconds)
    (hnot_late : s.sequences.expectedIncoming ≤ n) (now : Moment) :
    Passes s.config s.sequences.expectedIncoming s.state (.receive p.frame now) .loggedOn := by
  obtain ⟨hagrees, declared, hdeclared, rfl⟩ := agrees_of_agreeHeartbeat hseconds
  have hwelcomes : Welcomes s.config s.sequences.expectedIncoming p.frame p.message n :=
    ⟨hp.decoded, text?_of_getD hspeakable.target hp.sender,
      text?_of_getD hspeakable.sender hp.target, hp.numbered, hp.valid, hnot_late, htype,
      declared, hdeclared, hagrees⟩
  rcases hstate with hsent | ⟨hdisconnected, hrole⟩
  · rw [hsent]
    exact .answered (hs.introduced.began hsent) hwelcomes now
  · rw [hdisconnected]
    exact .accepted hrole hwelcomes now

end

/-- Before logon, a message that does not fail is the logon that the session waits for, and logs it
on. It is handed over to nobody, and if it comes from behind a gap, it waits there. -/
theorem ends_onLogonPhase_idles (hs : Idles s) (hearly : s.state.isEstablished = false)
    {n : SeqNum} {p : Parked} (hp : Genuine .any s.config n p) (now : Moment) :
    Ends (onLogonPhase n p now) s
      (fun r t => r.delivered = [] ∧ Idles t ∧ t.state = .loggedOn ∧
        Passes s.config s.sequences.expectedIncoming s.state (.receive p.frame now) .loggedOn)
      Anyhow := by
  obtain ⟨hparked, hpending⟩ := hs.early hearly
  -- Whoever logs on can write its names, so the logon takes the session along its way.
  have hlogs {seconds : Nat} (hlogon : s.checkLogon p.message = .ok ())
      (hseconds : s.agreeHeartbeat p.message = .ok seconds)
      (hnot_late : s.sequences.expectedIncoming ≤ n) :
      (s.config.role = .initiator → Speakable s.config) ∧
        (Speakable s.config →
          Passes s.config s.sequences.expectedIncoming s.state (.receive p.frame now) .loggedOn) := by
    obtain ⟨htype, hstate⟩ := checkLogon_cases hlogon
    exact ⟨hs.speakable_initiator hstate, fun hspeakable =>
      hs.passes_logon hstate hspeakable hp htype hseconds hnot_late now⟩
  refine ends_onLogonPhase hp.valid (fun _ _ _ => trivial) (fun seconds hlogon hseconds heq => ?_)
    fun seconds hlogon hseconds hgt => ?_
  · obtain ⟨hnamed, hpasses⟩ := hlogs hlogon hseconds (heq ▸ UInt64.le_refl _)
    refine (ends_establish_keeps (s := s.counted n) hs.introduced.valid hnamed seconds now).imp ?_
    rintro r t ⟨hdelivered, hkeeps, ht, hspeakable⟩
    refine ends_append.mpr ⟨fun store _ => ⟨hdelivered, ?_, ht, hpasses hspeakable⟩,
      fun _ _ _ => trivial⟩
    refine hs.loggedOn hkeeps.config hkeeps.terminated ht (waits_of_empty ?_ ?_) hspeakable
    · exact (congrArg _ hkeeps.recovery).trans hparked
    · exact (congrArg _ hkeeps.recovery).trans hpending
  · obtain ⟨hnamed, hpasses⟩ := hlogs hlogon hseconds (UInt64.le_of_lt hgt)
    refine (ends_establish_keeps hs.introduced.valid hnamed seconds now).imp ?_
    rintro r t ⟨hdelivered, hkeeps, ht, hspeakable⟩
    refine ends_park.mpr ⟨fun recovery hpark => ?_, fun _ _ => trivial⟩
    have hbehind : ∀ e ∈ recovery.parked, s.sequences.expectedIncoming < e.1 := by
      intro e he
      rcases mem_of_mem_park hpark he with rfl | he
      · exact hgt
      · rw [hkeeps.recovery, hparked] at he
        cases he
    rw [← hkeeps.expected] at hbehind hgt hpasses ⊢
    refine (ends_requestResend_waits (s := { t with recovery }) hbehind (SeqNum.le_sub_one hgt)
      now).imp ?_
    rintro r' u ⟨hnone, hremains, hwaits⟩
    have hu : u.state = .loggedOn := hremains.state.trans ht
    refine ⟨?_, ?_, hu, hpasses hspeakable⟩
    · rw [Reaction.delivered_append, hdelivered, hnone, List.append_nil]
    · exact hs.loggedOn (hremains.config.trans hkeeps.config)
        (hremains.terminated.trans hkeeps.terminated) hu hwaits hspeakable

/-! ## Operations -/

/-- A session that can be reached, between two calls. -/
inductive Settled (s : Session σ) : Prop
  | ended (h : HasEnded s)
  | idle (h : Idles s)

omit [MessageStore σ] in
/-- A session that exchanges messages has not ended. -/
theorem Settled.idles (h : Settled s) (hstate : s.state.isEstablished = true) : Idles s := by
  cases h with
  | idle h => exact h
  | ended h =>
    rw [h.state] at hstate
    cases hstate

omit [MessageStore σ] in
/-- A session with an open request exchanges messages. -/
theorem Settled.isEstablished_of_pending (h : Settled s) {range : ResendRange}
    (hpending : s.recovery.pending = some range) : s.state.isEstablished = true := by
  cases h with
  | idle h =>
    cases hstate : s.state.isEstablished with
    | true => rfl
    | false =>
      rw [(h.early hstate).2] at hpending
      cases hpending
  | ended h =>
    rw [h.pending] at hpending
    cases hpending

/-- What an operation does: it takes one of the ways or stays in its state, and before messages are
exchanged nothing is handed over and nothing is sent that needs a logon. -/
structure Steps (s : Session σ) (op : Operation) (o : Outcome) (t : Session σ) : Prop where
  settled : Settled t
  passes : t.state = s.state ∨
    Passes s.config s.sequences.expectedIncoming s.state op t.state
  early : s.state.isEstablished = false → o.delivered = []
  refused : s.state.isEstablished = false → op.needsLogon = true → o.succeeded = false

section
omit [MessageStore σ]

theorem Idles.clock (hs : Idles s) (heartbeat : HeartbeatMonitor) :
    Idles { s with heartbeat } where
  isOpen := hs.isOpen
  waits := ⟨hs.waits.behind, hs.waits.asked, hs.waits.range⟩
  early := hs.early
  introduced := hs.introduced

theorem Idles.utters (hs : Idles s) (h : Utters s t) : Idles t where
  isOpen := h.terminated.trans hs.isOpen
  waits := h.waits hs.waits
  early := by
    rw [h.state, h.recovery]
    exact hs.early
  introduced := by
    rw [h.config, h.state]
    exact hs.introduced

/-- A session that rests in a state where messages are exchanged is settled. -/
theorem Rests.settled (hs : Idles s) (hstate : s.state.isEstablished = true) (h : Rests s t) :
    Settled t := by
  cases h with
  | ended h => exact .ended h
  | goesOn hremains hwaits =>
    refine .idle ⟨hremains.terminated.trans hs.isOpen, hwaits, fun hearly => ?_, ?_⟩
    · rw [hremains.state, hstate] at hearly
      cases hearly
    · rw [hremains.config, hremains.state]
      exact hs.introduced

theorem Rests.passes (h : Rests s t) (op : Operation) :
    t.state = s.state ∨ Passes s.config s.sequences.expectedIncoming s.state op t.state := by
  cases h with
  | ended h =>
    rw [h.state]
    exact .inr (.ends _ _)
  | goesOn hremains _ => exact .inl hremains.state

/-- An operation of a session that exchanges messages does nothing too early. -/
theorem Rests.steps (hs : Idles s) (hstate : s.state.isEstablished = true) (h : Rests s t)
    (op : Operation) (o : Outcome) : Steps s op o t where
  settled := h.settled hs hstate
  passes := h.passes op
  early := by
    rw [hstate]
    exact nofun
  refused := by
    rw [hstate]
    exact nofun

end

/-- After a reset of the expected number, all that is parked waits behind a gap again. -/
theorem ends_reset_rests (hs : Idles s) (m : Message) (now : Moment) :
    Ends (applySequenceReset m) s (fun _ t => Ends (drain now) t (fun _ u => Rests s u) Anyhow)
      Anyhow := by
  refine (ends_applySequenceReset_advances m).imp ?_
  intro _ t hadvances
  have hfirst : ∀ range ∈ t.recovery.pending, range.first ≤ t.sequences.expectedIncoming := by
    rw [hadvances.recovery]
    exact fun range h => UInt64.le_trans (hs.waits.range range h).1 hadvances.expected
  refine (ends_drain_waits (hadvances.terminated.trans hs.isOpen) hfirst now).imp ?_
  exact fun _ u hrests => hrests.after hadvances.toRemains

/-- What a frame does to an open session, if the call does not fail. Before messages are exchanged
it logs the session on. -/
theorem ends_process_steps (hs : Idles s) (frame : Bytes) (now : Moment) :
    Ends (process frame now) s
      (fun r t => Steps s (.receive frame now) (.reacted (.ok r)) t ∧
        (s.state.isEstablished = false → t.state = .loggedOn)) Anyhow := by
  have hheard : Idles (s.heard now) := hs.clock _
  have hremains : Remains s (s.heard now) := ⟨rfl, rfl, rfl⟩
  have hnumbered (hlate : s.state.isEstablished = true) {r : Reaction} {t : Session σ}
      (hrests : Rests (s.heard now) t) :
      Steps s (.receive frame now) (.reacted (.ok r)) t ∧
        (s.state.isEstablished = false → t.state = .loggedOn) := by
    refine ⟨(hrests.after hremains).steps hs hlate _ _, fun hearly => ?_⟩
    rw [hlate] at hearly
    cases hearly
  refine ends_process (I := .any) trivial ?refused ?early ?reset ?numbered
  case refused => exact fun _ _ _ _ _ => trivial
  case early =>
    intro _ hearly n m hp
    refine (ends_onLogonPhase_idles hheard hearly hp now).imp ?_
    rintro r t ⟨hdelivered, hidles, hstate, hpasses⟩
    refine ⟨⟨.idle hidles, .inr (hstate ▸ hpasses), fun _ => hdelivered, fun _ h => ?_⟩,
      fun _ => hstate⟩
    exact absurd h Bool.false_ne_true
  case reset =>
    exact fun _ hlate _ m _ _ => (ends_reset_rests hheard m now).imp fun _ _ h =>
      h.imp fun _ _ => hnumbered hlate
  case numbered =>
    exact fun _ hlate _ _ hp _ => (ends_onNumbered_rests hheard.isOpen hheard.waits hp.valid _
      now).imp fun _ _ => hnumbered hlate

/-- What the passing of time does to an open session, if the call does not fail. -/
theorem ends_tick_steps (hs : Idles s) (now : Moment) :
    Ends (tick now) s
      (fun r t => Steps s (.timer now) (.reacted (.ok r)) t ∧
        ∀ frame ∈ r.outbound, ∃ m, Prompts s frame m) Anyhow := by
  have hidle : Steps s (.timer now) (.reacted (.ok .empty)) s :=
    ⟨.idle hs, .inl rfl, fun _ => rfl, fun _ h => absurd h Bool.false_ne_true⟩
  refine ends_tick ?nothing ?unanswered ?expired ?loggedOn
  case nothing => exact fun _ => ⟨hidle, List.forall_mem_nil _⟩
  case unanswered => exact fun _ _ _ => trivial
  case expired =>
    intro _ hstate _
    have hrests : Rests s (s.terminate now) := .ended (hasEnded_terminate s now)
    exact ⟨hrests.steps hs (by rw [hstate]; rfl) _ _, List.forall_mem_nil _⟩
  case loggedOn =>
    intro _ hstate
    refine (ends_keepAlive_utters now).imp ?_
    rintro r t ⟨hutters, hprompts⟩
    refine (ends_retryResend_waits (hutters.waits hs.waits) now).imp ?_
    rintro r' u ⟨hremains, hwaits, hprompts'⟩
    have hrests : Rests s u := .goesOn (hutters.remains.trans hremains) hwaits
    refine ⟨hrests.steps hs (by rw [hstate]; rfl) _ _, fun frame hframe => ?_⟩
    rcases List.mem_append.mp hframe with hframe | hframe
    · exact hprompts frame hframe
    · obtain ⟨m, hm⟩ := hprompts' frame hframe
      exact ⟨m, hm.utters hutters⟩

/-- What is refused leaves a session in its state. -/
theorem Idles.steps_refused (hs : Idles s) {e : Error} (h : Refusal s e t) (op : Operation) :
    Steps s op (.sent (.error e)) t :=
  ⟨.idle (hs.utters h.utters), .inl h.utters.state, fun _ => rfl, fun _ _ => rfl⟩

/-- A state is entered after a message was written. -/
theorem Idles.enter (hs : Idles s) {type : MsgType} {body : List Field} {frame : Bytes}
    {now : Moment} (hemits : Emits s type body now frame t) {state : SessionState}
    (hbegan : state = .logonSent → s.config.role = .initiator)
    (hearly : state.isEstablished = false → s.recovery.parked = [] ∧ s.recovery.pending = none) :
    Idles (t.enter state now) := by
  have hutters := hemits.utters
  have hwaits := hutters.waits hs.waits
  refine ⟨hutters.terminated.trans hs.isOpen, ⟨hwaits.behind, hwaits.asked, hwaits.range⟩, ?_, ?_⟩
  · rw [← hutters.recovery] at hearly
    exact hearly
  · show Introduced t.config state
    rw [hutters.config]
    exact ⟨hs.introduced.valid, hbegan, fun _ => hemits.speakable hs.introduced.valid⟩

omit [MessageStore σ] in
/-- A call that fails has ended the session. -/
theorem steps_settle {call : Call σ Reaction} {op : Operation} {Q : Reaction → Session σ → Prop}
    (h : Ends call s Q Anyhow) (hQ : ∀ r t, Q r t → Steps s op (.reacted (.ok r)) t)
    (now : Moment) : Steps s op (.reacted (call.settle s now).1) (call.settle s now).2 := by
  rcases settle_cases h now with ⟨r, t, hsettle, hsteps⟩ | ⟨e, t, hsettle⟩
  · rw [hsettle]
    exact hQ r t hsteps
  · rw [hsettle]
    exact ⟨.ended (hasEnded_terminate t now), .inr (.ends _ _), fun _ => rfl, fun _ _ => rfl⟩

/-- Every operation of an open session takes one of the ways or stays where it is. -/
theorem Idles.steps (hs : Idles s) (op : Operation) : Steps s op (s.step op).1 (s.step op).2 := by
  cases op with
  | logon now =>
    show Steps s _ (.sent ((Session.logon now).run s).1) ((Session.logon now).run s).2
    rcases run_cases (ends_logon_emits (s := s) now) with
      ⟨frame, _, hrun, _, hrole, hstate, u, hemits, rfl⟩ | ⟨e, t, hrun, hrefusal⟩
    · rw [hrun]
      have hearly := hs.early (by rw [hstate]; rfl)
      refine ⟨.idle (hs.enter hemits (fun _ => hrole) fun _ => hearly), .inr ?_, fun _ => rfl,
        fun _ => nofun⟩
      rw [hstate]
      exact .begins hrole now
    · rw [hrun]
      exact hs.steps_refused hrefusal _
  | send type fields now =>
    show Steps s _ (.sent ((Session.send type fields now).run s).1)
      ((Session.send type fields now).run s).2
    rcases run_cases (ends_send_emits (s := s) type fields now) with
      ⟨frame, t, hrun, _, hstate, _, hemits⟩ | ⟨e, t, hrun, hrefusal⟩
    · rw [hrun]
      have hrests : Rests s t := .goesOn hemits.utters.remains (hemits.utters.waits hs.waits)
      exact hrests.steps hs (by rw [hstate]; rfl) _ _
    · rw [hrun]
      exact hs.steps_refused hrefusal _
  | logout text now =>
    show Steps s _ (.sent ((Session.logout text now).run s).1) ((Session.logout text now).run s).2
    rcases run_cases (ends_logout_emits (s := s) text now) with
      ⟨frame, _, hrun, _, hstate, u, hemits, rfl⟩ | ⟨e, t, hrun, hrefusal⟩
    · rw [hrun]
      refine ⟨.idle (hs.enter hemits nofun nofun), .inr ?_, fun _ => rfl, fun hearly => ?_⟩
      · rw [hstate]
        exact .leaves text now
      · rw [hstate] at hearly
        cases hearly
    · rw [hrun]
      exact hs.steps_refused hrefusal _
  | receive frame now =>
    exact steps_settle (ends_process_steps hs frame now) (fun _ _ h => h.1) now
  | timer now => exact steps_settle (ends_tick_steps hs now) (fun _ _ h => h.1) now
  | disconnect now =>
    have hended : s.disconnect now = s.terminate now :=
      if_neg (Bool.eq_false_iff.mp hs.isOpen)
    show Steps s _ .closed (s.disconnect now)
    rw [hended]
    exact ⟨.ended (hasEnded_terminate s now), .inr (.ends _ _), fun _ => rfl, fun _ => nofun⟩

omit [MessageStore σ] in
theorem HasEnded.utters (hs : HasEnded s) (h : Utters s t) : HasEnded t where
  terminated := h.terminated.trans hs.terminated
  state := h.state.trans hs.state
  parked := by rw [h.recovery, hs.parked]
  pending := by rw [h.recovery, hs.pending]

omit [MessageStore σ] in
/-- A session that has ended does nothing but refuse. -/
theorem HasEnded.steps_ended (hs : HasEnded s) (ht : HasEnded t) {op : Operation} {o : Outcome}
    (hdelivered : o.delivered = []) (hrefused : op.needsLogon = true → o.succeeded = false) :
    Steps s op o t :=
  ⟨.ended ht, .inl (ht.state.trans hs.state.symm), fun _ => hdelivered, fun _ => hrefused⟩

/-- What only an open session sends is refused. -/
theorem HasEnded.steps_refused (hs : HasEnded s) {op : Operation} {call : Call σ Bytes}
    {Q : Bytes → Session σ → Prop}
    (hends : Ends call s (fun frame t => s.terminated = false ∧ Q frame t) (Refusal s)) :
    Steps s op (.sent (call.run s).1) (call.run s).2 := by
  rcases run_cases hends with ⟨_, _, _, hopen, _⟩ | ⟨e, t, hrun, hrefusal⟩
  · rw [hs.terminated] at hopen
    cases hopen
  · rw [hrun]
    exact hs.steps_ended (hs.utters hrefusal.utters) rfl fun _ => rfl

/-- Every operation leaves a session that has ended as it is. -/
theorem HasEnded.steps (hs : HasEnded s) (op : Operation) :
    Steps s op (s.step op).1 (s.step op).2 := by
  cases op with
  | logon now => exact hs.steps_refused (ends_logon_emits now)
  | send type fields now => exact hs.steps_refused (ends_send_emits type fields now)
  | logout text now => exact hs.steps_refused (ends_logout_emits text now)
  | receive frame now =>
    have hclosed : ¬ s.terminated = false := by
      rw [hs.terminated]
      exact nofun
    have hends : Ends (process frame now) s (fun _ _ => False) Anyhow :=
      ends_process (I := .any) trivial (fun _ _ _ _ _ => trivial)
        (fun hopen => absurd hopen hclosed) (fun hopen => absurd hopen hclosed)
        (fun hopen => absurd hopen hclosed)
    exact steps_settle hends (fun _ _ hnever => hnever.elim) now
  | timer now =>
    refine steps_settle (ends_tick_of_ended hs.terminated now) ?_ now
    rintro _ _ ⟨rfl, rfl⟩
    exact hs.steps_ended hs rfl (fun h => absurd h Bool.false_ne_true)
  | disconnect now =>
    have hsame : s.disconnect now = s := if_pos hs.terminated
    show Steps s _ .closed (s.disconnect now)
    rw [hsame]
    exact hs.steps_ended hs rfl (fun h => absurd h Bool.false_ne_true)

theorem Settled.steps (hs : Settled s) (op : Operation) :
    Steps s op (s.step op).1 (s.step op).2 := by
  cases hs with
  | ended h => exact h.steps op
  | idle h => exact h.steps op

/-! ## Runs -/

theorem Settled.run (hs : Settled s) (ops : List Operation) : Settled (s.run ops).2 := by
  induction ops generalizing s with
  | nil => exact hs
  | cons op ops ih => exact ih (hs.steps op).settled

/-- A new session idles. -/
theorem settled_of_open {config : SessionConfig} {store : σ} {start : Nat}
    (h : open? config store start = .ok s) : Settled s := by
  obtain ⟨hvalid, rfl⟩ := open?_eq_ok_iff.mp h
  exact .idle ⟨rfl, waits_of_empty rfl rfl, fun _ => ⟨rfl, rfl⟩, hvalid, nofun,
    fun hne => absurd rfl hne⟩

theorem settled_run_of_open {config : SessionConfig} {store : σ} {start : Nat}
    (h : open? config store start = .ok s) (ops : List Operation) : Settled (s.run ops).2 :=
  (settled_of_open h).run ops

omit [MessageStore σ] in
/-- A session in a state before messages are exchanged leaves it only by logging on. -/
theorem Steps.isEstablished_eq {op : Operation} {o : Outcome} (h : Steps s op o t)
    (hearly : s.state.isEstablished = false) (hne : t.state ≠ .loggedOn) :
    t.state.isEstablished = false := by
  rcases h.passes with hsame | hpasses
  · rw [hsame]
    exact hearly
  · generalize s.state = state at hpasses hearly
    generalize t.state = state' at hpasses hne
    cases hpasses with
    | begins => rfl
    | answered => exact absurd rfl hne
    | accepted => exact absurd rfl hne
    | leaves => cases hearly
    | ends => rfl

/-- A run that never was logged on is in a state before messages are exchanged. The induction is on
the operations, of which the first may not log on. -/
theorem Settled.run_early (hs : Settled s) (hearly : s.state.isEstablished = false)
    {ops : List Operation}
    (hnever : ∀ before, before <+: ops → (s.run before).2.state ≠ .loggedOn) :
    (s.run ops).2.state.isEstablished = false := by
  induction ops generalizing s with
  | nil => exact hearly
  | cons op ops ih =>
    have hsteps := hs.steps op
    have hne : (s.step op).2.state ≠ .loggedOn :=
      hnever [op] (List.cons_prefix_cons.mpr ⟨rfl, List.nil_prefix⟩)
    refine ih hsteps.settled (hsteps.isEstablished_eq hearly hne) fun before hbefore => ?_
    exact hnever (op :: before) (List.cons_prefix_cons.mpr ⟨rfl, hbefore⟩)

/-- Over every run of a new session, whatever arrives: an operation changes the state only along one
of the ways, so that messages are exchanged only after the logon that the side waits for. As long as
that has not happened, nothing is handed over, and neither a message nor a logout is sent. -/
theorem run_passes_states {config : SessionConfig} {store : σ} {start : Nat} {s₀ : Session σ}
    (h : open? config store start = .ok s₀) (ops : List Operation) (op : Operation) :
    let s := (s₀.run ops).2
    let t := (s.step op).2
    (t.state = s.state ∨ Passes config s.sequences.expectedIncoming s.state op t.state) ∧
      ((∀ before, before <+: ops → (s₀.run before).2.state ≠ .loggedOn) →
        (s.step op).1.delivered = [] ∧
          (op.needsLogon = true → (s.step op).1.succeeded = false)) := by
  intro s t
  have hconfig : s.config = config := config_run_of_open h ops
  have hsteps := (settled_run_of_open h ops).steps op
  refine ⟨hconfig ▸ hsteps.passes, fun hnever => ?_⟩
  have hnew : s₀.state.isEstablished = false := by
    obtain ⟨_, rfl⟩ := open?_eq_ok_iff.mp h
    rfl
  have hearly : s.state.isEstablished = false := (settled_of_open h).run_early hnew hnever
  exact ⟨hsteps.early hearly, hsteps.refused hearly⟩

/-- The logon of the other side takes an acceptor along its way, and hands nothing over. -/
theorem run_passes_states_acceptor :
    let s₀ : Session MemoryStore := .fresh Sample.acceptor .empty 0
    let op : Operation := .receive (Sample.logon Sample.initiator) Sample.moment
    open? Sample.acceptor MemoryStore.empty 0 = .ok s₀ ∧
      (s₀.step op).2.state = .loggedOn ∧
      Passes Sample.acceptor 1 .disconnected op .loggedOn ∧ (s₀.step op).1.delivered = [] := by
  intro s₀ op
  have hstate : (s₀.step op).2.state = .loggedOn := by decide +kernel
  obtain ⟨hpasses, hearly⟩ := run_passes_states Sample.open_acceptor [] op
  have hnever : ∀ before, before <+: [] → (s₀.run before).2.state ≠ .loggedOn := by
    intro before hbefore
    rw [List.prefix_nil.mp hbefore]
    exact nofun
  refine ⟨Sample.open_acceptor, hstate, ?_, (hearly hnever).1⟩
  rcases hpasses with hsame | hpasses
  · exact absurd (hsame.symm.trans hstate) (by decide)
  · exact hstate ▸ hpasses

end FixProtocol.Session
