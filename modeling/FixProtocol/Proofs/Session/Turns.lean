import FixProtocol.Proofs.Session.Calm
import FixProtocol.Session.Link

/-!
# What a session does that misses nothing

- `Turn`: what an operation has heard and said, and how it left the session.
- `turn_of_isOwn`: whatever the owner asks for, or the clock, is a turn that hears nothing.
- `ends_process_greeting`, `ends_process_ordinary`: the logon of the counterparty, and what follows
  it, is heard when it comes in order.
- `turn_of_ends_process`: a frame that is taken so is a turn.
-/

namespace FixProtocol.Session

open Call

variable {c d : SessionConfig} {seconds : Nat} {s t u : Session MemoryStore} {n : SeqNum}
  {p : Parked} {heard said : List Parked} {o : Outcome} {op : Operation} {now : Moment}

/-- What the owner of a session asks for, or the clock. The application sends messages of its own
only. -/
def Operation.IsOwn : Operation → Prop
  | .send type _ _ => isAppCode type
  | .receive _ _ => False
  | .disconnect _ => False
  | _ => True

/-- The message that an operation has sent for the application, as the other side reads it. -/
def Operation.sent (version : String) : Operation → Outcome → List Message
  | .send _ _ _, .sent (.ok frame) => (Message.decode version frame).toOption.toList
  | _, _ => []

/-- What the application sends is what the other side reads. -/
def Operation.IsWritten (version : String) : Operation → Outcome → Prop
  | .send type fields _, .sent (.ok frame) =>
    ∃ m, Message.decode version frame = .ok m ∧ m.msgType = .ofCode type.code ∧ fields <:+ m.fields
  | _, _ => True

/-- The failures that an operation reports and that do not end the session. -/
def Outcome.reported : Outcome → List Failure
  | .reacted (.ok reaction) => reaction.reported
  | _ => []

/-- The failure that has ended the session, if one has. -/
def Outcome.failure? : Outcome → Option Failure
  | .reacted (.error failure) => some failure
  | _ => none

/-- An operation that has not failed has not timed out. -/
theorem no_timeout {o : Outcome} (h : o.failure? = none) :
    ∀ failure ∈ o.failure?, failure.error.IsTimeout := by
  intro failure hfailure
  rw [h] at hfailure
  exact absurd hfailure (Option.not_mem_none failure)

/-- What a session says from `s` to `t`: nothing before its logon, then the logon, and then only
ordinary messages. -/
inductive Speaks (d : SessionConfig) (seconds : Nat) (s : Session MemoryStore) :
    List Parked → Session MemoryStore → Prop
  | silent {t : Session MemoryStore} (hs : s.IsSilent) (ht : t.IsSilent)
      (hnext : t.sequences.nextOutgoing = s.sequences.nextOutgoing) : Speaks d seconds s [] t
  | greets {t : Session MemoryStore} {p : Parked} (hs : s.IsSilent) (ht : ¬ t.IsSilent)
      (hp : IsLogon d s.sequences.nextOutgoing seconds p)
      (hnext : t.sequences.nextOutgoing = s.sequences.nextOutgoing + 1) : Speaks d seconds s [p] t
  | talks {t : Session MemoryStore} {said : List Parked} (hs : ¬ s.IsSilent) (ht : ¬ t.IsSilent)
      (h : Flying d s.sequences.nextOutgoing said t.sequences.nextOutgoing) :
      Speaks d seconds s said t

/-- What is said can be read, and asks for nothing that is missing. -/
theorem Speaks.mem (h : Speaks d seconds s said t) (hp : p ∈ said) :
    ∃ n, Genuine .any d n p ∧ p.message.msgType ≠ .resendRequest := by
  cases h with
  | silent => cases hp
  | greets _ _ hlogon _ =>
    rw [List.mem_singleton.mp hp]
    exact ⟨_, hlogon.genuine, hlogon.type ▸ by decide⟩
  | talks _ _ h =>
    obtain ⟨n, hgenuine, htype⟩ := h.mem hp
    exact ⟨n, hgenuine, htype.ne.1⟩

/-- What a session hears from `s` to `t`: nothing, or the expected message. -/
inductive Hears (s : Session MemoryStore) : List Parked → Session MemoryStore → Prop
  | nothing {t : Session MemoryStore}
      (hexpected : t.sequences.expectedIncoming = s.sequences.expectedIncoming)
      (hopen : t.terminated = false → s.terminated = false)
      (htalking : t.terminated = false → (t.IsTalking ↔ s.IsTalking)) : Hears s [] t
  | one {t : Session MemoryStore} (p : Parked) (hopen : s.terminated = false)
      (hexpected : t.sequences.expectedIncoming = s.sequences.expectedIncoming + 1)
      (htalking : t.terminated = false → t.IsTalking) : Hears s [p] t

/-- What an operation has heard and said, and how it left the session. -/
structure Turn (c d : SessionConfig) (seconds : Nat) (op : Operation) (s : Session MemoryStore)
    (o : Outcome) (t : Session MemoryStore) (heard said : List Parked) : Prop where
  calm : Calm c seconds t
  speaks : Speaks d seconds s said t
  hears : Hears s heard t
  /-- Only the initiator begins; the acceptor answers. -/
  begins : heard = [] → s.IsSilent → ¬ t.IsSilent → c.role = .initiator
  speakable : s.IsSilent → ¬ t.IsSilent → Speakable c
  frames : o.frames = said.map Parked.frame
  sent : op.sent d.beginString o = handed said
  written : op.IsWritten d.beginString o
  delivered : o.delivered = handed heard
  reported : o.reported = []
  timeout : ∀ failure ∈ o.failure?, failure.error.IsTimeout

/-- Who is silent has not spoken before. -/
theorem Turn.silent_before (h : Turn c d seconds op s o t heard said) (ht : t.IsSilent) :
    s.IsSilent := by
  cases h.speaks with
  | silent hs _ _ => exact hs
  | greets _ hspoken _ _ => exact absurd ht hspoken
  | talks _ hspoken _ => exact absurd ht hspoken

/-- An acceptor that hears nothing stays silent. -/
theorem Turn.silent_after (h : Turn c d seconds op s o t heard said) (hrole : c.role = .acceptor)
    (hnothing : heard = []) (hs : s.IsSilent) : t.IsSilent := by
  by_cases ht : t.IsSilent
  · exact ht
  · have hbegins := h.begins hnothing hs ht
    rw [hrole] at hbegins
    cases hbegins

/-! ## Operations that change little -/

theorem sent_of_ne (op : Operation) (version : String) (h : ∀ frame, o ≠ .sent (.ok frame)) :
    op.sent version o = [] ∧ op.IsWritten version o := by
  cases o with
  | sent answer =>
    cases answer with
    | ok frame => exact absurd rfl (h frame)
    | error e => cases op <;> exact ⟨rfl, trivial⟩
  | reacted answer => cases op <;> exact ⟨rfl, trivial⟩
  | closed => cases op <;> exact ⟨rfl, trivial⟩

/-- Where the session stands, and its numbers, stay the same. -/
structure Stays (s t : Session MemoryStore) : Prop where
  state : t.state = s.state
  terminated : t.terminated = s.terminated
  sequences : t.sequences = s.sequences

theorem Stays.refl (s : Session MemoryStore) : Stays s s :=
  ⟨rfl, rfl, rfl⟩

theorem Stays.isSilent_iff (h : Stays s t) : t.IsSilent ↔ s.IsSilent := by
  rw [IsSilent, IsSilent, h.state, h.terminated]

theorem Stays.isTalking_iff (h : Stays s t) : t.IsTalking ↔ s.IsTalking := by
  rw [IsTalking, IsTalking, h.state]

theorem Stays.speaks (h : Stays s t) : Speaks d seconds s [] t := by
  by_cases hs : s.IsSilent
  · exact .silent hs (h.isSilent_iff.mpr hs) (congrArg _ h.sequences)
  · refine .talks hs (fun ht => hs (h.isSilent_iff.mp ht)) ?_
    rw [h.sequences]
    exact .nil _

theorem Stays.hears (h : Stays s t) : Hears s [] t :=
  .nothing (congrArg _ h.sequences) (fun ht => h.terminated ▸ ht) (fun _ => h.isTalking_iff)

/-- An operation that is refused. -/
theorem turn_refused (h : Calm c seconds s) {e : Error} (hrefusal : Refusal s e t) :
    Turn c d seconds op s (.sent (.error e)) t [] [] := by
  obtain rfl := hrefusal.eq
  obtain ⟨hsent, hwritten⟩ := sent_of_ne (o := .sent (.error e)) op d.beginString nofun
  exact
    { calm := h
      speaks := (Stays.refl _).speaks
      hears := (Stays.refl _).hears
      begins := fun _ hs ht => absurd hs ht
      speakable := fun hs ht => absurd hs ht
      frames := rfl
      sent := hsent
      written := hwritten
      delivered := rfl
      reported := rfl
      timeout := no_timeout rfl }

/-- Nothing is due. -/
theorem turn_idle (h : Calm c seconds t) (hstays : Stays s t) :
    Turn c d seconds (.timer now) s (.reacted (.ok .empty)) t [] [] where
  calm := h
  speaks := hstays.speaks
  hears := hstays.hears
  begins := fun _ hs ht => absurd (hstays.isSilent_iff.mpr hs) ht
  speakable := fun hs ht => absurd (hstays.isSilent_iff.mpr hs) ht
  frames := rfl
  sent := rfl
  written := trivial
  delivered := rfl
  reported := rfl
  timeout := no_timeout rfl

theorem not_isSilent_terminate (t : Session MemoryStore) (now : Moment) :
    ¬ (t.terminate now).IsSilent :=
  fun h => Bool.false_ne_true h.1.symm

/-- A session that ends hears nothing any more. -/
theorem hears_terminate (hexpected : t.sequences.expectedIncoming = s.sequences.expectedIncoming)
    (now : Moment) : Hears s [] (t.terminate now) :=
  .nothing hexpected (fun h => absurd h.symm Bool.false_ne_true)
    (fun h => absurd h.symm Bool.false_ne_true)

/-- An answer did not come in time. -/
theorem turn_timeout (h : Calm c seconds t) (hs : ¬ s.IsSilent) (hstays : Stays s t) {e : Error}
    (he : e.IsTimeout) :
    Turn c d seconds (.timer now) s (.reacted (.error ⟨e, .disconnect⟩)) (t.terminate now) [] []
    where
  calm := h.terminate now
  speaks := by
    refine .talks hs (not_isSilent_terminate t now) ?_
    show Flying d s.sequences.nextOutgoing [] t.sequences.nextOutgoing
    rw [hstays.sequences]
    exact .nil _
  hears := hears_terminate (congrArg _ hstays.sequences) now
  begins := fun _ hsilent _ => absurd hsilent hs
  speakable := fun hsilent _ => absurd hsilent hs
  frames := rfl
  sent := rfl
  written := trivial
  delivered := rfl
  reported := rfl
  timeout := by
    intro failure hfailure
    cases hfailure
    exact he

/-! ## What is said after the logon -/

/-- What a session says from `s` to `t` when it is past its logon: ordinary messages, and it goes on
or ends. -/
structure Talks (c d : SessionConfig) (seconds : Nat) (s : Session MemoryStore)
    (said : List Parked) (t : Session MemoryStore) : Prop where
  calm : Calm c seconds t
  flying : Flying d s.sequences.nextOutgoing said t.sequences.nextOutgoing
  stays : t.terminated = false → t.IsTalking

theorem Talks.terminate (h : Talks c d seconds s said t) (now : Moment) :
    Talks c d seconds s said (t.terminate now) where
  calm := h.calm.terminate now
  flying := h.flying
  stays := fun hopen => absurd hopen.symm Bool.false_ne_true

theorem Talks.logout (h : Talks c d seconds s said t) (ht : t.IsTalking) (now : Moment) :
    Talks c d seconds s said (t.enter .logoutSent now) where
  calm :=
    { h.calm with
      ended := fun hended => by
        rw [show (t.enter .logoutSent now).terminated = t.terminated from rfl,
          h.calm.open_of_talking ht] at hended
        cases hended
      role := nofun
      interval := fun _ => h.calm.interval ht }
  flying := h.flying
  stays := fun _ => .inr rfl

/-- A session that is past its logon has written an ordinary message. -/
theorem talks_written (h : Calm c seconds s) (hd : Mirrored c d) (hs : s.IsTalking)
    {type : MsgType} (htype : (MsgType.ofCode type.code).IsOrdinary) {body : List Field}
    {frame : Bytes} {j : Journal}
    (hencode : Wire.encode (s.header type s.sequences.nextOutgoing now.utc ++ body) = .ok frame)
    (hj : s.store.outbound.append s.sequences.nextOutgoing frame = .ok j)
    (hfits : Fits [frame] j) :
    Talks c d seconds s [⟨⟨s.header type s.sequences.nextOutgoing now.utc ++ body⟩, frame⟩]
      (s.written { s.store with outbound := j } now) := by
  obtain ⟨hgenuine, hcalm⟩ := h.written hd hencode hj hfits
  refine ⟨hcalm, .single hgenuine ?_, fun _ => hs⟩
  rw [msgType_header]
  exact htype

/-- A session that is past its logon has heard nothing meanwhile. -/
theorem Talks.hears_nothing (h : Talks c d seconds s said t) (hcalm : Calm c seconds s)
    (hs : s.IsTalking)
    (hexpected : t.sequences.expectedIncoming = s.sequences.expectedIncoming) : Hears s [] t :=
  .nothing hexpected (fun _ => hcalm.open_of_talking hs) (fun ht => iff_of_true (h.stays ht) hs)

theorem Talks.turn (h : Talks c d seconds s said t) (hs : s.IsTalking) (hhears : Hears s heard t)
    (hframes : o.frames = said.map Parked.frame) (hsent : op.sent d.beginString o = handed said)
    (hwritten : op.IsWritten d.beginString o) (hdelivered : o.delivered = handed heard)
    (hreported : o.reported = []) (htimeout : ∀ failure ∈ o.failure?, failure.error.IsTimeout) :
    Turn c d seconds op s o t heard said where
  calm := h.calm
  speaks := .talks hs.not_silent (fun ht => (h.stays ht.1).not_silent ht) h.flying
  hears := hhears
  begins := fun _ hsilent _ => absurd hsilent hs.not_silent
  speakable := fun hsilent _ => absurd hsilent hs.not_silent
  frames := hframes
  sent := hsent
  written := hwritten
  delivered := hdelivered
  reported := hreported
  timeout := htimeout

/-! ## What the owner asks for -/

/-- The initiator has written its logon, and waits for the answer. -/
theorem turn_begun (hc : Speakable c) (hs : s.IsSilent) (hrole : c.role = .initiator)
    (hp : IsLogon d s.sequences.nextOutgoing seconds p) (hcalm : Calm c seconds t)
    (hopen : t.terminated = false)
    (hnext : t.sequences.nextOutgoing = s.sequences.nextOutgoing + 1)
    (hexpected : t.sequences.expectedIncoming = s.sequences.expectedIncoming) (now : Moment) :
    Turn c d seconds (.logon now) s (.sent (.ok p.frame)) (t.enter .logonSent now) [] [p] := by
  have hidle : ¬ (t.enter .logonSent now).IsTalking := by
    rintro (h | h)
    · cases h
    · cases h
  exact
    { calm := { hcalm with
        ended := fun hended => absurd (hopen.symm.trans hended) Bool.false_ne_true
        role := fun _ => hrole
        interval := fun ht => absurd ht hidle }
      speaks := .greets hs (fun ht => nomatch ht.2) hp hnext
      hears := .nothing hexpected (fun _ => hs.1)
        fun _ => iff_of_false hidle fun htalking => htalking.not_silent hs
      begins := fun _ _ _ => hrole
      speakable := fun _ _ => hc
      frames := rfl
      sent := by
        rw [handed_single, handedOver_of_eq hp.type rfl]
        rfl
      written := trivial
      delivered := rfl
      reported := rfl
      timeout := no_timeout rfl }

/-- The initiator begins, if its names can be written. -/
theorem ends_logon_calm (hvalid : c.validate = .ok ()) (hd : Mirrored c d) (h : Calm c seconds s)
    (hseconds : c.role = .initiator → c.heartbeatSeconds = seconds) (now : Moment) :
    Ends (logon now) s
      (fun frame t => Fits [frame] t.store.outbound →
        ∃ said, Turn c d seconds (.logon now) s (.sent (.ok frame)) t [] said) (Refusal s) := by
  obtain rfl := h.config_eq
  obtain ⟨_, _, ⟨_, hmax⟩, _⟩ := SessionConfig.validate_eq_ok_iff.mp hvalid
  refine ends_logon (fun _ => .idle) fun hopen hrole hstate => ?_
  obtain rfl := hseconds hrole
  refine ends_emit_of_lt h.outbound now (fun frame j hencode hj hfits => ?_)
    (fun _ _ => .idle _ rfl)
  have hc := speakable_of_encode hvalid hencode
  obtain ⟨hgenuine, hcalm⟩ := h.written hd hencode hj hfits
  exact ⟨_, turn_begun hc ⟨hopen, hstate⟩ hrole (isLogon_header hmax hgenuine) hcalm hopen rfl rfl
    now⟩

/-- A message of the application is written as it is. -/
theorem ends_send_calm (hd : Mirrored c d) (h : Calm c seconds s) {type : MsgType}
    (htype : isAppCode type) (fields : List Field) (now : Moment) :
    Ends (send type fields now) s
      (fun frame t => Fits [frame] t.store.outbound →
        ∃ said, Turn c d seconds (.send type fields now) s (.sent (.ok frame)) t [] said)
      (Refusal s) := by
  refine ends_send (fun _ => .idle) fun _ hstate _ => ?_
  refine ends_emit_of_lt h.outbound now (fun frame j hencode hj hfits => ?_)
    (fun _ _ => .idle _ rfl)
  have hs : s.IsTalking := .inl hstate
  have htalks := talks_written h hd hs (.inr (.inr (.inr htype))) hencode hj hfits
  have hdecoded := (h.written hd hencode hj hfits).1.decoded
  refine ⟨_, htalks.turn hs (htalks.hears_nothing h hs rfl) rfl ?_
    ⟨_, hdecoded, msgType_header, List.suffix_append _ _⟩ rfl rfl (no_timeout rfl)⟩
  have happ : (Message.msgType ⟨s.header type s.sequences.nextOutgoing now.utc ++ fields⟩).isApp =
      true := by
    rw [msgType_header]
    exact htype
  show (Message.decode d.beginString frame).toOption.toList = _
  rw [hdecoded, handed_single, handedOver_of_isApp happ]
  rfl

/-- A logout is written, and then the other side's is waited for. -/
theorem ends_logout_calm (hd : Mirrored c d) (h : Calm c seconds s) (text : Option String)
    (now : Moment) :
    Ends (logout text now) s
      (fun frame t => Fits [frame] t.store.outbound →
        ∃ said, Turn c d seconds (.logout text now) s (.sent (.ok frame)) t [] said)
      (Refusal s) := by
  refine ends_logout (fun _ => .idle) fun _ hstate => ?_
  refine ends_emit_of_lt h.outbound now (fun frame j hencode hj hfits => ?_)
    (fun _ _ => .idle _ rfl)
  have hs : s.IsTalking := .inl hstate
  have htalks := (talks_written h hd hs (.inr (.inr (.inl rfl))) hencode hj hfits).logout hs now
  refine ⟨_, htalks.turn hs (htalks.hears_nothing h hs rfl) rfl ?_ trivial rfl rfl
    (no_timeout rfl)⟩
  rw [handed_single, handedOver_of_eq msgType_header rfl]
  rfl

/-! ## What a session answers after the logon -/

/-- What a session that is past its logon answers: it still waits for nothing, and says an ordinary
message of its own or nothing. -/
structure Replies (c d : SessionConfig) (seconds : Nat) (s : Session MemoryStore) (r : Reaction)
    (t : Session MemoryStore) : Prop where
  parked_eq : t.recovery.parked = []
  pending_eq : t.recovery.pending = none
  expected : t.sequences.expectedIncoming = s.sequences.expectedIncoming
  reported : r.reported = []
  talks : Fits r.outbound t.store.outbound →
    ∃ said, r.outbound = said.map Parked.frame ∧ handed said = [] ∧ Talks c d seconds s said t

/-- Nothing is said. -/
theorem replies_nothing (h : Calm c seconds t) (ht : t.terminated = false → t.IsTalking)
    (hsequences : t.sequences = s.sequences) (delivered : List Message) :
    Replies c d seconds s ⟨[], delivered, []⟩ t where
  parked_eq := h.parked_eq
  pending_eq := h.pending_eq
  expected := congrArg _ hsequences
  reported := rfl
  talks := fun _ => by
    refine ⟨[], rfl, rfl, h, ?_, ht⟩
    rw [hsequences]
    exact .nil _

/-- A message of the session's own is said. -/
theorem ends_emit_replies (hc : Speakable c) (hd : Mirrored c d) (h : Calm c seconds s)
    (hs : s.IsTalking) {type : MsgType} {body : List Field}
    (htype : type = .heartbeat ∨ type = .testRequest ∨ type = .logout)
    (hbody : ∀ f ∈ body, Wire.IsBody f) (now : Moment) :
    Ends (emit type body now) s (fun frame t => Replies c d seconds s (.ofFrame frame) t)
      Never := by
  obtain ⟨hordinary, hlevel, hadmin⟩ : (MsgType.ofCode type.code).IsOrdinary ∧
      (MsgType.ofCode type.code).isSessionLevel = true ∧ type.isAdmin = true := by
    rcases htype with rfl | rfl | rfl
    · exact ⟨.inl rfl, rfl, rfl⟩
    · exact ⟨.inr (.inl rfl), rfl, rfl⟩
    · exact ⟨.inr (.inr (.inl rfl)), rfl, rfl⟩
  refine (ends_emit_ok (h.config_eq.symm ▸ hc) (Field.writable_msgType hadmin) hbody h.outbound
    now).imp ?_
  rintro frame t ⟨hencode, j, hj, rfl⟩
  refine ⟨h.parked_eq, h.pending_eq, rfl, rfl, fun hfits => ?_⟩
  refine ⟨_, rfl, ?_, talks_written h hd hs hordinary hencode hj hfits⟩
  rw [handed_single, handedOver_of_eq msgType_header hlevel]

theorem Replies.terminate {r : Reaction} (h : Replies c d seconds s r t) (now : Moment) :
    Replies c d seconds s r (t.terminate now) where
  parked_eq := rfl
  pending_eq := rfl
  expected := h.expected
  reported := h.reported
  talks := fun hfits => by
    obtain ⟨said, hframes, hhanded, htalks⟩ := h.talks hfits
    exact ⟨said, hframes, hhanded, htalks.terminate now⟩

/-- Only the numbers of the session that answers count. -/
theorem Replies.same {r : Reaction} (h : Replies c d seconds s r t)
    (hnext : u.sequences.nextOutgoing = s.sequences.nextOutgoing)
    (hexpected : u.sequences.expectedIncoming = s.sequences.expectedIncoming) :
    Replies c d seconds u r t where
  parked_eq := h.parked_eq
  pending_eq := h.pending_eq
  expected := h.expected.trans hexpected.symm
  reported := h.reported
  talks := fun hfits => by
    obtain ⟨said, hframes, hhanded, htalks⟩ := h.talks hfits
    exact ⟨said, hframes, hhanded, htalks.calm, hnext ▸ htalks.flying, htalks.stays⟩

/-! ## What the clock asks for -/

/-- A call gives up because an answer did not come in time; nothing was said. -/
structure GivesUp (c : SessionConfig) (seconds : Nat) (s : Session MemoryStore) (e : Error)
    (t : Session MemoryStore) : Prop where
  timeout : e.IsTimeout
  calm : Calm c seconds t
  stays : Stays s t

theorem ends_keepAlive_calm (hc : Speakable c) (hd : Mirrored c d) (h : Calm c seconds s)
    (hs : s.IsTalking) (now : Moment) :
    Ends (keepAlive now) s (fun r t => Replies c d seconds s r t ∧ r.delivered = [])
      (GivesUp c seconds s) := by
  have hpolled : Calm c seconds (s.polled now) := h.clock (s.heartbeat.interval_poll now)
  refine ends_keepAlive (fun _ => ?_) (fun _ => ?_) (fun testReqId hdue => ?_) fun waited _ => ?_
  · exact ⟨replies_nothing (s := s) hpolled (fun _ => hs) rfl [], rfl⟩
  · refine (ends_emit_replies hc hd hpolled hs (.inl rfl) (List.forall_mem_nil _) now).mono ?_
      (fun _ _ h => h.elim)
    exact fun _ _ hreplies => ⟨hreplies.same rfl rfl, rfl⟩
  · obtain rfl := (HeartbeatMonitor.eq_of_poll_testRequest hdue).1
    have hbody : ∀ f ∈ [Field.ofText .testReqId now.testReqId], Wire.IsBody f := by
      intro f hf
      rw [List.mem_singleton.mp hf]
      exact Wire.isBody_of_tag now.writable_testReqId (show Tag.testReqId ∉ _ by decide)
    refine (ends_emit_replies hc hd hpolled hs (.inr (.inl rfl)) hbody now).mono ?_
      (fun _ _ h => h.elim)
    exact fun _ _ hreplies => ⟨hreplies.same rfl rfl, rfl⟩
  · exact ⟨⟨waited, .inr rfl⟩, hpolled, ⟨rfl, rfl, rfl⟩⟩

theorem ends_retryResend_idle {E : Error → Session MemoryStore → Prop}
    (hpending : s.recovery.pending = none) (now : Moment) :
    Ends (retryResend now) s (fun r t => r = .empty ∧ t = s) E := by
  refine ends_retryResend_of_none ?_
  rw [GapRecovery.pollRetry, hpending]

/-- When time has passed, a session that has missed nothing says one thing or nothing, or it ends
because an answer did not come in time. -/
theorem ends_tick_calm (hc : ¬ s.IsSilent → Speakable c) (hd : Mirrored c d)
    (h : Calm c seconds s) (now : Moment) :
    Ends (tick now) s
      (fun r t => Fits r.outbound t.store.outbound →
        ∃ said, Turn c d seconds (.timer now) s (.reacted (.ok r)) t [] said)
      (fun e t => ¬ s.IsSilent ∧ GivesUp c seconds s e t) := by
  refine ends_tick ?nothing ?unanswered ?expired ?loggedOn
  case nothing => exact fun _ _ => ⟨[], turn_idle h (.refl s)⟩
  case unanswered =>
    intro _ hstate _
    have hs : ¬ s.IsSilent := by
      rintro ⟨_, hsilent⟩
      cases hstate.symm.trans hsilent
    exact ⟨hs, ⟨_, .inl rfl⟩, h, .refl s⟩
  case expired =>
    intro _ hstate _ hfits
    have hs : s.IsTalking := .inr hstate
    have hreplies : Replies c d seconds s .empty s := replies_nothing h (fun _ => hs) rfl []
    obtain ⟨said, hframes, hhanded, htalks⟩ := (hreplies.terminate now).talks hfits
    exact ⟨said, htalks.turn hs (htalks.hears_nothing h hs rfl) hframes hhanded.symm trivial
      rfl rfl (no_timeout rfl)⟩
  case loggedOn =>
    intro _ hstate
    have hs : s.IsTalking := .inl hstate
    refine (ends_keepAlive_calm (hc hs.not_silent) hd h hs now).mono ?_ fun _ _ hgives =>
      ⟨hs.not_silent, hgives⟩
    rintro r t ⟨hreplies, hdelivered⟩
    refine (ends_retryResend_idle hreplies.pending_eq now).imp ?_
    rintro _ _ ⟨rfl, rfl⟩ hfits
    rw [Reaction.append_empty] at hfits ⊢
    obtain ⟨said, hframes, hhanded, htalks⟩ := hreplies.talks hfits
    exact ⟨said, htalks.turn hs (htalks.hears_nothing h hs hreplies.expected) hframes
      hhanded.symm trivial hdelivered hreplies.reported (no_timeout rfl)⟩

/-! ## What the counterparty asks for -/

/-- A logout is answered, unless it is the answer itself, and then the session ends. -/
theorem ends_onLogout_calm (hc : Speakable c) (hd : Mirrored c d) (h : Calm c seconds s)
    (hs : s.IsTalking) (now : Moment) :
    Ends (onLogout now) s (fun r t => Replies c d seconds s r t ∧ r.delivered = []) Never :=
  ends_onLogout (fun _ => ⟨(replies_nothing h (fun _ => hs) rfl []).terminate now, rfl⟩) fun _ =>
    (ends_emit_replies hc hd h hs (.inr (.inr rfl)) (List.forall_mem_nil _) now).imp
      fun _ _ hreplies => ⟨hreplies.terminate now, rfl⟩

/-- An ordinary message is answered or handed over. -/
theorem ends_dispatch_ordinary (hc : Speakable c) (hd : Mirrored c d) (h : Calm c seconds s)
    (hs : s.IsTalking) {version : String} {frame : Bytes} {m : Message}
    (hdecode : Message.decode version frame = .ok m) (htype : m.msgType.IsOrdinary)
    (now : Moment) :
    Ends (dispatch m false now) s
      (fun r t => Replies c d seconds s r t ∧ r.delivered = handedOver m) Never := by
  rcases htype with heq | heq | heq | happ
  · rw [handedOver_of_eq heq rfl]
    have hclock := h.clock (s.heartbeat.interval_onHeartbeat (m.text? .testReqId))
    exact ends_dispatch_heartbeat heq
      ⟨replies_nothing (s := s) hclock (fun _ => hs) rfl [], rfl⟩
  · rw [handedOver_of_eq heq rfl]
    -- The identifier was read, so it can be written again.
    have hbody : ∀ f ∈ (m.get? .testReqId).toList, Wire.IsBody f := by
      intro f hf
      exact Message.isBody_of_get? hdecode (by decide) (Option.mem_toList.mp hf)
    exact ends_dispatch_testRequest heq
      ((ends_emit_replies hc hd h hs (.inl rfl) hbody now).imp fun _ _ h => ⟨h, rfl⟩)
  · rw [handedOver_of_eq heq rfl]
    exact ends_dispatch_logout heq (ends_onLogout_calm hc hd h hs now)
  · rw [handedOver_of_isApp happ]
    exact ends_dispatch_application (isSessionLevel_of_isApp happ)
      ⟨replies_nothing h (fun _ => hs) rfl [m], rfl⟩

/-- An ordinary message with the expected number is counted and kept, and then answered or handed
over. -/
theorem ends_onNumbered_ordinary (hc : Speakable c) (hd : Mirrored c d) (h : Calm c seconds s)
    (hs : s.IsTalking) (hp : Genuine .any c n p) (hn : n = s.sequences.expectedIncoming)
    (htype : p.message.msgType.IsOrdinary) (now : Moment) :
    Ends (onNumbered n p now) s
      (fun r t => Replies c d seconds (s.counted n) r t ∧ r.delivered = handedOver p.message)
      Never := by
  have hlast : (s.counted n).store.inbound.last < n := hn ▸ h.inbound
  obtain ⟨j, hj, hstore⟩ :=
    MemoryStore.append_of_lt (d := .inbound) (s := (s.counted n).store) hlast p.frame
  have hkept := (h.counted hn hp.valid).keep hj (SeqNum.lt_succ_of_isValid hp.valid)
  refine ends_onNumbered_next hp.valid hn (ends_accept_ok hstore
    ((ends_dispatch_ordinary hc hd hkept hs hp.decoded htype now).imp ?_))
  rintro r t ⟨hreplies, hdelivered⟩
  -- Nothing waits, so nothing comes out after the message.
  refine (ends_drain_idle hreplies.parked_eq hreplies.pending_eq now).imp ?_
  rintro _ _ ⟨rfl, rfl⟩
  rw [Reaction.append_empty]
  exact ⟨hreplies.same rfl rfl, hdelivered⟩

theorem ends_process_ordinary (hc : Speakable c) (hd : Mirrored c d) (h : Calm c seconds s)
    (hs : s.IsTalking) (hp : Genuine .any c s.sequences.expectedIncoming p)
    (htype : p.message.msgType.IsOrdinary) (now : Moment) :
    Ends (process p.frame now) s
      (fun r t => Fits r.outbound t.store.outbound →
        ∃ said, Turn c d seconds (.receive p.frame now) s (.reacted (.ok r)) t [p] said)
      Never := by
  have hopen := h.open_of_talking hs
  have hgenuine := h.config_eq.symm ▸ hp
  have hplain : isPlainReset p.message = false := by
    rw [isPlainReset, decide_eq_false htype.ne.2, Bool.false_and]
  refine ends_process_numbered hopen (SessionState.isEstablished_iff.mpr hs) hgenuine hplain
    ((ends_onNumbered_ordinary (s := s.heard now) hc hd (h.clock rfl) hs hp rfl htype now).imp ?_)
  rintro r t ⟨hreplies, hdelivered⟩ hfits
  obtain ⟨said, hframes, hhanded, htalks⟩ := hreplies.talks hfits
  have htalks : Talks c d seconds s said t := ⟨htalks.calm, htalks.flying, htalks.stays⟩
  refine ⟨said, htalks.turn hs (.one p hopen hreplies.expected htalks.stays) hframes
    hhanded.symm trivial ?_ hreplies.reported (no_timeout rfl)⟩
  rw [handed_single]
  exact hdelivered

/-! ## The logon of the counterparty -/

/-- The session logs on; the acceptor answers. -/
theorem ends_establish_calm (hc : Speakable c) (hd : Mirrored c d) (h : Calm c seconds s)
    (hopen : s.terminated = false) (hseconds : seconds ≤ SessionConfig.maxHeartbeatSeconds)
    (now : Moment) :
    Ends (establish seconds now) s
      (fun r t => t.store.inbound = s.store.inbound ∧
        t.sequences.expectedIncoming = s.sequences.expectedIncoming ∧ t.state = .loggedOn ∧
        r.delivered = [] ∧ r.reported = [] ∧ (Fits r.outbound t.store.outbound →
          Calm c seconds t ∧ Answers c d seconds s.sequences.nextOutgoing r.outbound
            t.sequences.nextOutgoing)) Never := by
  obtain rfl := h.config_eq
  have hlogged {u : Session MemoryStore} (hu : Calm s.config seconds u)
      (huopen : u.terminated = false) :
      Calm s.config seconds
        ({ u with
          heartbeat := u.heartbeat.reset (seconds * 1000) now.elapsed }.enter .loggedOn now) :=
    { hu with
      ended := fun hended => absurd (huopen.symm.trans hended) Bool.false_ne_true
      role := nofun
      interval := fun _ => rfl }
  refine ends_establish (fun hrole => ?_) fun hrole => ?_
  · exact ⟨rfl, rfl, rfl, rfl, rfl, fun _ => ⟨hlogged h hopen, .initiator hrole⟩⟩
  · refine (ends_emit_ok hc (Field.writable_msgType rfl) (isBody_logon _) h.outbound now).imp ?_
    rintro frame t ⟨hencode, j, hj, rfl⟩
    refine ⟨rfl, rfl, rfl, rfl, rfl, fun hfits => ?_⟩
    obtain ⟨hgenuine, hcalm⟩ := h.written hd hencode hj hfits
    exact ⟨hlogged hcalm hopen, .acceptor hrole (isLogon_header hseconds hgenuine)⟩

/-- What a session says when it logs on: the initiator has spoken before, and the acceptor has
not. -/
theorem Answers.speaks {frames : List Bytes}
    (h : Answers c d seconds s.sequences.nextOutgoing frames t.sequences.nextOutgoing)
    (hw : Awaits c s.state seconds) (hopen : s.terminated = false) (ht : t.IsTalking) :
    ∃ said, frames = said.map Parked.frame ∧ handed said = [] ∧ Speaks d seconds s said t := by
  generalize hstate : s.state = state at hw
  cases hw with
  | acceptor hrole _ _ =>
    obtain ⟨frame, m, rfl, hm, hnext⟩ := h.of_acceptor hrole
    refine ⟨[⟨m, frame⟩], rfl, ?_, .greets ⟨hopen, hstate⟩ ht.not_silent hm hnext⟩
    rw [handed_single, handedOver_of_eq hm.type rfl]
  | initiator hrole _ =>
    obtain ⟨rfl, hnext⟩ := h.of_initiator hrole
    refine ⟨[], rfl, rfl, .talks (fun hs => nomatch hstate.symm.trans hs.2) ht.not_silent ?_⟩
    rw [hnext]
    exact .nil _

/-- The logon of the counterparty is answered, if it is this side's turn, and kept. -/
theorem ends_onLogonPhase_calm (hc : Speakable c) (hd : Mirrored c d) (h : Calm c seconds s)
    (hopen : s.terminated = false) (hw : Awaits c s.state seconds)
    (hp : IsLogon c s.sequences.expectedIncoming seconds p) (now : Moment) :
    Ends (onLogonPhase s.sequences.expectedIncoming p now) (s.heard now)
      (fun r t => Fits r.outbound t.store.outbound →
        ∃ said, Turn c d seconds (.receive p.frame now) s (.reacted (.ok r)) t [p] said)
      Never := by
  obtain rfl := h.config_eq
  have hvalid := hp.genuine.valid
  have hheard : Calm s.config seconds (s.heard now) := h.clock rfl
  have haccepts : Accepts (s.heard now) p.message seconds := Awaits.accepts hw hp
  refine ends_onLogonPhase_next hvalid haccepts.checkLogon haccepts.agreeHeartbeat rfl
    ((ends_establish_calm hc hd (hheard.counted rfl hvalid) hopen haccepts.le now).imp ?_)
  rintro r t ⟨hinbound, hexpected, hstate, hdelivered, hreported, hanswers⟩
  -- The answer went to the other journal, so there is still room for the logon.
  have hlast : t.store.inbound.last < s.sequences.expectedIncoming := hinbound ▸ h.inbound
  obtain ⟨j, hj, hstore⟩ :=
    MemoryStore.append_of_lt (d := .inbound) (s := t.store) hlast p.frame
  rw [ends_append_ok hstore]
  intro hfits
  obtain ⟨hcalm, hanswers⟩ := hanswers hfits
  obtain ⟨said, hframes, hhanded, hspeaks⟩ := Answers.speaks (s := s)
    (t := { t with store := t.store.withJournal .inbound j }) hanswers hw hopen (.inl hstate)
  have hlt : s.sequences.expectedIncoming < t.sequences.expectedIncoming :=
    hexpected ▸ SeqNum.lt_succ_of_isValid hvalid
  refine ⟨said, ?_⟩
  exact
    { calm := hcalm.keep hj hlt
      speaks := hspeaks
      hears := .one p hopen hexpected fun _ => .inl hstate
      begins := fun hnil => absurd hnil (List.cons_ne_nil _ _)
      speakable := fun _ _ => hc
      frames := hframes
      sent := hhanded.symm
      written := trivial
      delivered := by
        rw [handed_single, handedOver_of_eq hp.type rfl]
        exact hdelivered
      reported := hreported
      timeout := no_timeout rfl }

theorem ends_process_greeting (hc : Speakable c) (hd : Mirrored c d) (h : Calm c seconds s)
    (hopen : s.terminated = false) (hw : Awaits c s.state seconds)
    (hp : IsLogon c s.sequences.expectedIncoming seconds p) (now : Moment) :
    Ends (process p.frame now) s
      (fun r t => Fits r.outbound t.store.outbound →
        ∃ said, Turn c d seconds (.receive p.frame now) s (.reacted (.ok r)) t [p] said)
      Never := by
  obtain rfl := h.config_eq
  exact ends_process_early hopen hw.isEstablished_eq hp.genuine
    (ends_onLogonPhase_calm hc hd h hopen hw hp now)

/-! ## Operations -/

/-- A call of the owner is a turn, whether it is refused or not. -/
theorem turn_of_ends_sent {call : Call MemoryStore Bytes} (h : Calm c seconds s)
    (hends : Ends call s
      (fun frame t => Fits [frame] t.store.outbound →
        ∃ said, Turn c d seconds op s (.sent (.ok frame)) t [] said) (Refusal s))
    (hfits : Fits (Outcome.sent (call.run s).1).frames (call.run s).2.store.outbound) :
    ∃ said, Turn c d seconds op s (.sent (call.run s).1) (call.run s).2 [] said := by
  unfold Ends at hends
  unfold Call.run at hfits ⊢
  cases heq : call s with
  | ok frame t =>
    rw [heq] at hends hfits
    exact hends hfits
  | error e t =>
    rw [heq] at hends
    exact ⟨[], turn_refused h hends⟩

/-- Time has passed. -/
theorem turn_of_timer (hc : ¬ s.IsSilent → Speakable c) (hd : Mirrored c d) (h : Calm c seconds s)
    (hfits : Fits (Outcome.reacted (s.onTimer now).1).frames (s.onTimer now).2.store.outbound) :
    ∃ said, Turn c d seconds (.timer now) s (.reacted (s.onTimer now).1) (s.onTimer now).2 []
      said := by
  have hends := ends_tick_calm hc hd h now
  unfold Ends at hends
  unfold onTimer Call.settle at hfits ⊢
  cases heq : tick now s with
  | ok r t =>
    rw [heq] at hends hfits
    exact hends hfits
  | error e t =>
    rw [heq] at hends
    obtain ⟨hs, htimeout, hcalm, hstays⟩ := hends
    exact ⟨[], turn_timeout hcalm hs hstays htimeout⟩

/-- Whatever the owner asks for, or the clock, nothing is heard, and only ordinary messages are said
after the logon. -/
theorem turn_of_isOwn (hvalid : c.validate = .ok ()) (hc : ¬ s.IsSilent → Speakable c)
    (hd : Mirrored c d) (hseconds : c.role = .initiator → c.heartbeatSeconds = seconds)
    (h : Calm c seconds s) (hop : op.IsOwn)
    (hfits : Fits (s.step op).1.frames (s.step op).2.store.outbound) :
    ∃ said, Turn c d seconds op s (s.step op).1 (s.step op).2 [] said := by
  cases op with
  | logon now => exact turn_of_ends_sent h (ends_logon_calm hvalid hd h hseconds now) hfits
  | send type fields now => exact turn_of_ends_sent h (ends_send_calm hd h hop fields now) hfits
  | logout text now => exact turn_of_ends_sent h (ends_logout_calm hd h text now) hfits
  | timer now => exact turn_of_timer hc hd h hfits
  | receive frame now => exact hop.elim
  | disconnect now => exact hop.elim

/-- A frame that is taken without failing is a turn that hears it. -/
theorem turn_of_ends_process {frame : Bytes}
    (hends : Ends (process frame now) s
      (fun r t => Fits r.outbound t.store.outbound →
        ∃ said, Turn c d seconds (.receive frame now) s (.reacted (.ok r)) t [p] said) Never)
    (hfits : Fits (s.step (.receive frame now)).1.frames
      (s.step (.receive frame now)).2.store.outbound) :
    ∃ said, Turn c d seconds (.receive frame now) s (s.step (.receive frame now)).1
      (s.step (.receive frame now)).2 [p] said := by
  obtain ⟨r, t, heq, hturn⟩ := receive_of_ends hends
  have hstep : s.step (.receive frame now) = (.reacted (.ok r), t) := by
    show (Outcome.reacted (s.receive frame now).1, (s.receive frame now).2) = _
    rw [heq]
  rw [hstep] at hfits ⊢
  exact hturn hfits

end FixProtocol.Session
