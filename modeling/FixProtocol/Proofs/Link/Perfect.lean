import FixProtocol.Proofs.Session.Numbering
import FixProtocol.Proofs.Session.Turns

/-!
# Perfect links

On a perfect link every frame arrives, in order, unless the side that it is for has ended. Two
sides that are in step when they begin stay in step, whatever their owners do, and whenever.

- `Link.Perfect`: what happened on such a link, and how it stands.
- `Link.Travels`: the messages between two sessions, from the logon on.
- `Link.Joint`: both sessions have missed nothing, and what is between them is what is missing yet.
- `Link.InStep`, `Link.perfect_inStep`: what holds in every state of a perfect link.
-/

namespace FixProtocol

open Session

namespace Side

theorem other_other (side : Side) : side.other.other = side := by
  cases side
  · rfl
  · rfl

theorem other_ne (side : Side) : side.other ≠ side := by
  cases side
  · exact nofun
  · exact nofun

theorem eq_or_eq_other (side side' : Side) : side' = side ∨ side' = side.other := by
  cases side
  · cases side'
    · exact .inl rfl
    · exact .inr rfl
  · cases side'
    · exact .inr rfl
    · exact .inl rfl

end Side

namespace Link

variable {config : Side → SessionConfig} {version : String} {seconds : Nat} {l l₀ : Link MemoryStore}
  {side : Side} {op : Operation} {o : Outcome} {s t x x' y y' : Session MemoryStore} {p : Parked}
  {ps heard said : List Parked} {queue rest : List Bytes} {frame : Bytes}
  {sent delivered : List Message}

/-! ## What happens -/

/-- An operation on one side, and what it answered. -/
structure Event where
  side : Side
  op : Operation
  outcome : Outcome

/-- What may happen on a perfect link: the owner of a side, or its clock, asks for something, or the
first frame that waits for a side arrives there. A side that has ended gets no more frames. -/
inductive Perfect (l₀ : Link MemoryStore) : List Event → Link MemoryStore → Prop
  | start : Perfect l₀ [] l₀
  | act {log : List Event} {l : Link MemoryStore} (h : Perfect l₀ log l) (side : Side)
      {op : Operation} (hop : op.IsOwn) :
      Perfect l₀ (log ++ [⟨side, op, (l.act side op).1⟩]) (l.act side op).2
  | deliver {log : List Event} {l : Link MemoryStore} (h : Perfect l₀ log l) (side : Side)
      {frame : Bytes} {rest : List Bytes} (hopen : (l.session side).terminated = false)
      (hqueue : l.queue side = frame :: rest) (now : Moment) :
      Perfect l₀ (log ++ (l.deliver side 1 now).1.map fun o => ⟨side, .receive frame now, o⟩)
        (l.deliver side 1 now).2

/-- The messages that one side has sent for its application, as the other side reads them. -/
def sentBy (version : String) (side : Side) (log : List Event) : List Message :=
  log.flatMap fun e => if e.side = side then e.op.sent version e.outcome else []

/-- The messages that were handed over to the application of one side. -/
def deliveredTo (side : Side) (log : List Event) : List Message :=
  log.flatMap fun e => if e.side = side then e.outcome.delivered else []

theorem sentBy_append_self (log : List Event) (e : Event) :
    sentBy version e.side (log ++ [e]) =
      sentBy version e.side log ++ e.op.sent version e.outcome := by
  rw [sentBy, List.flatMap_append, List.flatMap_singleton, if_pos rfl]
  rfl

theorem sentBy_append_other (log : List Event) (e : Event) :
    sentBy version e.side.other (log ++ [e]) = sentBy version e.side.other log := by
  rw [sentBy, List.flatMap_append, List.flatMap_singleton, if_neg e.side.other_ne.symm,
    List.append_nil]
  rfl

theorem deliveredTo_append_self (log : List Event) (e : Event) :
    deliveredTo e.side (log ++ [e]) = deliveredTo e.side log ++ e.outcome.delivered := by
  rw [deliveredTo, List.flatMap_append, List.flatMap_singleton, if_pos rfl]
  rfl

theorem deliveredTo_append_other (log : List Event) (e : Event) :
    deliveredTo e.side.other (log ++ [e]) = deliveredTo e.side.other log := by
  rw [deliveredTo, List.flatMap_append, List.flatMap_singleton, if_neg e.side.other_ne.symm,
    List.append_nil]
  rfl

/-! ## One step of a link -/

/-- One side has come to `t`: `rest` still waits for it, and it has put out `frames`. -/
def advance (l : Link MemoryStore) (side : Side) (rest : List Bytes) (t : Session MemoryStore)
    (frames : List Bytes) : Link MemoryStore :=
  ((l.withQueue side rest).withSession side t).enqueue side.other frames

section
variable (l) (side) (rest) (t) (frames : List Bytes)

theorem session_advance : (l.advance side rest t frames).session side = t := by
  cases side
  · rfl
  · rfl

theorem session_advance_other :
    (l.advance side rest t frames).session side.other = l.session side.other := by
  cases side
  · rfl
  · rfl

theorem queue_advance : (l.advance side rest t frames).queue side = rest := by
  cases side
  · rfl
  · rfl

theorem queue_advance_other :
    (l.advance side rest t frames).queue side.other = l.queue side.other ++ frames := by
  cases side
  · rfl
  · rfl

end

theorem act_eq (l : Link MemoryStore) (side : Side) (op : Operation) :
    l.act side op = (((l.session side).step op).1,
      l.advance side (l.queue side) ((l.session side).step op).2
        ((l.session side).step op).1.frames) := by
  cases side
  · rfl
  · rfl

theorem deliver_eq (hqueue : l.queue side = frame :: rest) (now : Moment) :
    l.deliver side 1 now = ([((l.session side).step (.receive frame now)).1],
      l.advance side rest ((l.session side).step (.receive frame now)).2
        ((l.session side).step (.receive frame now)).1.frames) := by
  unfold deliver
  rw [hqueue]
  show ([_], enqueue _ _ (_ ++ [])) = _
  rw [List.append_nil]
  rfl

/-! ## What is between two sessions -/

/-- The messages that `x` has numbered and `y` has not heard: none before `x` has spoken, and then
the logon and what follows it. -/
inductive Travels (seconds : Nat) (x y : Session MemoryStore) : List Parked → Prop
  | silent (hx : x.IsSilent) (hy : ¬ y.IsTalking)
      (heq : y.sequences.expectedIncoming = x.sequences.nextOutgoing) : Travels seconds x y []
  | greeting {p : Parked} {ps : List Parked} (hx : ¬ x.IsSilent) (hy : ¬ y.IsTalking)
      (hp : IsLogon y.config y.sequences.expectedIncoming seconds p)
      (h : Flying y.config (y.sequences.expectedIncoming + 1) ps x.sequences.nextOutgoing) :
      Travels seconds x y (p :: ps)
  | talk {ps : List Parked} (hx : ¬ x.IsSilent) (hy : y.IsTalking)
      (h : Flying y.config y.sequences.expectedIncoming ps x.sequences.nextOutgoing) :
      Travels seconds x y ps

theorem Travels.toNat_eq (h : Travels seconds x y ps) :
    y.sequences.expectedIncoming.toNat + ps.length = x.sequences.nextOutgoing.toNat := by
  cases h with
  | silent _ _ heq => exact congrArg UInt64.toNat heq
  | greeting _ _ hp h =>
    rw [← h.toNat_eq, SeqNum.toNat_succ (SeqNum.ne_top_of_isValid hp.genuine.valid),
      List.length_cons]
    omega
  | talk _ _ h => exact h.toNat_eq

/-- The first message on its way is the expected one. -/
theorem Travels.genuine (h : Travels seconds x y (p :: ps)) :
    Genuine .any y.config y.sequences.expectedIncoming p := by
  cases h with
  | greeting _ _ hp _ => exact hp.genuine
  | talk _ _ h =>
    cases h with
    | cons hp _ _ => exact hp

theorem Travels.not_silent (h : Travels seconds x y (p :: ps)) : ¬ x.IsSilent := by
  cases h with
  | greeting hx => exact hx
  | talk hx => exact hx

/-- What `x` says comes behind all that is on its way. -/
theorem Travels.speaks (h : Travels seconds x y ps) (hx : Speaks y.config seconds x said x') :
    Travels seconds x' y (ps ++ said) := by
  cases h with
  | silent hsilent hy heq =>
    cases hx with
    | silent _ hx' hnext => exact .silent hx' hy (heq.trans hnext.symm)
    | greets _ hx' hp hnext =>
      rw [← heq] at hp hnext
      refine .greeting hx' hy hp ?_
      rw [hnext]
      exact .nil _
    | talks hx => exact absurd hsilent hx
  | greeting hspoken hy hp h =>
    cases hx with
    | silent hx => exact absurd hx hspoken
    | greets hx => exact absurd hx hspoken
    | talks _ hx' hsaid => exact .greeting hx' hy hp (h.append hsaid)
  | talk hspoken hy h =>
    cases hx with
    | silent hx => exact absurd hx hspoken
    | greets hx => exact absurd hx hspoken
    | talks _ hx' hsaid => exact .talk hx' hy (h.append hsaid)

/-- While `y` hears nothing, all stays on its way. -/
theorem Travels.waits (h : Travels seconds x y ps) (hy : Hears y [] y')
    (hopen : y'.terminated = false) (hconfig : y'.config = y.config) :
    Travels seconds x y' ps := by
  cases hy with
  | nothing hexpected _ htalking =>
    have htalking := htalking hopen
    cases h with
    | silent hx hy heq =>
      exact .silent hx (fun hy' => hy (htalking.mp hy')) (hexpected.trans heq)
    | greeting hx hy hp h =>
      rw [← hconfig, ← hexpected] at hp h
      exact .greeting hx (fun hy' => hy (htalking.mp hy')) hp h
    | talk hx hy h =>
      rw [← hconfig, ← hexpected] at h
      exact .talk hx (htalking.mpr hy) h

/-- What `y` hears is no longer on its way, and from then on `y` is past its logon. -/
theorem Travels.arrives (h : Travels seconds x y (p :: ps)) (hy : Hears y [p] y')
    (hopen : y'.terminated = false) (hconfig : y'.config = y.config) :
    Travels seconds x y' ps := by
  cases hy with
  | one _ _ hexpected htalking =>
    have htalking := htalking hopen
    cases h with
    | greeting hx _ _ h =>
      rw [← hconfig, ← hexpected] at h
      exact .talk hx htalking h
    | talk hx _ h =>
      cases h with
      | cons _ _ h =>
        rw [← hconfig, ← hexpected] at h
        exact .talk hx htalking h

/-- One way of a link: what was delivered are the first messages that were sent, and as long as the
receiver is open, the others are on their way. -/
structure Way (seconds : Nat) (x y : Session MemoryStore) (queue : List Bytes)
    (sent delivered : List Message) : Prop where
  ordered : delivered <+: sent
  travels : y.terminated = false → ∃ ps, queue = ps.map Parked.frame ∧ Travels seconds x y ps ∧
    sent = delivered ++ handed ps

theorem Way.speaks (h : Way seconds x y queue sent delivered)
    (hx : Speaks y.config seconds x said x') :
    Way seconds x' y (queue ++ said.map Parked.frame) (sent ++ handed said) delivered where
  ordered := h.ordered.trans (List.prefix_append _ _)
  travels := fun hopen => by
    obtain ⟨ps, rfl, htravels, rfl⟩ := h.travels hopen
    refine ⟨ps ++ said, List.map_append.symm, htravels.speaks hx, ?_⟩
    rw [handed_append, List.append_assoc]

theorem Way.waits (h : Way seconds x y queue sent delivered) (hy : Hears y [] y')
    (hconfig : y'.config = y.config) : Way seconds x y' queue sent delivered where
  ordered := h.ordered
  travels := fun hopen => by
    have hbefore : y.terminated = false := by
      cases hy with
      | nothing _ hopen' _ => exact hopen' hopen
    obtain ⟨ps, hqueue, htravels, hsent⟩ := h.travels hbefore
    exact ⟨ps, hqueue, htravels.waits hy hopen hconfig, hsent⟩

theorem Way.arrives (htravels : Travels seconds x y (p :: ps))
    (hsent : sent = delivered ++ handed (p :: ps)) (hy : Hears y [p] y')
    (hconfig : y'.config = y.config) :
    Way seconds x y' (ps.map Parked.frame) sent (delivered ++ handed [p]) where
  ordered := by
    rw [hsent, show p :: ps = [p] ++ ps from rfl, handed_append, ← List.append_assoc]
    exact List.prefix_append _ _
  travels := fun hopen => by
    refine ⟨ps, rfl, htravels.arrives hy hopen hconfig, ?_⟩
    rw [hsent, show p :: ps = [p] ++ ps from rfl, handed_append, List.append_assoc]

/-! ## Both ways -/

/-- The settings of the two sides belong together: `a` begins, and `b` answers. -/
structure Paired (config : Side → SessionConfig) : Prop where
  valid : ∀ side, (config side).validate = .ok ()
  mirrored : ∀ side, Mirrored (config side) (config side.other)
  initiator : (config .a).role = .initiator
  acceptor : (config .b).role = .acceptor

/-- Both sessions have missed nothing, and what is between them is what each has not heard yet. The
acceptor is silent until it hears the initiator, who has names that can be written once it has
spoken. -/
structure Joint (config : Side → SessionConfig) (seconds : Nat) (l : Link MemoryStore)
    (sent delivered : Side → List Message) : Prop where
  calm : ∀ side, Calm (config side) seconds (l.session side)
  way : ∀ side, Way seconds (l.session side.other) (l.session side) (l.queue side)
    (sent side.other) (delivered side)
  order : l.a.IsSilent → l.b.IsSilent
  speakable : ¬ l.a.IsSilent → Speakable (config .a)

variable {sent sent' delivered delivered' : Side → List Message}

/-- When one side has spoken, the names of both can be written. -/
theorem Joint.speakable_of_spoken (hpaired : Paired config)
    (h : Joint config seconds l sent delivered) (hspoken : ¬ (l.session side).IsSilent)
    (side' : Side) : Speakable (config side') := by
  have ha : ¬ l.a.IsSilent := by
    cases side with
    | a => exact hspoken
    | b => exact fun ha => hspoken (h.order ha)
  cases side' with
  | a => exact h.speakable ha
  | b => exact (hpaired.mirrored .a).speakable (hpaired.valid .b) (h.speakable ha)

/-- A turn of one side keeps both ways. -/
theorem Joint.turn (hpaired : Paired config) (h : Joint config seconds l sent delivered)
    (hturn : Turn (config side) (config side.other) seconds op (l.session side) o t heard said)
    (hheard : heard ≠ [] → ¬ (l.session side.other).IsSilent)
    (hway : Way seconds (l.session side.other) t rest (sent side.other)
      (delivered side ++ handed heard))
    (hsent : sent' side = sent side ++ handed said) (hsentOther : sent' side.other = sent side.other)
    (hdelivered : delivered' side = delivered side ++ handed heard)
    (hdeliveredOther : delivered' side.other = delivered side.other) :
    Joint config seconds (l.advance side rest t o.frames) sent' delivered' where
  calm := fun side' => by
    rcases side.eq_or_eq_other side' with rfl | rfl
    · rw [session_advance]
      exact hturn.calm
    · rw [session_advance_other]
      exact h.calm _
  way := fun side' => by
    rcases side.eq_or_eq_other side' with rfl | rfl
    · rw [session_advance, session_advance_other, queue_advance, hsentOther, hdelivered]
      exact hway
    · have hother := h.way side.other
      rw [side.other_other] at hother ⊢
      rw [session_advance, session_advance_other, queue_advance_other, hsent, hdeliveredOther,
        hturn.frames]
      refine hother.speaks ?_
      rw [(h.calm side.other).config_eq]
      exact hturn.speaks
  order := fun hsilent => by
    cases side with
    | a => exact h.order (hturn.silent_before hsilent)
    | b =>
      -- Nothing was heard, since the other side has not spoken.
      have hnothing : heard = [] := by
        by_contra hne
        exact hheard hne hsilent
      exact hturn.silent_after hpaired.acceptor hnothing (h.order hsilent)
  speakable := fun hspoken => by
    cases side with
    | a =>
      by_cases hsilent : l.a.IsSilent
      · exact hturn.speakable hsilent hspoken
      · exact h.speakable hsilent
    | b => exact h.speakable hspoken

/-! ## Runs -/

variable {log : List Event}

/-- Nothing that was put out or answered tells of a message that is missing, and the only failures
are those of a counterparty that keeps silent. What an application sends is what the other side
reads. -/
structure Event.IsQuiet (version : String) (e : Event) : Prop where
  reported : e.outcome.reported = []
  timeout : ∀ failure ∈ e.outcome.failure?, failure.error.IsTimeout
  readable : ∀ frame ∈ e.outcome.frames, ∃ m, Message.decode version frame = .ok m ∧
    m.msgType ≠ .resendRequest
  written : e.op.IsWritten version e.outcome

theorem isQuiet_of_turn {c d : SessionConfig} (h : Turn c d seconds op s o t heard said) :
    Event.IsQuiet d.beginString ⟨side, op, o⟩ where
  reported := h.reported
  timeout := h.timeout
  written := h.written
  readable := fun frame hframe => by
    rw [show (Event.mk side op o).outcome.frames = said.map Parked.frame from h.frames] at hframe
    obtain ⟨p, hp, rfl⟩ := List.mem_map.mp hframe
    obtain ⟨n, hgenuine, htype⟩ := h.speaks.mem hp
    exact ⟨p.message, hgenuine.decoded, htype⟩

theorem Paired.beginString_eq (h : Paired config) (side : Side) :
    (config side).beginString = (config .a).beginString := by
  cases side with
  | a => rfl
  | b => exact (h.mirrored .a).beginString

/-- What holds of a link and of what has happened on it. -/
structure Recorded (config : Side → SessionConfig) (log : List Event) (l : Link MemoryStore) :
    Prop where
  joint : Joint config (config .a).heartbeatSeconds l (sentBy (config .a).beginString · log)
    (deliveredTo · log)
  quiet : ∀ e ∈ log, e.IsQuiet (config .a).beginString

/-- A turn is recorded. -/
theorem Recorded.turn (hpaired : Paired config) (h : Recorded config log l)
    (hturn : Turn (config side) (config side.other) (config .a).heartbeatSeconds op
      (l.session side) o t heard said)
    (hheard : heard ≠ [] → ¬ (l.session side.other).IsSilent)
    (hway : Way (config .a).heartbeatSeconds (l.session side.other) t rest
      (sentBy (config .a).beginString side.other log) (deliveredTo side log ++ handed heard)) :
    Recorded config (log ++ [⟨side, op, o⟩]) (l.advance side rest t o.frames) where
  joint := by
    refine h.joint.turn hpaired hturn hheard hway ?_ (sentBy_append_other log ⟨side, op, o⟩) ?_
      (deliveredTo_append_other log ⟨side, op, o⟩)
    · rw [← hturn.sent, hpaired.beginString_eq side.other]
      exact sentBy_append_self log ⟨side, op, o⟩
    · rw [← hturn.delivered]
      exact deliveredTo_append_self log ⟨side, op, o⟩
  quiet := fun e he => by
    rcases List.mem_append.mp he with he | he
    · exact h.quiet e he
    · rw [List.mem_singleton.mp he, ← hpaired.beginString_eq side.other]
      exact isQuiet_of_turn hturn

/-- How a side waits for the first frame that is on its way. -/
theorem Joint.exists_turn_receive (hpaired : Paired config)
    (h : Joint config (config .a).heartbeatSeconds l sent delivered)
    (hopen : (l.session side).terminated = false)
    (htravels : Travels (config .a).heartbeatSeconds (l.session side.other) (l.session side)
      (p :: ps)) (now : Moment)
    (hfits : Fits ((l.session side).step (.receive p.frame now)).1.frames
      ((l.session side).step (.receive p.frame now)).2.store.outbound) :
    ∃ said, Turn (config side) (config side.other) (config .a).heartbeatSeconds
      (.receive p.frame now) (l.session side) ((l.session side).step (.receive p.frame now)).1
      ((l.session side).step (.receive p.frame now)).2 [p] said := by
  have hcalm := h.calm side
  have hspeakable := h.speakable_of_spoken hpaired htravels.not_silent side
  have hmirrored := hpaired.mirrored side
  obtain ⟨_, _, ⟨hpos, hmax⟩, _⟩ :=
    SessionConfig.validate_eq_ok_iff.mp (hpaired.valid .a)
  cases htravels with
  | greeting hspoken hy hp _ =>
    rw [hcalm.config_eq] at hp
    refine turn_of_ends_process
      (ends_process_greeting hspeakable hmirrored hcalm hopen ?_ hp now) hfits
    cases hstate : (l.session side).state with
    | disconnected =>
      cases side with
      | a => exact absurd (h.order ⟨hopen, hstate⟩) hspoken
      | b => exact .acceptor hpaired.acceptor hpos hmax
    | logonSent =>
      cases side with
      | a => exact .initiator hpaired.initiator hmax
      | b => exact nomatch hpaired.acceptor.symm.trans (hcalm.role hstate)
    | loggedOn => exact absurd (.inl hstate) hy
    | logoutSent => exact absurd (.inr hstate) hy
  | talk _ hy hflying =>
    cases hflying with
    | cons hp htype _ =>
      rw [hcalm.config_eq] at hp
      exact turn_of_ends_process
        (ends_process_ordinary hspeakable hmirrored hcalm hy hp htype now) hfits

theorem Perfect.sound (hstart : ∀ side, Sound .any (l₀.session side)) (h : Perfect l₀ log l) :
    ∀ side, Sound .any (l.session side) := by
  have hadvance {l : Link MemoryStore} {side : Side} {op : Operation} {rest frames : List Bytes}
      (hsound : ∀ side, Sound .any (l.session side)) (side' : Side) :
      Sound .any ((l.advance side rest ((l.session side).step op).2 frames).session side') := by
    rcases side.eq_or_eq_other side' with rfl | rfl
    · rw [session_advance]
      exact (hsound _).stepped (stepped_any (hsound _) op)
    · rw [session_advance_other]
      exact hsound _
  induction h with
  | start => exact hstart
  | act _ side _ ih =>
    rw [act_eq]
    exact hadvance ih
  | deliver _ side _ hqueue now ih =>
    rw [deliver_eq hqueue]
    exact hadvance ih

/-- As long as the counters have not come to the end, they had not before. -/
theorem room_of_advance {frames : List Bytes} (hsound : Sound .any (l.session side))
    (hroom : ∀ side', ((l.advance side rest ((l.session side).step op).2 frames).session
      side').store.nextSeq .outbound < .top) :
    (∀ side', (l.session side').store.nextSeq .outbound < .top) ∧
      ((l.session side).step op).2.store.outbound.nextSeq < .top := by
  have hside := hroom side
  have hother := hroom side.other
  rw [session_advance] at hside
  rw [session_advance_other] at hother
  refine ⟨fun side' => ?_, hside⟩
  rcases side.eq_or_eq_other side' with rfl | rfl
  · exact UInt64.lt_of_le_of_lt (stepped_any hsound op).nextSeq_le hside
  · exact hother

/-- What a side does of its own accord is a turn. -/
theorem Recorded.act (hpaired : Paired config) (h : Recorded config log l) (hop : op.IsOwn)
    (hfits : Fits ((l.session side).step op).1.frames
      ((l.session side).step op).2.store.outbound) :
    Recorded config (log ++ [⟨side, op, ((l.session side).step op).1⟩])
      (l.advance side (l.queue side) ((l.session side).step op).2
        ((l.session side).step op).1.frames) := by
  have hcalm := h.joint.calm side
  have hseconds (hrole : (config side).role = .initiator) :
      (config side).heartbeatSeconds = (config .a).heartbeatSeconds := by
    cases side with
    | a => rfl
    | b => exact nomatch hpaired.acceptor.symm.trans hrole
  obtain ⟨said, hturn⟩ :=
    turn_of_isOwn (hpaired.valid side) (fun hspoken => h.joint.speakable_of_spoken hpaired hspoken
      side) (hpaired.mirrored side) hseconds hcalm hop hfits
  have hconfig := hturn.calm.config_eq.trans hcalm.config_eq.symm
  have hway := (h.joint.way side).waits hturn.hears hconfig
  rw [← List.append_nil (deliveredTo side log)] at hway
  exact h.turn hpaired hturn (fun hne => absurd rfl hne) hway

/-- What arrives at a side is the first message on its way, and a turn. -/
theorem Recorded.deliver (hpaired : Paired config) (h : Recorded config log l)
    (hopen : (l.session side).terminated = false) (hqueue : l.queue side = frame :: rest)
    (now : Moment)
    (hfits : Fits ((l.session side).step (.receive frame now)).1.frames
      ((l.session side).step (.receive frame now)).2.store.outbound) :
    Recorded config
      (log ++ [⟨side, .receive frame now, ((l.session side).step (.receive frame now)).1⟩])
      (l.advance side rest ((l.session side).step (.receive frame now)).2
        ((l.session side).step (.receive frame now)).1.frames) := by
  have hcalm := h.joint.calm side
  obtain ⟨ps, hps, htravels, hsent⟩ := (h.joint.way side).travels hopen
  rw [hqueue] at hps
  cases ps with
  | nil => cases hps
  | cons p ps =>
    obtain ⟨rfl, rfl⟩ := List.cons.inj hps
    obtain ⟨said, hturn⟩ := h.joint.exists_turn_receive hpaired hopen htravels now hfits
    have hconfig := hturn.calm.config_eq.trans hcalm.config_eq.symm
    exact h.turn hpaired hturn (fun _ => htravels.not_silent)
      (Way.arrives htravels hsent hturn.hears hconfig)

/-- The induction is on the run: whatever happens is a turn of one side. -/
theorem Perfect.recorded (hpaired : Paired config) (hstart : Recorded config [] l₀)
    (h : Perfect l₀ log l) (hshort : ∀ e ∈ log, ∀ frame ∈ e.outcome.frames, frame.length < 2 ^ 64)
    (hroom : ∀ side, (l.session side).store.nextSeq .outbound < .top) :
    Recorded config log l := by
  have hsoundStart (side : Side) : Sound .any (l₀.session side) := (hstart.joint.calm side).sound
  induction h with
  | start => exact hstart
  | @act log l h side op hop ih =>
    rw [act_eq] at hshort hroom ⊢
    obtain ⟨hbefore, hafter⟩ := room_of_advance (h.sound hsoundStart side) hroom
    have hrecorded := ih (fun e he => hshort e (List.mem_append_left _ he)) hbefore
    have hlast := hshort ⟨side, op, _⟩ (List.mem_append_right _ (List.mem_singleton_self _))
    exact hrecorded.act hpaired hop ⟨hlast, hafter⟩
  | @deliver log l h side frame rest hopen hqueue now ih =>
    rw [deliver_eq hqueue] at hshort hroom ⊢
    obtain ⟨hbefore, hafter⟩ := room_of_advance (h.sound hsoundStart side) hroom
    have hrecorded := ih (fun e he => hshort e (List.mem_append_left _ he)) hbefore
    have hlast := hshort ⟨side, .receive frame now, _⟩
      (List.mem_append_right _ (List.mem_singleton_self _))
    exact hrecorded.deliver hpaired hopen hqueue now ⟨hlast, hafter⟩

/-! ## Links that begin in step -/

/-- A new session has missed nothing, if its numbers are above all that its store keeps. -/
theorem calm_of_open {c : SessionConfig} {store : MemoryStore} {start : Nat}
    (h : open? c store start = .ok s)
    (hbelow : ∀ d, ∀ e ∈ (store.journal d).entries, e.1 < store.nextSeq d) :
    Calm c seconds s ∧ s.IsSilent := by
  obtain ⟨_, rfl⟩ := open?_eq_ok_iff.mp h
  have hlast (d : Direction) : (store.journal d).last < max (store.nextSeq d) .first := by
    refine (Journal.last_lt_iff (SeqNum.le_max_right _ _)).mpr fun e he => ?_
    exact UInt64.lt_of_lt_of_le (hbelow d e he) (SeqNum.le_max_left _ _)
  refine ⟨?_, rfl, rfl⟩
  exact
    { config_eq := rfl
      inbound := hlast .inbound
      outbound := hlast .outbound
      next_eq := rfl
      parked_eq := rfl
      pending_eq := rfl
      ended := nofun
      role := nofun
      interval := fun hs => absurd ⟨rfl, rfl⟩ hs.not_silent }

/-- Nothing has happened yet. -/
theorem recorded_start (hcalm : ∀ side, Calm (config side) (config .a).heartbeatSeconds
      (l₀.session side)) (hsilent : ∀ side, (l₀.session side).IsSilent)
    (hempty : ∀ side, l₀.queue side = [])
    (hsync : ∀ side, (l₀.session side).sequences.expectedIncoming =
      (l₀.session side.other).sequences.nextOutgoing) : Recorded config [] l₀ where
  joint :=
    { calm := hcalm
      way := fun side =>
        { ordered := List.nil_prefix
          travels := fun _ => ⟨[], hempty side, .silent (hsilent _)
            (fun htalking => htalking.not_silent (hsilent side)) (hsync side), rfl⟩ }
      order := fun _ => hsilent .b
      speakable := fun hspoken => absurd (hsilent .a) hspoken }
  quiet := List.forall_mem_nil _

/-- What happened on a link, and how it stands, when its two sides are in step. -/
structure InStep (config : Side → SessionConfig) (log : List Event) (l : Link MemoryStore) :
    Prop where
  /-- What an open side has not heard yet is on its way. -/
  level : ∀ side, (l.session side).terminated = false →
    (l.session side).sequences.expectedIncoming.toNat + (l.queue side).length =
      (l.session side.other).sequences.nextOutgoing.toNat
  /-- What arrives next is the expected message. -/
  inOrder : ∀ side, (l.session side).terminated = false → ∀ frame ∈ (l.queue side).head?,
    ∃ m n, Message.decode (config .a).beginString frame = .ok m ∧ m.seqNum? = some n ∧
      ((l.session side).sequences.observe n).1 = .inOrder
  settled : ∀ side, (l.session side).recovery.parked = [] ∧ (l.session side).recovery.pending = none
  quiet : ∀ e ∈ log, e.IsQuiet (config .a).beginString
  interval : ∀ side, (l.session side).IsTalking →
    (l.session side).heartbeat.interval = (config .a).heartbeatSeconds * 1000
  delivered : ∀ side, deliveredTo side log <+: sentBy (config .a).beginString side.other log
  /-- When nothing is on its way to an open side, all that was sent has been delivered. -/
  complete : ∀ side, (l.session side).terminated = false → l.queue side = [] →
    deliveredTo side log = sentBy (config .a).beginString side.other log

theorem Recorded.inStep (hpaired : Paired config) (h : Recorded config log l) :
    InStep config log l where
  level := fun side hopen => by
    obtain ⟨ps, hqueue, htravels, _⟩ := (h.joint.way side).travels hopen
    rw [hqueue, List.length_map]
    exact htravels.toNat_eq
  inOrder := fun side hopen frame hframe => by
    obtain ⟨ps, hqueue, htravels, _⟩ := (h.joint.way side).travels hopen
    rw [hqueue] at hframe
    cases ps with
    | nil => cases hframe
    | cons p ps =>
      cases hframe
      have hp := htravels.genuine
      refine ⟨p.message, _, ?_, hp.numbered, ?_⟩
      · rw [← hpaired.beginString_eq side, ← (h.joint.calm side).config_eq]
        exact hp.decoded
      · rw [SequenceTracker.observe_of_eq (SeqNum.ne_top_of_isValid hp.valid) rfl]
  settled := fun side => ⟨(h.joint.calm side).parked_eq, (h.joint.calm side).pending_eq⟩
  quiet := h.quiet
  interval := fun side => (h.joint.calm side).interval
  delivered := fun side => (h.joint.way side).ordered
  complete := fun side hopen hempty => by
    obtain ⟨ps, hqueue, _, hsent⟩ := (h.joint.way side).travels hopen
    obtain rfl := List.map_eq_nil_iff.mp (hqueue.symm.trans hempty)
    rw [hsent]
    exact (List.append_nil _).symm

/-- Let two sessions with mirrored settings go on from their stores and agree on the numbers of both
directions. Whatever their owners and clocks do, and whenever frames arrive: as long as none is lost
or overtaken, and no counter comes to the end, the two sides stay in step. The bound on the length
holds of every byte string in memory. -/
theorem perfect_inStep {store : Side → MemoryStore} {start : Side → Nat}
    (hpaired : Paired config)
    (hopen : ∀ side, open? (config side) (store side) (start side) = .ok (l₀.session side))
    (hbelow : ∀ side d, ∀ e ∈ ((store side).journal d).entries, e.1 < (store side).nextSeq d)
    (hempty : ∀ side, l₀.queue side = [])
    (hsync : ∀ side, (l₀.session side).sequences.expectedIncoming =
      (l₀.session side.other).sequences.nextOutgoing)
    (h : Perfect l₀ log l) (hshort : ∀ e ∈ log, ∀ frame ∈ e.outcome.frames, frame.length < 2 ^ 64)
    (hroom : ∀ side, (l.session side).store.nextSeq .outbound < .top) : InStep config log l := by
  have hnew (side : Side) : Calm (config side) (config .a).heartbeatSeconds (l₀.session side) ∧
      (l₀.session side).IsSilent := calm_of_open (hopen side) (hbelow side)
  have hstart := recorded_start (fun side => (hnew side).1) (fun side => (hnew side).2) hempty hsync
  exact (h.recorded hpaired hstart hshort hroom).inStep hpaired

/-- The first frame that waits for an open side arrives. -/
theorem Perfect.arrive (h : Perfect l₀ log l) (side : Side)
    (hready : (l.session side).terminated = false ∧ l.queue side ≠ []) (now : Moment) :
    Perfect l₀ (log ++ (l.deliver side 1 now).1.map fun o =>
        ⟨side, .receive ((l.queue side).head hready.2) now, o⟩) (l.deliver side 1 now).2 :=
  h.deliver side hready.1 (List.cons_head_tail hready.2).symm now

end Link

namespace Sample

/-- The settings of both sides. -/
def sides : Side → SessionConfig
  | .a => initiator
  | .b => acceptor

/-- Two new sessions, and nothing on the wire. -/
def link : Link MemoryStore :=
  ⟨fresh initiator .empty 0, fresh acceptor .empty 0, [], []⟩

theorem paired_sides : Link.Paired sides where
  valid := fun side => by
    cases side
    · exact validate_initiator
    · exact validate_acceptor
  mirrored := fun side => by
    cases side
    · exact ⟨rfl, rfl, rfl⟩
    · exact ⟨rfl, rfl, rfl⟩
  initiator := rfl
  acceptor := rfl

/-- Both sides log on, each sends an order, and each logs out before it hears that the other does. -/
theorem perfect_crossing :
    ∃ log l, Link.Perfect link log l ∧ (Link.deliveredTo .a log).length = 1 ∧
      (Link.deliveredTo .b log).length = 1 ∧
      (l.a.terminated = true ∧ l.a.store.nextSeq .outbound < .top) ∧
      (l.b.terminated = true ∧ l.b.store.nextSeq .outbound < .top) ∧
      ∀ e ∈ log, ∀ frame ∈ e.outcome.frames, frame.length < 2 ^ 64 := by
  have horder : (Operation.send .newOrderSingle [] moment).IsOwn := by
    show MsgType.isApp _ = true
    decide +kernel
  have hlogon : (Operation.logon moment).IsOwn := trivial
  have hlogout : (Operation.logout none moment).IsOwn := trivial
  have hstart : Link.Perfect link [] link := .start
  have hasked := (hstart.act .a hlogon).arrive .b (by decide +kernel) moment
  have hlogged := hasked.arrive .a (by decide +kernel) moment
  have hsent := (((hlogged.act .a horder).act .b horder).act .a hlogout).act .b hlogout
  have hordered :=
    (hsent.arrive .a (by decide +kernel) moment).arrive .b (by decide +kernel) moment
  have hended :=
    (hordered.arrive .a (by decide +kernel) moment).arrive .b (by decide +kernel) moment
  exact ⟨_, _, hended, by decide +kernel⟩

end Sample

namespace Link

/-- After the crossing logouts both sides have ended, and the order of each has reached the
other. -/
theorem perfect_inStep_crossing :
    ∃ log l, Perfect Sample.link log l ∧ (deliveredTo .a log).length = 1 ∧
      (deliveredTo .b log).length = 1 ∧ (∀ side, (l.session side).terminated = true) ∧
      InStep Sample.sides log l := by
  have hopen (side : Side) :
      open? (Sample.sides side) MemoryStore.empty 0 = .ok (Sample.link.session side) := by
    cases side
    · exact Sample.open_initiator
    · exact Sample.open_acceptor
  have hbelow (_ : Side) (d : Direction) :
      ∀ e ∈ (MemoryStore.empty.journal d).entries, e.1 < MemoryStore.empty.nextSeq d := by
    cases d
    · exact nofun
    · exact nofun
  obtain ⟨log, l, hrun, hdeliveredA, hdeliveredB, ha, hb, hshort⟩ := Sample.perfect_crossing
  refine ⟨log, l, hrun, hdeliveredA, hdeliveredB, fun side => ?_, ?_⟩
  · cases side
    · exact ha.1
    · exact hb.1
  · refine perfect_inStep Sample.paired_sides hopen hbelow (fun side => ?_) (fun side => ?_) hrun
      hshort (fun side => ?_)
    · cases side
      · rfl
      · rfl
    · cases side
      · rfl
      · rfl
    · cases side
      · exact ha.2
      · exact hb.2

end Link

end FixProtocol
