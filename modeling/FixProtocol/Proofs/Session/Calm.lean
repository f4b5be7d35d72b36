import FixProtocol.Proofs.Session.Exchange
import FixProtocol.Proofs.Wire.Contents

/-!
# Sessions that miss nothing

A session that gets every message of its counterparty in order parks none and asks for none, and it
fails only when an answer does not come in time.

- `Session.Flying`: messages under consecutive numbers, as the other side reads them.
- `Session.Calm`: where a session stands that has missed nothing.
- `Session.Calm.counted`, `Session.Calm.keep`, `Session.Calm.written`: taking the expected message
  and writing one leave it so.
-/

namespace FixProtocol

/-- Did an answer not come in time? -/
def Error.IsTimeout (e : Error) : Prop :=
  ∃ waited, e = .session (.logonTimeout waited) ∨ e = .session (.heartbeatTimeout waited)

/-- The types of the messages that follow the logons when nothing is missed. -/
def MsgType.IsOrdinary (type : MsgType) : Prop :=
  type = .heartbeat ∨ type = .testRequest ∨ type = .logout ∨ type.isApp = true

theorem MsgType.IsOrdinary.ne {type : MsgType} (h : type.IsOrdinary) :
    type ≠ .resendRequest ∧ type ≠ .sequenceReset := by
  rcases h with rfl | rfl | rfl | happ
  · decide
  · decide
  · decide
  · constructor
    · rintro rfl
      cases happ
    · rintro rfl
      cases happ

namespace HeartbeatMonitor

theorem interval_onHeartbeat (m : HeartbeatMonitor) (id : Option String) :
    (m.onHeartbeat id).interval = m.interval := by
  unfold onHeartbeat
  split
  · rfl
  · rfl

theorem interval_poll (m : HeartbeatMonitor) (now : Moment) :
    (m.poll now).2.interval = m.interval := by
  rcases m.poll_cases now with ⟨_, _, _, heq⟩ | ⟨_, _, heq⟩ | ⟨_, ⟨_, heq⟩ | ⟨_, heq⟩⟩
  all_goals rw [heq]

/-- A test request is asked for only if none waits, and is noted. -/
theorem eq_of_poll_testRequest {m : HeartbeatMonitor} {now : Moment} {id : String}
    (h : (m.poll now).1 = some (.sendTestRequest id)) :
    id = now.testReqId ∧ m.pending = none ∧
      (m.poll now).2 = { m with pending := some (id, now.elapsed), lastSent := now.elapsed } := by
  rcases m.poll_cases now with ⟨_, _, _, heq⟩ | ⟨hnone, _, heq⟩ | ⟨_, ⟨_, heq⟩ | ⟨_, heq⟩⟩
  all_goals
    rw [heq] at h ⊢
    cases h
  exact ⟨rfl, hnone, rfl⟩

end HeartbeatMonitor

/-- A field that was read can be written again, unless its place is at the beginning. -/
theorem Message.isBody_of_get? {version : String} {frame : Bytes} {m : Message} {tag : Tag}
    {f : Field} (h : Message.decode version frame = .ok m)
    (htag : tag ∉ [Tag.beginString, .msgType]) (hf : m.get? tag = some f) : Wire.IsBody f := by
  obtain ⟨v, type, rest, _, hcanonical, rfl⟩ := Wire.canonical_of_decode h
  simp only [List.mem_cons, List.not_mem_nil, or_false, not_or] at htag
  have hf : (Wire.listed v type rest).find? (·.tag = tag) = some f := hf
  have heq : f.tag = tag := of_decide_eq_true (List.find?_some hf :)
  have hmem : f ∈ Wire.listed v type rest := List.mem_of_find?_eq_some hf
  rcases List.mem_cons.mp hmem with rfl | hmem
  · exact absurd heq.symm htag.1
  · rcases List.mem_cons.mp hmem with rfl | hmem
    · exact absurd heq.symm htag.2
    · exact hcanonical.rest_isBody f hmem

namespace Session

open Call

variable {c d : SessionConfig} {seconds : Nat} {s t : Session MemoryStore} {n next : SeqNum}
  {p : Parked} {ps heard said : List Parked} {o : Outcome} {op : Operation}

/-! ## Messages in flight -/

/-- The messages from `n` up to the one before `next`, as the side with the settings `d` reads
them. -/
inductive Flying (d : SessionConfig) : SeqNum → List Parked → SeqNum → Prop
  | nil (n : SeqNum) : Flying d n [] n
  | cons {n next : SeqNum} {p : Parked} {ps : List Parked} (hp : Genuine .any d n p)
      (htype : p.message.msgType.IsOrdinary) (tail : Flying d (n + 1) ps next) :
      Flying d n (p :: ps) next

theorem Flying.single (hp : Genuine .any d n p) (htype : p.message.msgType.IsOrdinary) :
    Flying d n [p] (n + 1) :=
  .cons hp htype (.nil _)

theorem Flying.append {ps' : List Parked} {following : SeqNum} (h : Flying d n ps next)
    (h' : Flying d next ps' following) : Flying d n (ps ++ ps') following := by
  induction h with
  | nil n => exact h'
  | cons hp htype _ ih => exact .cons hp htype (ih h')

theorem Flying.mem (h : Flying d n ps next) (hp : p ∈ ps) :
    ∃ m, Genuine .any d m p ∧ p.message.msgType.IsOrdinary := by
  induction h with
  | nil => cases hp
  | cons hgenuine htype _ ih =>
    rcases List.mem_cons.mp hp with rfl | hp
    · exact ⟨_, hgenuine, htype⟩
    · exact ih hp

/-- The numbers count the messages. -/
theorem Flying.toNat_eq (h : Flying d n ps next) : n.toNat + ps.length = next.toNat := by
  induction h with
  | nil n => rfl
  | cons hp _ _ ih =>
    rw [SeqNum.toNat_succ (SeqNum.ne_top_of_isValid hp.valid)] at ih
    rw [List.length_cons]
    omega

/-- The messages among these that are handed over to the application. -/
def handed (ps : List Parked) : List Message :=
  ps.flatMap fun p => handedOver p.message

theorem handed_append (ps ps' : List Parked) : handed (ps ++ ps') = handed ps ++ handed ps' :=
  List.flatMap_append

theorem handed_single (p : Parked) : handed [p] = handedOver p.message :=
  List.flatMap_singleton ..

/-! ## Where a session stands that has missed nothing -/

/-- Is the session open, and has said nothing yet? -/
def IsSilent (s : Session MemoryStore) : Prop :=
  s.terminated = false ∧ s.state = .disconnected

/-- Is the session past the logon, and goes on? -/
def IsTalking (s : Session MemoryStore) : Prop :=
  s.state = .loggedOn ∨ s.state = .logoutSent

theorem IsTalking.not_silent (h : s.IsTalking) : ¬ s.IsSilent := by
  rintro ⟨_, hstate⟩
  rcases h with h | h
  · rw [hstate] at h
    cases h
  · rw [hstate] at h
    cases h

/-- Nothing waits and nothing is asked for. The journals end before the numbers, the counter of the
store goes with the session, and from logon on the interval is the agreed one. -/
structure Calm (c : SessionConfig) (seconds : Nat) (s : Session MemoryStore) : Prop where
  config_eq : s.config = c
  inbound : s.store.inbound.last < s.sequences.expectedIncoming
  outbound : s.store.outbound.last < s.sequences.nextOutgoing
  next_eq : s.sequences.nextOutgoing = max s.store.outbound.nextSeq .first
  parked_eq : s.recovery.parked = []
  pending_eq : s.recovery.pending = none
  ended : s.terminated = true → s.state = .disconnected
  role : s.state = .logonSent → c.role = .initiator
  interval : s.IsTalking → s.heartbeat.interval = seconds * 1000

theorem Calm.sound (h : Calm c seconds s) : Sound .any s := by
  intro e he
  rw [h.parked_eq] at he
  cases he

theorem Calm.open_of_talking (h : Calm c seconds s) (hs : s.IsTalking) : s.terminated = false := by
  refine Bool.eq_false_iff.mpr fun hended => ?_
  have hstate := h.ended hended
  rcases hs with hs | hs
  · rw [hstate] at hs
    cases hs
  · rw [hstate] at hs
    cases hs

theorem Calm.clock (h : Calm c seconds s) {heartbeat : HeartbeatMonitor}
    (hinterval : heartbeat.interval = s.heartbeat.interval) :
    Calm c seconds { s with heartbeat } :=
  { h with interval := fun hs => hinterval.trans (h.interval hs) }

theorem Calm.terminate (h : Calm c seconds s) (now : Moment) : Calm c seconds (s.terminate now) :=
  { h with
    parked_eq := rfl
    pending_eq := rfl
    ended := fun _ => rfl
    role := nofun
    interval := fun hs => by
      rcases hs with hs | hs
      · cases hs
      · cases hs }

/-- The expected message is counted. -/
theorem Calm.counted (h : Calm c seconds s) (hn : n = s.sequences.expectedIncoming)
    (hvalid : n.isValid = true) : Calm c seconds (s.counted n) :=
  { h with inbound := UInt64.lt_trans (hn ▸ h.inbound) (SeqNum.lt_succ_of_isValid hvalid) }

/-- A message above all that were kept, and below the expected one, is kept. -/
theorem Calm.keep (h : Calm c seconds s) {frame : Bytes} {j : Journal}
    (hj : s.store.inbound.append n frame = .ok j) (hn : n < s.sequences.expectedIncoming) :
    Calm c seconds { s with store := { s.store with inbound := j } } :=
  { h with
    inbound := by
      show j.last < s.sequences.expectedIncoming
      rw [(Journal.last_append hj).2]
      exact hn }

/-- What is put out can be read: each frame is no longer than its length can say, and the counter of
the journal that keeps them has not come to the end. -/
structure Fits (frames : List Bytes) (j : Journal) : Prop where
  short : ∀ frame ∈ frames, frame.length < 2 ^ 64
  room : j.nextSeq < .top

/-- What a session writes is read by the other side, and leaves the session calm. -/
theorem Calm.written (h : Calm c seconds s) (hd : Mirrored c d) {type : MsgType}
    {body : List Field} {frame : Bytes} {j : Journal} {now : Moment}
    (hencode : Wire.encode (s.header type s.sequences.nextOutgoing now.utc ++ body) = .ok frame)
    (hj : s.store.outbound.append s.sequences.nextOutgoing frame = .ok j)
    (hfits : Fits [frame] j) :
    Genuine .any d s.sequences.nextOutgoing
        ⟨⟨s.header type s.sequences.nextOutgoing now.utc ++ body⟩, frame⟩ ∧
      Calm c seconds (s.written { s.store with outbound := j } now) := by
  have hroom := hfits.room
  rw [Journal.nextSeq_append hj] at hroom
  have hne : s.sequences.nextOutgoing ≠ .top := by
    intro htop
    rw [htop] at hroom
    exact absurd (SeqNum.le_max_right s.store.outbound.nextSeq _) (UInt64.not_le.mpr hroom)
  have hfirst : .first ≤ s.sequences.nextOutgoing := h.next_eq ▸ SeqNum.le_max_right _ _
  have hvalid := SeqNum.isValid_iff.mpr ⟨hfirst, SeqNum.lt_top_of_ne hne⟩
  have hlength : (s.wireBody type s.sequences.nextOutgoing now.utc body).length < 2 ^ 64 := by
    have hcarries := Wire.carries_of_encode hencode
    have hdecode := hcarries.decoded (hfits.short frame (List.mem_singleton_self _))
    exact ((decode_header_iff hencode).mp hdecode).1
  constructor
  · exact genuine_header (h.config_eq.symm ▸ hd) hvalid hlength hencode
  · have hsucc := SeqNum.toNat_succ hne
    refine { h with outbound := ?_, next_eq := ?_ }
    · show j.last < s.sequences.nextOutgoing + 1
      rw [(Journal.last_append hj).2]
      exact SeqNum.lt_succ_of_isValid hvalid
    · show s.sequences.nextOutgoing + 1 = max j.nextSeq .first
      have heq := congrArg UInt64.toNat h.next_eq
      rw [SeqNum.toNat_max] at heq
      refine UInt64.toNat_inj.mp ?_
      rw [Journal.nextSeq_append hj, SeqNum.toNat_max, SeqNum.toNat_max, SeqNum.toNat_next hne,
        hsucc]
      omega

end Session

end FixProtocol
