import FixProtocol.Proofs.Session.Erasure
import FixProtocol.Proofs.Session.Finality
import FixProtocol.Proofs.Session.Telling

/-!
# What a session has taken

A message is taken when its turn has come: it is counted, kept in the store, and does what it asks
for. Its number is then below the expected one for good, so when its frame arrives again it is
reported and does nothing else.

- `Noted`: a store, and the messages that it was given to keep as received.
- `taken`: the messages that a session takes in a run.
- `Past`: what was taken is of the counterparty and has a number that was passed.
- `receive_of_lt`: a message with a number that was passed is only reported.
- `repeats_harmless`: so is every message that was taken before, however often it comes again.
-/

namespace FixProtocol

/-- A store, and the messages that it was given to keep as received, in this order. -/
structure Noted (σ : Type) where
  store : σ
  taken : List (SeqNum × Bytes)

namespace Noted

variable {σ : Type} [MessageStore σ]

/-- Keeps a message. A received message that was kept is noted. -/
def append (s : Noted σ) (d : Direction) (n : SeqNum) (bs : Bytes) :
    Except StoreError Unit × Noted σ :=
  match d, MessageStore.append s.store d n bs with
  | .inbound, (.ok (), store) => (.ok (), ⟨store, s.taken ++ [(n, bs)]⟩)
  | _, (answer, store) => (answer, ⟨store, s.taken⟩)

instance : MessageStore (Noted σ) where
  append := append
  range s d first last :=
    let (answer, store) := MessageStore.range s.store d first last
    (answer, { s with store })
  nextSeq s := MessageStore.nextSeq s.store
  setNextSeq s d n := { s with store := MessageStore.setNextSeq s.store d n }

variable {s t : Noted σ} {d : Direction} {n : SeqNum} {bs : Bytes}

/-- The notes are not seen. -/
theorem wraps : MessageStore.Wraps (σ := σ) Noted.store where
  append s d n bs := by
    show _ = ((s.append d n bs).1, (s.append d n bs).2.store)
    unfold append
    split
    · next heq => exact heq
    · next heq => exact heq
  range _ _ _ _ := rfl
  setNextSeq _ _ _ := rfl

theorem taken_of_inbound (h : MessageStore.append s .inbound n bs = (.ok (), t)) :
    t.taken = s.taken ++ [(n, bs)] := by
  change s.append .inbound n bs = _ at h
  unfold append at h
  rcases hstore : MessageStore.append s.store .inbound n bs with ⟨_ | _, store⟩
  · rw [hstore] at h
    cases h
  · rw [hstore] at h
    cases h
    rfl

theorem taken_of_outbound {answer : Except StoreError Unit}
    (h : MessageStore.append s .outbound n bs = (answer, t)) : t.taken = s.taken := by
  change s.append .outbound n bs = _ at h
  unfold append at h
  split at h
  · contradiction
  · cases h
    rfl

theorem taken_of_refused {e : StoreError} (h : MessageStore.append s d n bs = (.error e, t)) :
    t.taken = s.taken := by
  change s.append d n bs = _ at h
  unfold append at h
  split at h
  · cases h
  · cases h
    rfl

theorem taken_of_range {first last : SeqNum} {answer : Except StoreError (List (SeqNum × Bytes))}
    (h : MessageStore.range s d first last = (answer, t)) : t.taken = s.taken := by
  cases h
  rfl

end Noted

namespace Session

variable {σ : Type}

/-- The session over a store that notes what is taken from now on. -/
def noted (s : Session σ) : Session (Noted σ) :=
  { s with store := ⟨s.store, []⟩ }

variable [MessageStore σ]

/-- The messages that a session takes in a run, with their numbers. -/
def taken (s : Session σ) (ops : List Operation) : List (SeqNum × Bytes) :=
  (s.noted.run ops).2.store.taken

/-- A run does what it does when it is noted what is taken. -/
theorem run_noted (s : Session σ) (ops : List Operation) :
    s.run ops = ((s.noted.run ops).1, (s.noted.run ops).2.bared Noted.store) :=
  run_bared Noted.wraps s.noted ops

/-! ## Numbers that were passed -/

/-- Every message that was taken is one of the counterparty, with a number that was passed. -/
def Past (I : Inputs) (s : Session (Noted σ)) : Prop :=
  ∀ e ∈ s.store.taken, e.1 < s.sequences.expectedIncoming ∧
    ∃ p, p.frame = e.2 ∧ Genuine I s.config e.1 p

section
variable {I : Inputs} {s t : Session (Noted σ)} {r : Reaction} {n : SeqNum} {p : Parked}

omit [MessageStore σ] in
theorem Past.same (hs : Past I s) (htaken : t.store.taken = s.store.taken)
    (hconfig : t.config = s.config)
    (hle : s.sequences.expectedIncoming ≤ t.sequences.expectedIncoming) : Past I t := by
  intro e he
  rw [htaken] at he
  rw [hconfig]
  obtain ⟨hlt, hp⟩ := hs e he
  exact ⟨UInt64.lt_of_lt_of_le hlt hle, hp⟩

omit [MessageStore σ] in
theorem Past.take (hs : Past I s) (hp : Genuine I s.config n p)
    (htaken : t.store.taken = s.store.taken ++ [(n, p.frame)]) (hconfig : t.config = s.config)
    (hle : s.sequences.expectedIncoming ≤ t.sequences.expectedIncoming)
    (hn : n < t.sequences.expectedIncoming) : Past I t := by
  intro e he
  rw [htaken] at he
  rw [hconfig]
  rcases List.mem_append.mp he with he | he
  · obtain ⟨hlt, hp⟩ := hs e he
    exact ⟨UInt64.lt_of_lt_of_le hlt hle, hp⟩
  · rw [List.mem_singleton.mp he]
    exact ⟨hn, p, rfl, hp⟩

theorem Past.move (hs : Past I s) (h : Move I s r t) : Past I t := by
  have hle : s.sequences.expectedIncoming ≤ t.sequences.expectedIncoming := h.ascends.le
  cases h with
  | write now _ _ hstore => exact hs.same (Noted.taken_of_outbound hstore) rfl hle
  | serve now _ _ _ hrange _ => exact hs.same (Noted.taken_of_range hrange) rfl hle
  | take hp hn hstore =>
    exact hs.take hp (Noted.taken_of_inbound hstore) rfl hle
      (SeqNum.lt_succ_of_isValid hp.valid)
  | keepLogon hp _ hn hstore =>
    refine hs.take hp (Noted.taken_of_inbound hstore) rfl hle ?_
    exact hn ▸ SeqNum.lt_succ_of_isValid hp.valid
  | _ => exact hs.same rfl rfl hle

theorem Past.fault {e : Error} (hs : Past I s) (h : Fault I s e t) : Past I t := by
  have hle : s.sequences.expectedIncoming ≤ t.sequences.expectedIncoming := h.le_expected
  have htaken : t.store.taken = s.store.taken := by
    cases h with
    | refusal h =>
      cases h with
      | idle => rfl
      | unkept hstore => exact Noted.taken_of_refused hstore
    | unread hrange => exact Noted.taken_of_range hrange
    | unwritten hrange => exact Noted.taken_of_range hrange
    | unkeptLogon _ _ _ hstore => exact Noted.taken_of_refused hstore
    | missed _ _ hstore => exact Noted.taken_of_refused hstore
  exact hs.same htaken h.config_eq hle

end

variable {s : Session σ} {config : SessionConfig} {store : σ} {opened : Nat} {n : SeqNum}
  {p : Parked}

/-- What a new session has taken in a run is of the counterparty, and has a number that the session
has passed. -/
theorem past_run_of_open {s₀ : Session σ} (h : open? config store opened = .ok s₀)
    (ops : List Operation) :
    ∀ e ∈ s₀.taken ops, e.1 < (s₀.run ops).2.sequences.expectedIncoming ∧
      ∃ p, p.frame = e.2 ∧ Genuine .any config e.1 p := by
  obtain ⟨_, rfl⟩ := open?_eq_ok_iff.mp h
  have hsound : Sound .any (fresh config store opened).noted := nofun
  have hwithin : ∀ op ∈ ops, op.Within .any := fun op _ => by cases op <;> trivial
  have hran := ran hsound hwithin
  have hpast : Past .any ((fresh config store opened).noted.run ops).2 :=
    hran.keeps (fun hmove hs => hs.move hmove) (fun hfault hs => hs.fault hfault) nofun
  have hconfig : ((fresh config store opened).noted.run ops).2.config = config :=
    hran.config_eq
  rw [run_noted]
  intro e he
  obtain ⟨hlt, hp⟩ := hpast e he
  rw [hconfig] at hp
  exact ⟨hlt, hp⟩

/-! ## Messages that come again -/

/-- What is said of a message whose number was passed. -/
def repeated (s : Session σ) (n : SeqNum) : Reaction :=
  .ofReport ⟨.sequence (.duplicate s.sequences.expectedIncoming n), .ignore⟩

/-- A message whose number was passed is reported, and leaves behind no more than the time of its
arrival. A plain reset is none: its number is not looked at. -/
theorem receive_of_lt (hopen : s.terminated = false) (hstate : s.state.isEstablished = true)
    (hp : Genuine .any s.config n p) (hlt : n < s.sequences.expectedIncoming)
    (hplain : isPlainReset p.message = false) (now : Moment) :
    s.receive p.frame now =
      (.ok (s.repeated n), { s with heartbeat := s.heartbeat.onReceived now.elapsed }) := by
  have hends : Ends (process p.frame now) s
      (fun r t => r = s.repeated n ∧
        t = { s with heartbeat := s.heartbeat.onReceived now.elapsed })
      fun _ _ => False := by
    exact ends_process_numbered hopen hstate hp hplain
      (ends_onNumbered_passed hp.valid hlt ⟨rfl, rfl⟩)
  obtain ⟨r, t, hsettle, rfl, rfl⟩ := settle_of_ends hends now
  exact hsettle

/-- However often a message whose number was passed arrives, each arrival is reported, and nothing
changes but the time of the last arrival. The induction is on the arrivals. -/
theorem run_of_lt (hopen : s.terminated = false) (hstate : s.state.isEstablished = true)
    (hp : Genuine .any s.config n p) (hlt : n < s.sequences.expectedIncoming)
    (hplain : isPlainReset p.message = false) (times : List Moment) :
    ∃ last, s.run (times.map (.receive p.frame)) =
      (times.map fun _ => .reacted (.ok (s.repeated n)),
        { s with heartbeat := s.heartbeat.onReceived last }) := by
  induction times generalizing s with
  | nil => exact ⟨s.heartbeat.lastReceived, rfl⟩
  | cons now times ih =>
    have hfirst := receive_of_lt hopen hstate hp hlt hplain now
    obtain ⟨last, hrest⟩ :=
      ih (s := { s with heartbeat := s.heartbeat.onReceived now.elapsed }) hopen hstate hp hlt
    refine ⟨last, ?_⟩
    simp only [List.map_cons, run, step, hfirst, hrest]
    rfl

/-- In every session that exchanges messages, a message whose number was passed is reported as such
and changes nothing but the time of the last arrival, whatever its type, unless it is a sequence
reset that is no gap fill. Every message that the session has taken is such a message from then on,
however often and however late it comes again. -/
theorem repeats_harmless {s₀ : Session σ} (h : open? config store opened = .ok s₀)
    (ops : List Operation) (hstate : (s₀.run ops).2.state.isEstablished = true) :
    let s := (s₀.run ops).2
    (∀ (n : SeqNum) (p : Parked), Genuine .any config n p → n < s.sequences.expectedIncoming →
      isPlainReset p.message = false → ∀ now : Moment, s.receive p.frame now =
        (.ok (s.repeated n), { s with heartbeat := s.heartbeat.onReceived now.elapsed })) ∧
    ∀ e ∈ s₀.taken ops, ∃ p, p.frame = e.2 ∧ Genuine .any config e.1 p ∧
      (isPlainReset p.message = false → ∀ times : List Moment, ∃ last,
        s.run (times.map (.receive e.2)) =
          (times.map fun _ => .reacted (.ok (s.repeated e.1)),
            { s with heartbeat := s.heartbeat.onReceived last })) := by
  intro s
  have hconfig : s.config = config := config_run_of_open h ops
  have hopen : s.terminated = false := by
    refine Bool.eq_false_iff.mpr fun hended => ?_
    have hdisconnected := ((steady_of_open h).run ops).ended hended
    rw [hdisconnected] at hstate
    cases hstate
  constructor
  · intro n p hp hlt hplain now
    exact receive_of_lt hopen hstate (hconfig ▸ hp) hlt hplain now
  · intro e he
    obtain ⟨hlt, p, hframe, hp⟩ := past_run_of_open h ops e he
    refine ⟨p, hframe, hp, fun hplain times => ?_⟩
    rw [← hframe]
    exact run_of_lt hopen hstate (hconfig ▸ hp) hlt hplain times

open Sample

/-- A heartbeat comes too early, waits, and is taken when the missing message has come. Then it
comes twice more. -/
theorem repeats_harmless_parked :
    let s₀ : Session MemoryStore := .fresh acceptor .empty 0
    let early := Sample.frame initiator .heartbeat 3 []
    let s := (s₀.run [.receive (Sample.logon initiator) moment, .receive early moment,
      .receive (Sample.frame initiator .newOrderSingle 2 []) moment]).2
    s.sequences.expectedIncoming = 4 ∧
      ∃ last, s.run [.receive early moment, .receive early moment] =
        ([.reacted (.ok (s.repeated 3)), .reacted (.ok (s.repeated 3))],
          { s with heartbeat := s.heartbeat.onReceived last }) := by
  have hharmless := (repeats_harmless open_acceptor
    [.receive (Sample.logon initiator) moment,
      .receive (Sample.frame initiator .heartbeat 3 []) moment,
      .receive (Sample.frame initiator .newOrderSingle 2 []) moment] (by decide +kernel)).2
  obtain ⟨p, hframe, hp, hrepeats⟩ :=
    hharmless (3, Sample.frame initiator .heartbeat 3 []) (by decide +kernel)
  have hplain : ((Message.decode acceptor.beginString
      (Sample.frame initiator .heartbeat 3 [])).toOption.any isPlainReset) = false := by
    decide +kernel
  have hdecoded : Message.decode acceptor.beginString (Sample.frame initiator .heartbeat 3 []) =
      .ok p.message := by
    rw [← hp.decoded, hframe]
  rw [hdecoded] at hplain
  exact ⟨by decide +kernel, hrepeats hplain [moment, moment]⟩

end Session

end FixProtocol
