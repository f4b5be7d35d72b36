import FixProtocol.Proofs.Session.Idle
import FixProtocol.Proofs.Session.Delivery
import FixProtocol.Proofs.Session.Tally
import FixProtocol.Session.Link

/-!
# What the owner asks for is done or refused

A message that the owner of a session asks for passes several checks, is written and is kept, and
only then is its number used up. So whatever refuses it, a check, the encoder or the store, nothing
has changed yet.

- `MessageStore.RefusesCleanly`: a store that refuses a message stays as it was.
- `UsesUp`: a message was kept under the next number, and the number was used up.
- `asks_atomically`: what the owner asks for uses up one number or changes nothing, and the numbers
  used in a run are the messages that the store has kept.
-/

namespace FixProtocol

/-- A store that refuses a message stays as it was. -/
def MessageStore.RefusesCleanly (σ : Type) [MessageStore σ] : Prop :=
  ∀ (store store' : σ) (d : Direction) (n : SeqNum) (frame : Bytes) (e : StoreError),
    MessageStore.append store d n frame = (.error e, store') → store' = store

theorem FaultyStore.refusesCleanly : MessageStore.RefusesCleanly FaultyStore := by
  intro store store' d n frame e h
  simp only [MessageStore.append] at h
  split at h
  · cases h
    rfl
  · obtain ⟨herror, rfl⟩ := Prod.mk.inj h
    have hmemory : (store.memory.append d n frame).2 = store.memory :=
      MemoryStore.append_eq_error (Prod.ext herror rfl)
    rw [hmemory]

namespace Session

variable {σ : Type} [MessageStore σ] {s t : Session σ} {frame : Bytes}

/-- Does the owner ask for a message to be sent? -/
def Operation.asks : Operation → Bool
  | .logon _ | .send .. | .logout .. => true
  | _ => false

/-- A message was kept under the next number, and the number was used up. -/
structure UsesUp (s : Session σ) (frame : Bytes) (t : Session σ) : Prop where
  kept : MessageStore.append s.store .outbound s.sequences.nextOutgoing frame = (.ok (), t.store)
  sequences : t.sequences = s.sequences.allocate

theorem Emits.usesUp {type : MsgType} {body : List Field} {now : Moment}
    (h : Emits s type body now frame t) : UsesUp s frame t := by
  obtain ⟨store, hstore, rfl⟩ := h.kept
  exact ⟨hstore, rfl⟩

/-- The number that follows is one more, but for the greatest word, which zero follows. -/
theorem UsesUp.toNat_next (h : UsesUp s frame t) :
    t.sequences.nextOutgoing.toNat =
      if s.sequences.nextOutgoing = .top then 0 else s.sequences.nextOutgoing.toNat + 1 := by
  rw [h.sequences]
  show (s.sequences.nextOutgoing + 1).toNat = _
  by_cases htop : s.sequences.nextOutgoing = .top
  · rw [if_pos htop, htop]
    rfl
  · rw [if_neg htop, SeqNum.toNat_succ htop]

/-- Over a store that refuses cleanly a message that is refused has changed nothing. -/
theorem Refusal.unchanged (hstore : MessageStore.RefusesCleanly σ) {e : Error}
    (h : Refusal s e t) : t = s := by
  cases h with
  | idle => rfl
  | unkept happend => rw [hstore _ _ _ _ _ _ happend]

/-- What the owner asks for uses up a number, or is refused. -/
theorem uses_or_refused (s : Session σ) {op : Operation} (hop : op.asks = true) :
    (∃ frame t, s.step op = (.sent (.ok frame), t) ∧ UsesUp s frame t) ∨
      ∃ e t, s.step op = (.sent (.error e), t) ∧ Refusal s e t := by
  have hstep {c : Call σ Bytes} (h : Ends c s (UsesUp s) (Refusal s)) :
      (∃ frame t, (.sent (c.run s).1, (c.run s).2) = (Outcome.sent (.ok frame), t) ∧
        UsesUp s frame t) ∨
      ∃ e t, (.sent (c.run s).1, (c.run s).2) = (Outcome.sent (.error e), t) ∧ Refusal s e t := by
    rcases run_cases h with ⟨frame, t, hrun, huses⟩ | ⟨e, t, hrun, hrefused⟩
    · exact .inl ⟨frame, t, by rw [hrun], huses⟩
    · exact .inr ⟨e, t, by rw [hrun], hrefused⟩
  cases op with
  | logon now =>
    refine hstep ((ends_logon_emits now).imp ?_)
    rintro frame t ⟨_, _, _, u, hemits, rfl⟩
    exact ⟨hemits.usesUp.kept, hemits.usesUp.sequences⟩
  | send type fields now =>
    exact hstep ((ends_send_emits type fields now).imp fun _ _ h => h.2.2.2.usesUp)
  | logout text now =>
    refine hstep ((ends_logout_emits text now).imp ?_)
    rintro frame t ⟨_, _, u, hemits, rfl⟩
    exact ⟨hemits.usesUp.kept, hemits.usesUp.sequences⟩
  | receive => cases hop
  | timer => cases hop
  | disconnect => cases hop

/-- Over a store that refuses cleanly, a message that the owner asks for is refused and nothing has
changed, or it is kept under the next number and uses it up. Hence over any store the numbers that a
run has used are the messages to send that the store has kept, as long as there are numbers; a
session that uses up the greatest word goes on with zero. -/
theorem asks_atomically (hstore : MessageStore.RefusesCleanly σ) :
    (∀ (s : Session σ) (op : Operation), op.asks = true →
      (∃ e, s.step op = (.sent (.error e), s)) ∨
      ∃ frame t, s.step op = (.sent (.ok frame), t) ∧
        MessageStore.append s.store .outbound s.sequences.nextOutgoing frame = (.ok (), t.store) ∧
        t.sequences.nextOutgoing.toNat =
          if s.sequences.nextOutgoing = .top then 0 else s.sequences.nextOutgoing.toNat + 1) ∧
    ∀ (config : SessionConfig) (store : σ) (opened : Nat) (s : Session σ),
      open? config store opened = .ok s → ∀ ops : List Operation,
        s.run ops = ((s.tallied.run ops).1, (s.tallied.run ops).2.untallied) ∧
        (s.sequences.nextOutgoing.toNat + s.keptToSend ops < 2 ^ 64 →
          (s.run ops).2.sequences.nextOutgoing.toNat =
            s.sequences.nextOutgoing.toNat + s.keptToSend ops) := by
  constructor
  · intro s op hop
    rcases uses_or_refused s hop with ⟨frame, t, hstep, huses⟩ | ⟨e, t, hstep, hrefused⟩
    · exact .inr ⟨frame, t, hstep, huses.kept, huses.toNat_next⟩
    · rw [hrefused.unchanged hstore] at hstep
      exact .inl ⟨e, hstep⟩
  · intro config store opened s hopen ops
    refine ⟨run_tallied s ops, fun hroom => ?_⟩
    rw [numbers_kept hopen ops, UInt64.toNat_add, UInt64.toNat_ofNat']
    omega

end Session

namespace Sample

/-- A store that refuses the second message to send. -/
def refusing : FaultyStore :=
  { FaultyStore.ofMemory .empty with failAppend := some (.outbound, 2) }

end Sample

namespace Session

open Sample

/-- The logon is answered under number 1; the order after it is refused, and nothing has changed. So
one number is used up, as one message was kept. -/
theorem asks_atomically_refusing :
    MessageStore.RefusesCleanly FaultyStore ∧
      let s : Session FaultyStore := .fresh acceptor refusing 0
      let order := Operation.send .newOrderSingle [] moment
      let t := (s.run [.receive (Sample.logon initiator) moment]).2
      (∃ e, t.step order = (.sent (.error e), t)) ∧
        s.keptToSend [.receive (Sample.logon initiator) moment, order] = 1 ∧
        (s.run [.receive (Sample.logon initiator) moment, order]).2.sequences.nextOutgoing.toNat =
          1 + 1 := by
  have hatomic := asks_atomically FaultyStore.refusesCleanly
  refine ⟨FaultyStore.refusesCleanly, ?_, by decide +kernel, ?_⟩
  · rcases hatomic.1 _ (.send .newOrderSingle [] moment) rfl with hrefused | ⟨frame, t, hsent, _⟩
    · exact hrefused
    · have hnone : (((fresh acceptor refusing 0).run
          [.receive (Sample.logon initiator) moment]).2.step
            (.send .newOrderSingle [] moment)).1.frames = [] := by
        decide +kernel
      rw [hsent] at hnone
      cases hnone
  · have hopen : open? acceptor refusing 0 = .ok (.fresh acceptor refusing 0) :=
      open?_eq_ok_iff.mpr ⟨validate_acceptor, rfl⟩
    have hnumbers := (hatomic.2 _ _ _ _ hopen
      [.receive (Sample.logon initiator) moment, .send .newOrderSingle [] moment]).2
    rw [show keptToSend _ _ = 1 by decide +kernel] at hnumbers
    exact hnumbers (by decide)

/-- The greatest word is used up like any other number, and the session goes on with zero. -/
example :
    ((fresh initiator (MemoryStore.startingAt .top .first) 0).step
      (.logon moment)).2.sequences.nextOutgoing = 0 := by
  decide +kernel

end Session

end FixProtocol
