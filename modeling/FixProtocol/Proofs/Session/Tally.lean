import FixProtocol.Proofs.Session.Erasure

/-!
# Counting what a store keeps

A tally that is kept beside a store is not seen: what a session does with the tally, it does without.

- `Tallied`: a store, and how many messages to send it has kept.
- `run_tallied`: a run does with a tally what it does without.
- `keptToSend`: how many messages to send the store keeps in a run.
- `numbers_kept`: a session has used as many numbers as its store has kept messages to send.
-/

namespace FixProtocol

/-- A store, and how many messages to send it has kept. -/
structure Tallied (σ : Type) where
  store : σ
  kept : Nat

namespace Tallied

variable {σ : Type} [MessageStore σ]

/-- Keeps a message. A message to send that was kept is counted. -/
def append (s : Tallied σ) (d : Direction) (n : SeqNum) (bs : Bytes) :
    Except StoreError Unit × Tallied σ :=
  match d, MessageStore.append s.store d n bs with
  | .outbound, (.ok (), store) => (.ok (), ⟨store, s.kept + 1⟩)
  | _, (answer, store) => (answer, ⟨store, s.kept⟩)

instance : MessageStore (Tallied σ) where
  append := append
  range s d first last :=
    let (answer, store) := MessageStore.range s.store d first last
    (answer, { s with store })
  nextSeq s := MessageStore.nextSeq s.store
  setNextSeq s d n := { s with store := MessageStore.setNextSeq s.store d n }

variable {s t : Tallied σ} {d : Direction} {n : SeqNum} {bs : Bytes}

/-- The store answers with a tally what it answers without. -/
theorem append_eq (s : Tallied σ) (d : Direction) (n : SeqNum) (bs : Bytes) :
    MessageStore.append s.store d n bs =
      ((MessageStore.append s d n bs).1, (MessageStore.append s d n bs).2.store) := by
  show _ = ((s.append d n bs).1, (s.append d n bs).2.store)
  unfold append
  split
  · next heq => exact heq
  · next heq => exact heq

/-- What is kept beside the store is not seen. -/
theorem wraps : MessageStore.Wraps (σ := σ) Tallied.store where
  append := append_eq
  range _ _ _ _ := rfl
  setNextSeq _ _ _ := rfl

theorem kept_of_outbound (h : MessageStore.append s .outbound n bs = (.ok (), t)) :
    t.kept = s.kept + 1 := by
  change s.append .outbound n bs = _ at h
  unfold append at h
  rcases hstore : MessageStore.append s.store .outbound n bs with ⟨_ | _, store⟩
  · rw [hstore] at h
    cases h
  · rw [hstore] at h
    cases h
    rfl

theorem kept_of_inbound {answer : Except StoreError Unit}
    (h : MessageStore.append s .inbound n bs = (answer, t)) : t.kept = s.kept := by
  change s.append .inbound n bs = _ at h
  unfold append at h
  split at h
  · contradiction
  · cases h
    rfl

theorem kept_of_refused {e : StoreError} (h : MessageStore.append s d n bs = (.error e, t)) :
    t.kept = s.kept := by
  change s.append d n bs = _ at h
  unfold append at h
  split at h
  · cases h
  · cases h
    rfl

theorem kept_of_range {first last : SeqNum} {answer : Except StoreError (List (SeqNum × Bytes))}
    (h : MessageStore.range s d first last = (answer, t)) : t.kept = s.kept := by
  cases h
  rfl

end Tallied

namespace Session

variable {σ : Type}

/-- The session over a store with a tally that starts at zero. -/
def tallied (s : Session σ) : Session (Tallied σ) :=
  { s with store := ⟨s.store, 0⟩ }

/-- The session over the store alone. -/
def untallied (s : Session (Tallied σ)) : Session σ :=
  { s with store := s.store.store }

variable [MessageStore σ]

/-- How many messages to send the store keeps in a run. -/
def keptToSend (s : Session σ) (ops : List Operation) : Nat :=
  (s.tallied.run ops).2.store.kept

/-- A run goes on as it does with a tally. -/
theorem run_tallied (s : Session σ) (ops : List Operation) :
    s.run ops = ((s.tallied.run ops).1, (s.tallied.run ops).2.untallied) :=
  run_bared Tallied.wraps s.tallied ops

/-- As many numbers were used since `first` as messages to send were kept. -/
def Numbers (first : SeqNum) (s : Session (Tallied σ)) : Prop :=
  s.sequences.nextOutgoing = first + .ofNat s.store.kept

section
variable {I : Inputs} {first : SeqNum} {s t : Session (Tallied σ)} {r : Reaction}

omit [MessageStore σ] in
theorem Numbers.same (hs : Numbers first s) (hkept : t.store.kept = s.store.kept)
    (hnext : t.sequences.nextOutgoing = s.sequences.nextOutgoing) : Numbers first t := by
  unfold Numbers
  rw [hnext, hkept]
  exact hs

theorem Numbers.move (hs : Numbers first s) (h : Move I s r t) : Numbers first t := by
  cases h with
  | @write _ _ now _ store _ _ hstore =>
    have hkept : store.kept = s.store.kept + 1 := Tallied.kept_of_outbound hstore
    calc s.sequences.nextOutgoing + 1
      _ = first + .ofNat s.store.kept + 1 := by rw [show s.sequences.nextOutgoing = _ from hs]
      _ = first + .ofNat (s.store.kept + 1) := by rw [UInt64.ofNat_add, ← UInt64.add_assoc]; rfl
      _ = first + .ofNat store.kept := by rw [hkept]
  | serve now _ _ _ hrange _ => exact hs.same (Tallied.kept_of_range hrange) rfl
  | take _ _ hstore => exact hs.same (Tallied.kept_of_inbound hstore) rfl
  | keepLogon _ _ _ hstore => exact hs.same (Tallied.kept_of_inbound hstore) rfl
  | _ => exact hs

theorem Numbers.fault {e : Error} (hs : Numbers first s) (h : Fault I s e t) :
    Numbers first t := by
  cases h with
  | refusal h =>
    cases h with
    | idle => exact hs
    | unkept hstore => exact hs.same (Tallied.kept_of_refused hstore) rfl
  | unread hrange => exact hs.same (Tallied.kept_of_range hrange) rfl
  | unwritten hrange => exact hs.same (Tallied.kept_of_range hrange) rfl
  | unkeptLogon _ _ _ hstore => exact hs.same (Tallied.kept_of_refused hstore) rfl
  | missed _ _ hstore => exact hs.same (Tallied.kept_of_refused hstore) rfl

end

/-- A session has used as many numbers as its store has kept messages to send, in words. -/
theorem numbers_kept {config : SessionConfig} {store : σ} {opened : Nat} {s : Session σ}
    (h : open? config store opened = .ok s) (ops : List Operation) :
    (s.run ops).2.sequences.nextOutgoing = s.sequences.nextOutgoing + .ofNat (s.keptToSend ops) := by
  obtain ⟨_, rfl⟩ := open?_eq_ok_iff.mp h
  have hsound : Sound .any (fresh config store opened).tallied := nofun
  have hwithin : ∀ op ∈ ops, op.Within .any := fun op _ => by cases op <;> trivial
  have hran := ran hsound hwithin
  have hstart : Numbers (fresh config store opened).sequences.nextOutgoing
      (fresh config store opened).tallied := (UInt64.add_zero _).symm
  rw [run_tallied]
  exact hran.keeps (fun hmove hs => hs.move hmove) (fun hfault hs => hs.fault hfault) hstart

end Session

end FixProtocol
