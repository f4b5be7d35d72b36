import FixProtocol.Proofs.Session.Resending

/-!
# Stores that sessions leave behind

- `Resumable`: a store that a session can go on with.
- `AllHeaded`, `Orderly`: what every move of a session keeps of its store.
- `resumable_of_run`: whatever a session does, another one can go on with its store, as long as
  there are numbers left.
-/

namespace FixProtocol

open Session

/-- A store that a session with the settings `c` can go on with: everything kept is below the
counters, what was sent can be sent again, and there is room for two numbers more. -/
structure Resumable (c : SessionConfig) (store : MemoryStore) : Prop where
  inbound : store.inbound.last < store.inbound.nextSeq
  outbound : store.outbound.last < store.outbound.nextSeq
  servable : Servable c store.outbound.entries
  room : store.outbound.nextSeq < .greatest

theorem resumable_empty (c : SessionConfig) : Resumable c .empty where
  inbound := by decide
  outbound := by decide
  servable := ⟨nofun, nofun⟩
  room := by decide

/-- A journal ends before the number that it goes on with, unless it is full. -/
def Journal.Below (j : Journal) : Prop :=
  j.last < j.nextSeq ∨ j.nextSeq = .top

theorem Journal.below_append {j j' : Journal} {n : SeqNum} {bs : Bytes}
    (h : j.append n bs = .ok j') : j'.Below := by
  unfold Below
  rw [(last_append h).2, nextSeq_append h]
  -- The greatest word is its own successor, so a journal that holds it does not end below its
  -- number.
  by_cases htop : n = .top
  · right
    have hnext : n.next = .top := by rw [SeqNum.next, if_pos htop]
    rw [hnext]
    show (if j.nextSeq ≤ .top then .top else j.nextSeq) = SeqNum.top
    split <;> grind
  · left
    exact UInt64.lt_of_lt_of_le (SeqNum.lt_next htop) (SeqNum.le_max_right j.nextSeq n.next)

namespace Session

variable {I : Inputs} {s t : Session MemoryStore} {r : Reaction}

/-- Everything that a session keeps of what was sent has its header. -/
def AllHeaded (s : Session MemoryStore) : Prop :=
  ∀ e ∈ s.store.outbound.entries, Headed s.config e.1 e.2

theorem AllHeaded.of_eq (hs : AllHeaded s) (hconfig : t.config = s.config)
    (hstore : t.store.outbound = s.store.outbound) : AllHeaded t := by
  unfold AllHeaded
  rw [hconfig, hstore]
  exact hs

theorem AllHeaded.move (hs : AllHeaded s) (h : Move I s r t) : AllHeaded t := by
  rcases h.outbound_cases with ⟨hstore, _⟩ | ⟨type, body, now, frame, j, _, hencode, hj, rfl⟩
  · exact hs.of_eq h.config_eq hstore
  · intro e he
    have he : e ∈ j.entries := he
    rw [Journal.entries_append hj] at he
    rcases List.mem_append.mp he with he | he
    · exact hs e he
    · rw [List.mem_singleton.mp he]
      exact headed_of_encode hencode

theorem AllHeaded.fault {e : Error} (hs : AllHeaded s) (h : Fault I s e t) : AllHeaded t :=
  hs.of_eq h.config_eq h.outbound_eq.1

/-- The store of a session is in order: its journals end before the numbers that they go on with,
the inbound one before the expected number too, and everything sent has the session's header. -/
structure Orderly (s : Session MemoryStore) : Prop where
  headed : ∀ e ∈ s.store.outbound.entries, Headed s.config e.1 e.2
  outbound : s.store.outbound.Below
  inbound : s.store.inbound.Below
  expected : s.store.inbound.last < s.sequences.expectedIncoming

/-- What leaves the store alone and does not move the expected number back keeps it in order. -/
theorem Orderly.same (hs : Orderly s) (hconfig : t.config = s.config) (hstore : t.store = s.store)
    (hexpected : s.sequences.expectedIncoming ≤ t.sequences.expectedIncoming) : Orderly t where
  headed := by
    rw [hconfig, hstore]
    exact hs.headed
  outbound := hstore ▸ hs.outbound
  inbound := hstore ▸ hs.inbound
  expected := by
    rw [hstore]
    exact UInt64.lt_of_lt_of_le hs.expected hexpected

/-- A message that is kept under a number below the expected one leaves the store in order. -/
theorem Orderly.keep (hs : Orderly s) {n : SeqNum} {bs : Bytes} {store : MemoryStore}
    (hstore : MessageStore.append s.store .inbound n bs = (.ok (), store))
    (hn : n < t.sequences.expectedIncoming) (hconfig : t.config = s.config)
    (ht : t.store = store) : Orderly t := by
  obtain ⟨j, hj, rfl⟩ := MemoryStore.append_eq_ok hstore
  have hinbound : t.store.inbound = j := by rw [ht]; rfl
  have houtbound : t.store.outbound = s.store.outbound := by rw [ht]; rfl
  constructor
  · rw [hconfig, houtbound]
    exact hs.headed
  · rw [houtbound]
    exact hs.outbound
  · rw [hinbound]
    exact Journal.below_append hj
  · rw [hinbound, (Journal.last_append hj).2]
    exact hn

theorem Orderly.move (hs : Orderly s) (h : Move I s r t) : Orderly t := by
  have hheaded : AllHeaded t := AllHeaded.move hs.headed h
  cases h with
  | write now _ _ hstore =>
    obtain ⟨j, hj, rfl⟩ := MemoryStore.append_eq_ok hstore
    exact ⟨hheaded, Journal.below_append hj, hs.inbound, hs.expected⟩
  | serve now _ _ _ hrange _ =>
    obtain ⟨_, rfl⟩ := MemoryStore.range_eq hrange
    exact hs.same rfl rfl (UInt64.le_refl _)
  | @take n p store hp _ hstore =>
    exact hs.keep hstore (SeqNum.lt_succ_of_isValid hp.valid) rfl rfl
  -- The number of a logon is counted before the logon is kept, so for a moment nothing is kept
  -- under the number before the expected one.
  | @countLogon n p hp _ hn =>
    have hle : s.sequences.expectedIncoming ≤ n + 1 := hn ▸ SeqNum.le_succ_of_isValid hp.valid
    exact hs.same rfl rfl hle
  | @keepLogon n p store hp _ hn hstore =>
    have hlt : n < s.sequences.expectedIncoming := hn ▸ SeqNum.lt_succ_of_isValid hp.valid
    exact hs.keep hstore hlt rfl rfl
  | @advance n number p _ _ _ _ hle =>
    have hlt := UInt64.lt_of_lt_of_le hs.expected hle
    exact ⟨hs.headed, hs.outbound, .inl hlt, hlt⟩
  | _ => exact hs.same rfl rfl (UInt64.le_refl _)

theorem Orderly.fault {e : Error} (hs : Orderly s) (h : Fault I s e t) : Orderly t := by
  rcases h.eq_or_counted with rfl | ⟨_, hp, rfl⟩
  · exact hs
  · exact hs.same rfl rfl (SeqNum.le_succ_of_isValid hp.valid)

/-- Every run leaves the store in order. -/
theorem Orderly.ran {os : List Outcome} (hs : Orderly s) (h : Ran I s os t) : Orderly t :=
  h.keeps (fun hmove hs => hs.move hmove) (fun hfault hs => hs.fault hfault) hs

theorem orderly_of_open {c : SessionConfig} {store : MemoryStore} {start : Nat}
    (h : open? c store start = .ok s) (hstore : Resumable c store) : Orderly s := by
  obtain ⟨_, rfl⟩ := open?_eq_ok_iff.mp h
  exact ⟨hstore.servable.headed, .inl hstore.outbound, .inl hstore.inbound,
    SeqNum.lt_max_left _ hstore.inbound⟩

/-- Whatever a session does, another one can go on with the store that it leaves behind, as long as
its counters have not come to the end. -/
theorem resumable_of_run {c : SessionConfig} {store : MemoryStore} {start : Nat}
    (h : open? c store start = .ok s) (hstore : Resumable c store) (ops : List Operation)
    (hinbound : (s.run ops).2.store.inbound.nextSeq ≠ .top)
    (houtbound : (s.run ops).2.store.outbound.nextSeq < .greatest)
    (hshort : ∀ e ∈ (s.run ops).2.store.outbound.entries, e.2.length < 2 ^ 63) :
    Resumable c (s.run ops).2.store := by
  have horderly := (orderly_of_open h hstore).ran (ran_of_open h ops)
  refine ⟨?_, ?_, ⟨?_, fun e he _ _ => hshort e he⟩, houtbound⟩
  · exact horderly.inbound.resolve_right hinbound
  · have hne : (s.run ops).2.store.outbound.nextSeq ≠ .top := by grind
    exact horderly.outbound.resolve_right hne
  · have hheaded := horderly.headed
    rwa [config_run_of_open h ops] at hheaded

end Session

end FixProtocol
