import FixProtocol.Proofs.Session.Calls
import FixProtocol.Store.Memory

/-!
# What a session hands over

Over a store in memory, everything that a session hands over to the application was just kept in its
inbound journal, in the same order. The journal ascends, so no message is handed over twice or late.

- `Move.outbound_cases`, `Fault.eq_or_counted`: how moves and failures change such a store.
- `Takes`: which messages a chain of moves takes, keeps and hands over.
- `Hands`: which messages a run hands over, and where they are kept.
- `run_delivers_in_order`: over a whole run, the messages ascend, each is what the journal holds
  under its number, and the expected number never falls.
- `receive_delivers_iff`: a call hands over the application messages that it keeps exactly when it
  does not fail; a call that fails hands over nothing, whatever it kept.
-/

namespace FixProtocol

namespace MemoryStore

/-- A message that is kept is added to one journal, above all others; the other stays as it is. -/
theorem append_eq_ok {s s' : MemoryStore} {d : Direction} {n : SeqNum} {bs : Bytes}
    (h : MessageStore.append s d n bs = (.ok (), s')) :
    ∃ j, (s.journal d).append n bs = .ok j ∧ s' = s.withJournal d j := by
  have h : s.append d n bs = (.ok (), s') := h
  unfold append at h
  cases hj : (s.journal d).append n bs with
  | ok j =>
    rw [hj] at h
    cases h
    exact ⟨j, rfl, rfl⟩
  | error e => rw [hj] at h; cases h

/-- A message above all others is kept. -/
theorem append_of_lt {s : MemoryStore} {d : Direction} {n : SeqNum} (h : (s.journal d).last < n)
    (bs : Bytes) :
    ∃ j, (s.journal d).append n bs = .ok j ∧
      MessageStore.append s d n bs = (.ok (), s.withJournal d j) := by
  cases hj : (s.journal d).append n bs with
  | ok j =>
    refine ⟨j, rfl, ?_⟩
    show s.append d n bs = _
    rw [append, hj]
  | error e =>
    have := (Journal.append_eq_error_iff.mp hj).1
    exact absurd h (UInt64.not_lt.mpr this)

/-- A message that is refused changes nothing. -/
theorem append_eq_error {s s' : MemoryStore} {d : Direction} {n : SeqNum} {bs : Bytes}
    {e : StoreError} (h : MessageStore.append s d n bs = (.error e, s')) : s' = s := by
  have h : s.append d n bs = (.error e, s') := h
  unfold append at h
  cases hj : (s.journal d).append n bs with
  | ok j => rw [hj] at h; cases h
  | error e' => rw [hj] at h; cases h; rfl

theorem range_eq {s s' : MemoryStore} {d : Direction} {first last : SeqNum}
    {result : Except StoreError (List (SeqNum × Bytes))}
    (h : MessageStore.range s d first last = (result, s')) :
    result = .ok (s.range d first last) ∧ s' = s := by
  have h : (Except.ok (s.range d first last), s) = (result, s') := h
  cases h
  exact ⟨rfl, rfl⟩

end MemoryStore

namespace Session

/-- The messages that an operation hands over to the application. -/
def Outcome.delivered : Outcome → List Message
  | .reacted (.ok reaction) => reaction.delivered
  | _ => []

/-- A message under its number, as a journal keeps it. -/
def kept (e : SeqNum × Parked) : SeqNum × Bytes :=
  (e.1, e.2.frame)

variable {I : Inputs} {s t u : Session MemoryStore} {r r' : Reaction}

/-- From `s` to `t` exactly the messages in `taken` were kept, in this order, and what is handed
over are those of them that are not the session's own. -/
structure Takes (I : Inputs) (s : Session MemoryStore) (r : Reaction) (t : Session MemoryStore)
    (taken : List (SeqNum × Parked)) : Prop where
  genuine : ∀ e ∈ taken, Genuine I s.config e.1 e.2
  entries : t.store.inbound.entries = s.store.inbound.entries ++ taken.map kept
  delivered : r.delivered = taken.flatMap fun e => handedOver e.2.message
  expected : s.sequences.expectedIncoming ≤ t.sequences.expectedIncoming
  config : t.config = s.config

theorem Takes.trans {taken taken' : List (SeqNum × Parked)} (h : Takes I s r t taken)
    (h' : Takes I t r' u taken') : Takes I s (r ++ r') u (taken ++ taken') where
  genuine := by
    intro e he
    rcases List.mem_append.mp he with he | he
    · exact h.genuine e he
    · exact h.config ▸ h'.genuine e he
  entries := by rw [h'.entries, h.entries, List.map_append, List.append_assoc]
  delivered := by rw [Reaction.delivered_append, h.delivered, h'.delivered, List.flatMap_append]
  expected := UInt64.le_trans h.expected h'.expected
  config := h'.config.trans h.config

/-- A move that leaves the inbound journal alone takes nothing. -/
theorem Takes.nothing (hentries : t.store.inbound.entries = s.store.inbound.entries)
    (hdelivered : r.delivered = [])
    (hexpected : s.sequences.expectedIncoming ≤ t.sequences.expectedIncoming)
    (hconfig : t.config = s.config) : Takes I s r t [] where
  genuine := nofun
  entries := by rw [hentries, List.map_nil, List.append_nil]
  delivered := hdelivered
  expected := hexpected
  config := hconfig

/-- Keeping a message in the outbound journal leaves the inbound one alone. -/
theorem inbound_of_append_outbound {s s' : MemoryStore} {n : SeqNum} {bs : Bytes}
    (h : MessageStore.append s .outbound n bs = (.ok (), s')) : s'.inbound = s.inbound := by
  obtain ⟨j, _, rfl⟩ := MemoryStore.append_eq_ok h
  rfl

/-- Keeping a message in the inbound journal leaves the outbound one alone. -/
theorem outbound_of_append_inbound {s s' : MemoryStore} {n : SeqNum} {bs : Bytes}
    (h : MessageStore.append s .inbound n bs = (.ok (), s')) : s'.outbound = s.outbound := by
  obtain ⟨j, _, rfl⟩ := MemoryStore.append_eq_ok h
  rfl

/-- A move leaves the outbound side alone, or writes one message. -/
theorem Move.outbound_cases (h : Move I s r t) :
    (t.store.outbound = s.store.outbound ∧
        t.sequences.nextOutgoing = s.sequences.nextOutgoing) ∨
      ∃ (type : MsgType) (body : List Field) (now : Moment) (frame : Bytes) (j : Journal),
        Writes I.type type body ∧
        Wire.encode (s.header type s.sequences.nextOutgoing now.utc ++ body) = .ok frame ∧
        s.store.outbound.append s.sequences.nextOutgoing frame = .ok j ∧
        t = s.written { s.store with outbound := j } now := by
  cases h with
  | write now hwrites hencode hstore =>
    obtain ⟨j, hj, rfl⟩ := MemoryStore.append_eq_ok hstore
    exact .inr ⟨_, _, now, _, j, hwrites, hencode, hj, rfl⟩
  | serve _ _ _ _ hrange _ =>
    obtain ⟨_, rfl⟩ := MemoryStore.range_eq hrange
    exact .inl ⟨rfl, rfl⟩
  | take _ _ hstore => exact .inl ⟨outbound_of_append_inbound hstore, rfl⟩
  | keepLogon _ _ _ hstore => exact .inl ⟨outbound_of_append_inbound hstore, rfl⟩
  | _ => exact .inl ⟨rfl, rfl⟩

/-- A message that cannot be sent changes nothing over a store in memory. -/
theorem Refusal.eq {e : Error} (h : Refusal s e t) : t = s := by
  cases h with
  | idle => rfl
  | unkept h =>
    cases MemoryStore.append_eq_error h
    rfl

/-- Since its last move, a call that fails has counted the expected number at most. -/
theorem Fault.eq_or_counted {e : Error} (h : Fault I s e t) :
    t = s ∨ ∃ p, Genuine I s.config s.sequences.expectedIncoming p ∧
      t = s.counted s.sequences.expectedIncoming := by
  cases h with
  | refusal h => exact .inl h.eq
  | unread h =>
    cases (MemoryStore.range_eq h).2
    exact .inl rfl
  | unwritten h =>
    cases (MemoryStore.range_eq h).2
    exact .inl rfl
  | unkeptLogon _ _ _ h =>
    cases MemoryStore.append_eq_error h
    exact .inl rfl
  | @missed n p _ _ hp hn h =>
    cases MemoryStore.append_eq_error h
    subst hn
    exact .inr ⟨p, hp, rfl⟩

/-- It has left the outbound side alone. -/
theorem Fault.outbound_eq {e : Error} (h : Fault I s e t) :
    t.store.outbound = s.store.outbound ∧
      t.sequences.nextOutgoing = s.sequences.nextOutgoing := by
  rcases h.eq_or_counted with rfl | ⟨_, _, rfl⟩
  · exact ⟨rfl, rfl⟩
  · exact ⟨rfl, rfl⟩

theorem entries_of_append_inbound {s s' : MemoryStore} {n : SeqNum} {bs : Bytes}
    (h : MessageStore.append s .inbound n bs = (.ok (), s')) :
    s'.inbound.entries = s.inbound.entries ++ [(n, bs)] := by
  obtain ⟨j, hj, rfl⟩ := MemoryStore.append_eq_ok h
  exact Journal.entries_append hj

/-- What a single move takes. -/
theorem Move.takes (h : Move I s r t) : ∃ taken, Takes I s r t taken := by
  cases h with
  | write now _ _ hstore =>
    exact ⟨[], .nothing (congrArg _ (inbound_of_append_outbound hstore)) rfl (UInt64.le_refl _) rfl⟩
  | serve now _ _ _ hrange _ =>
    obtain ⟨_, rfl⟩ := MemoryStore.range_eq hrange
    exact ⟨[], .nothing rfl rfl (UInt64.le_refl _) rfl⟩
  | @take n p store hp hn hstore =>
    refine ⟨[(n, p)], ?_, entries_of_append_inbound hstore, ?_, ?_, rfl⟩
    · rintro e he
      rw [List.mem_singleton.mp he]
      exact hp
    · rw [List.flatMap_singleton]
    · subst hn
      exact SeqNum.le_succ_of_isValid hp.valid
  -- A logon is counted by one move and kept by another, with the answer in between.
  | countLogon hp _ hn =>
    subst hn
    exact ⟨[], .nothing rfl rfl (SeqNum.le_succ_of_isValid hp.valid) rfl⟩
  | @keepLogon n p store hp htype _ hstore =>
    refine ⟨[(n, p)], ?_, entries_of_append_inbound hstore, ?_, UInt64.le_refl _, rfl⟩
    · rintro e he
      rw [List.mem_singleton.mp he]
      exact hp
    · rw [List.flatMap_singleton, handedOver, htype]
      rfl
  | advance _ _ _ _ hle => exact ⟨[], .nothing rfl rfl hle rfl⟩
  | _ => exact ⟨[], .nothing rfl rfl (UInt64.le_refl _) rfl⟩

/-- What a chain of moves takes. -/
theorem Moves.takes (h : Moves I s r t) : ∃ taken, Takes I s r t taken := by
  induction h with
  | refl s => exact ⟨[], .nothing rfl rfl (UInt64.le_refl _) rfl⟩
  | cons head _ ih =>
    obtain ⟨taken, htaken⟩ := head.takes
    obtain ⟨taken', htaken'⟩ := ih
    exact ⟨taken ++ taken', htaken.trans htaken'⟩

/-- The change that a call may still make when it fails takes nothing, though it may have counted a
number. -/
theorem Fault.takes {e : Error} (h : Fault I s e t) : Takes I s .empty t [] := by
  rcases h.eq_or_counted with rfl | ⟨_, hp, rfl⟩
  · exact .nothing rfl rfl (UInt64.le_refl _) rfl
  · exact .nothing rfl rfl (SeqNum.le_succ_of_isValid hp.valid) rfl

theorem Fails.takes {e : Error} (h : Fails I s e t) : ∃ r taken, Takes I s r t taken := by
  obtain ⟨r, u, hmoves, hfault⟩ := h
  obtain ⟨taken, htaken⟩ := hmoves.takes
  exact ⟨r ++ .empty, taken ++ [], htaken.trans hfault.takes⟩

/-! ## Runs -/

/-- From `s` to `t` the messages in `handed` were handed over, and `added` was added to the inbound
journal, where each of them is kept. -/
structure Hands (I : Inputs) (s : Session MemoryStore) (ms : List Message)
    (t : Session MemoryStore) (handed : List (SeqNum × Parked)) (added : List (SeqNum × Bytes)) :
    Prop where
  genuine : ∀ e ∈ handed, Genuine I s.config e.1 e.2
  messages : ms = handed.map fun e => e.2.message
  entries : t.store.inbound.entries = s.store.inbound.entries ++ added
  sublist : (handed.map kept).Sublist added
  expected : s.sequences.expectedIncoming ≤ t.sequences.expectedIncoming
  config : t.config = s.config

theorem Hands.trans {ms ms' : List Message} {handed handed' : List (SeqNum × Parked)}
    {added added' : List (SeqNum × Bytes)} (h : Hands I s ms t handed added)
    (h' : Hands I t ms' u handed' added') :
    Hands I s (ms ++ ms') u (handed ++ handed') (added ++ added') where
  genuine := by
    intro e he
    rcases List.mem_append.mp he with he | he
    · exact h.genuine e he
    · exact h.config ▸ h'.genuine e he
  messages := by rw [h.messages, h'.messages, List.map_append]
  entries := by rw [h'.entries, h.entries, List.append_assoc]
  sublist := by
    rw [List.map_append]
    exact h.sublist.append h'.sublist
  expected := UInt64.le_trans h.expected h'.expected
  config := h'.config.trans h.config

theorem flatMap_handedOver (taken : List (SeqNum × Parked)) :
    (taken.flatMap fun e => handedOver e.2.message) =
      (taken.filter fun e => !e.2.message.msgType.isSessionLevel).map fun e => e.2.message := by
  induction taken with
  | nil => rfl
  | cons e taken ih =>
    rw [List.flatMap_cons, ih, handedOver, List.filter_cons]
    cases e.2.message.msgType.isSessionLevel <;> rfl

/-- What is taken is handed over unless it is the session's own. -/
theorem Takes.hands {taken : List (SeqNum × Parked)} (h : Takes I s r t taken) :
    Hands I s r.delivered t (taken.filter fun e => !e.2.message.msgType.isSessionLevel)
      (taken.map kept) where
  genuine e he := h.genuine e (List.mem_filter.mp he).1
  messages := by rw [h.delivered, flatMap_handedOver]
  entries := h.entries
  sublist := List.filter_sublist.map kept
  expected := h.expected
  config := h.config

/-- A call that fails hands over nothing, though it may have kept messages. -/
theorem Takes.handsNothing {taken : List (SeqNum × Parked)} (h : Takes I s r t taken) :
    Hands I s [] t [] (taken.map kept) where
  genuine := nofun
  messages := rfl
  entries := h.entries
  sublist := List.nil_sublist _
  expected := h.expected
  config := h.config

/-- Ending a session keeps its journals and its numbers. -/
theorem Hands.terminate {ms : List Message} {handed : List (SeqNum × Parked)}
    {added : List (SeqNum × Bytes)} (h : Hands I s ms t handed added) (now : Moment) :
    Hands I s ms (t.terminate now) handed added :=
  ⟨h.genuine, h.messages, h.entries, h.sublist, h.expected, h.config⟩

/-- What an operation hands over. -/
theorem Stepped.hands {o : Outcome} (h : Stepped I s o t) :
    ∃ handed added, Hands I s o.delivered t handed added := by
  cases h with
  | sent h =>
    obtain ⟨taken, htaken⟩ := h.takes
    exact ⟨_, _, htaken.handsNothing⟩
  | refused h => exact ⟨_, _, (Fault.refusal h).takes.handsNothing⟩
  | reacted h =>
    obtain ⟨taken, htaken⟩ := h.takes
    exact ⟨_, _, htaken.hands⟩
  | failed h now =>
    obtain ⟨_, taken, htaken⟩ := h.takes
    exact ⟨_, _, htaken.handsNothing.terminate now⟩
  | closed h =>
    obtain ⟨taken, htaken⟩ := h.takes
    exact ⟨_, _, htaken.handsNothing⟩

/-- What a run hands over. -/
theorem Ran.hands {os : List Outcome} (h : Ran I s os t) :
    ∃ handed added, Hands I s (os.flatMap Outcome.delivered) t handed added := by
  induction h with
  | nil s => exact ⟨[], [], nofun, rfl, (List.append_nil _).symm, .slnil, UInt64.le_refl _, rfl⟩
  | cons head _ ih =>
    obtain ⟨handed, added, hhead⟩ := head.hands
    obtain ⟨handed', added', htail⟩ := ih
    exact ⟨_, _, hhead.trans htail⟩

theorem Hands.seqNums {ms : List Message} {handed : List (SeqNum × Parked)}
    {added : List (SeqNum × Bytes)} (h : Hands I s ms t handed added) :
    ms.map Message.seqNum? = (handed.map Prod.fst).map some := by
  rw [h.messages, List.map_map, List.map_map]
  exact List.map_congr_left fun e he => (h.genuine e he).numbered

/-- The numbers of what is handed over are among those of the journal, which ascend. -/
theorem Hands.ascending {ms : List Message} {handed : List (SeqNum × Parked)}
    {added : List (SeqNum × Bytes)} (h : Hands I s ms t handed added) :
    (handed.map Prod.fst).Pairwise (· < ·) := by
  have hjournal : (t.store.inbound.entries.map Prod.fst).Pairwise (· < ·) :=
    (List.pairwise_cons.mp t.store.inbound.ascending).2
  have hadded : (added.map Prod.fst).Pairwise (· < ·) := by
    rw [h.entries, List.map_append] at hjournal
    exact (List.pairwise_append.mp hjournal).2.1
  have hsub := (h.sublist.map Prod.fst)
  rw [List.map_map] at hsub
  exact hadded.sublist hsub

end Session

/-- In an ascending journal a range of one number holds at most the message under it. -/
theorem Journal.range_self {j : Journal} {n : SeqNum} {bs : Bytes} (h : (n, bs) ∈ j.entries) :
    j.range n n = [(n, bs)] := by
  have hasc : (j.entries.map Prod.fst).Pairwise (· < ·) := (List.pairwise_cons.mp j.ascending).2
  unfold range
  -- The induction is on the entries alone; that they belong to a journal is no longer needed.
  generalize j.entries = es at h hasc
  induction es with
  | nil => cases h
  | cons e es ih =>
    rw [List.map_cons, List.pairwise_cons] at hasc
    rw [List.filter_cons]
    rcases List.mem_cons.mp h with rfl | h
    · have hrest : es.filter (fun e => decide (n ≤ e.1) && decide (e.1 ≤ n)) = [] := by
        rw [List.filter_eq_nil_iff]
        intro e he hkeep
        have hlt : n < e.1 := hasc.1 e.1 (List.mem_map_of_mem he)
        simp only [Bool.and_eq_true, decide_eq_true_eq] at hkeep
        exact absurd hlt (UInt64.not_lt.mpr hkeep.2)
      rw [hrest]
      simp
    · have hlt : e.1 < n := hasc.1 n (List.mem_map_of_mem h)
      have hdrop : ¬ (decide (n ≤ e.1) && decide (e.1 ≤ n)) = true := by
        intro hkeep
        simp only [Bool.and_eq_true, decide_eq_true_eq] at hkeep
        exact absurd hlt (UInt64.not_lt.mpr hkeep.1)
      rw [if_neg hdrop]
      exact ih h hasc.2

namespace Session

/-- A run goes on where another stopped. -/
theorem run_append {σ : Type} [MessageStore σ] (s : Session σ) (ops more : List Operation) :
    (s.run (ops ++ more)).2 = ((s.run ops).2.run more).2 := by
  induction ops generalizing s with
  | nil => rfl
  | cons op ops ih => exact ih (s.step op).2

/-- Whatever may arrive, everything that happens to a new session is a run of its moves. -/
theorem ran_of_open {σ : Type} [MessageStore σ] {config : SessionConfig} {store : σ} {now : Nat}
    {s₀ : Session σ} (h : open? config store now = .ok s₀) (ops : List Operation) :
    Ran .any s₀ (s₀.run ops).1 (s₀.run ops).2 := by
  refine ran (sound_of_open h) fun op _ => ?_
  cases op <;> trivial

theorem config_run_of_open {σ : Type} [MessageStore σ] {config : SessionConfig} {store : σ}
    {now : Nat} {s₀ : Session σ} (h : open? config store now = .ok s₀) (ops : List Operation) :
    (s₀.run ops).2.config = config :=
  (ran_of_open h ops).config_eq.trans (congrArg Session.config (open?_eq_ok_iff.mp h).2)

theorem sound_run_of_open {σ : Type} [MessageStore σ] {config : SessionConfig} {store : σ}
    {now : Nat} {s₀ : Session σ} (h : open? config store now = .ok s₀) (ops : List Operation) :
    Sound .any (s₀.run ops).2 :=
  (sound_of_open h).ran (ran_of_open h ops)

end Session

/-! ## A pair of sides -/

namespace Sample

/-- The settings of one side of a pair that is named by letters. -/
def config (sender target : CompId) (role : Role) : SessionConfig :=
  { SessionConfig.default sender target "FIX.4.2" with role }

/-- The settings of the side that begins. -/
def initiator : SessionConfig :=
  config ⟨"A", by decide +kernel⟩ ⟨"B", by decide +kernel⟩ .initiator

/-- The settings of the side that answers. -/
def acceptor : SessionConfig :=
  config ⟨"B", by decide +kernel⟩ ⟨"A", by decide +kernel⟩ .acceptor

def moment : Moment :=
  ⟨0, ⟨0⟩, 0⟩

/-- A frame of one side. -/
def frame (side : SessionConfig) (type : MsgType) (number : SeqNum) (body : List Field) : Bytes :=
  let s : Session MemoryStore := .fresh side .empty 0
  (Wire.encode (s.header type number moment.utc ++ body)).toOption.getD []

/-- The first frame of one side. -/
def logon (side : SessionConfig) : Bytes :=
  frame side .logon 1 [.ofNat .encryptMethod 0, .ofNat .heartBtInt 30]

theorem validate_initiator : initiator.validate = .ok () := by
  have h : initiator.validate.isOk = true := by decide +kernel
  cases hv : initiator.validate with
  | ok _ => rfl
  | error e => rw [hv] at h; cases h

theorem validate_acceptor : acceptor.validate = .ok () := by
  have h : acceptor.validate.isOk = true := by decide +kernel
  cases hv : acceptor.validate with
  | ok _ => rfl
  | error e => rw [hv] at h; cases h

theorem open_initiator :
    Session.open? initiator MemoryStore.empty 0 = .ok (.fresh initiator .empty 0) :=
  Session.open?_eq_ok_iff.mpr ⟨validate_initiator, rfl⟩

theorem open_acceptor :
    Session.open? acceptor MemoryStore.empty 0 = .ok (.fresh acceptor .empty 0) :=
  Session.open?_eq_ok_iff.mpr ⟨validate_acceptor, rfl⟩

end Sample

namespace Session

/-- Over every run of a new session, with any frames arriving: the numbers of what is handed over
strictly ascend, each message is what the inbound journal holds under its number, and the expected
number never falls. -/
theorem run_delivers_in_order {config : SessionConfig} {store : MemoryStore} {now : Nat}
    {s₀ : Session MemoryStore} (h : open? config store now = .ok s₀) (ops : List Operation) :
    (∃ ns : List SeqNum, ns.Pairwise (· < ·) ∧
      ((s₀.run ops).1.flatMap Outcome.delivered).map Message.seqNum? = ns.map some) ∧
    (∀ m ∈ (s₀.run ops).1.flatMap Outcome.delivered, ∃ n frame, m.seqNum? = some n ∧
      (s₀.run ops).2.store.range .inbound n n = [(n, frame)] ∧
      Message.decode config.beginString frame = .ok m) ∧
    ∀ more, (s₀.run ops).2.sequences.expectedIncoming ≤
      (s₀.run (ops ++ more)).2.sequences.expectedIncoming := by
  have hconfig : s₀.config = config := congrArg Session.config (open?_eq_ok_iff.mp h).2
  obtain ⟨handed, added, hhands⟩ := (ran_of_open h ops).hands
  refine ⟨⟨handed.map Prod.fst, hhands.ascending, hhands.seqNums⟩, ?_, ?_⟩
  · intro m hm
    rw [hhands.messages] at hm
    obtain ⟨e, he, rfl⟩ := List.mem_map.mp hm
    have hgenuine := hhands.genuine e he
    refine ⟨e.1, e.2.frame, hgenuine.numbered, ?_, hconfig ▸ hgenuine.decoded⟩
    refine Journal.range_self ?_
    show kept e ∈ (s₀.run ops).2.store.inbound.entries
    rw [hhands.entries]
    exact List.mem_append_right _ (hhands.sublist.mem (List.mem_map_of_mem he))
  · intro more
    rw [run_append]
    have hmore : Ran .any (s₀.run ops).2 ((s₀.run ops).2.run more).1 ((s₀.run ops).2.run more).2 :=
      ran (sound_run_of_open h ops) fun op _ => by cases op <;> trivial
    obtain ⟨_, _, hhands⟩ := hmore.hands
    exact hhands.expected

/-- A message that arrives behind a gap and is released later is handed over once, after the one
before it. -/
theorem run_delivers_in_order_acceptor :
    let s₀ : Session MemoryStore := .fresh Sample.acceptor .empty 0
    let ops : List Operation := [.receive (Sample.logon Sample.initiator) Sample.moment,
      .receive (Sample.frame Sample.initiator .newOrderSingle 3 []) Sample.moment,
      .receive (Sample.frame Sample.initiator .newOrderSingle 2 []) Sample.moment]
    open? Sample.acceptor MemoryStore.empty 0 = .ok s₀ ∧
      ((s₀.run ops).1.flatMap Outcome.delivered).map Message.seqNum? = [some 2, some 3] ∧
      ∃ ns : List SeqNum, ns.Pairwise (· < ·) ∧
        ((s₀.run ops).1.flatMap Outcome.delivered).map Message.seqNum? = ns.map some :=
  ⟨Sample.open_acceptor, by decide +kernel, (run_delivers_in_order Sample.open_acceptor _).1⟩

/-! ## Failing calls -/

/-- The application messages among journal entries. -/
def applications (version : String) (entries : List (SeqNum × Bytes)) : List Message :=
  entries.filterMap fun e => Resend.resendable? version e.2

theorem isSessionLevel_of_isApp {type : MsgType} (h : type.isApp = true) :
    type.isSessionLevel = false := by
  cases type <;> first | rfl | cases h

theorem handedOver_of_isApp {m : Message} (h : m.msgType.isApp = true) : handedOver m = [m] :=
  handedOver_of_not (isSessionLevel_of_isApp h)

theorem Genuine.resendable? {c : SessionConfig} {n : SeqNum} {p : Parked} (h : Genuine I c n p) :
    Resend.resendable? c.beginString p.frame =
      if p.message.msgType.isApp then some p.message else none := by
  rw [Resend.resendable?, h.decoded]

/-- The application messages among those taken are handed over, in order. -/
theorem Takes.applications {taken : List (SeqNum × Parked)} (h : Takes I s r t taken) :
    r.delivered.filter (·.msgType.isApp) =
      Session.applications s.config.beginString (taken.map kept) := by
  rw [h.delivered, Session.applications, List.filterMap_map]
  have hgenuine := h.genuine
  clear h
  induction taken with
  | nil => rfl
  | cons e taken ih =>
    obtain ⟨he, htaken⟩ := List.forall_mem_cons.mp hgenuine
    rw [List.flatMap_cons, List.filter_append, ih htaken, List.filterMap_cons, Function.comp, kept,
      he.resendable?, handedOver]
    -- A message of the application is always handed over. A reject is handed over as well, and does
    -- not count as one.
    by_cases happ : e.2.message.msgType.isApp = true
    · rw [isSessionLevel_of_isApp happ, if_pos happ]
      simp [happ]
    · rw [if_neg happ]
      split
      · rfl
      · simp [happ]

theorem Takes.terminate {taken : List (SeqNum × Parked)} (h : Takes I s r t taken) (now : Moment) :
    Takes I s r (t.terminate now) taken :=
  ⟨h.genuine, h.entries, h.delivered, h.expected, h.config⟩

/-- In every state that a new session can reach, and whatever frame arrives: a call that succeeds
hands over exactly the application messages that it keeps, in order. Everything that a call keeps is
handed over exactly when the call succeeds or keeps no application message: a call that fails hands
over nothing, whatever it kept before. -/
theorem receive_delivers_iff {config : SessionConfig} {store : MemoryStore} {start : Nat}
    {s₀ s' : Session MemoryStore} {answer : Except Failure Reaction}
    (h : open? config store start = .ok s₀) (ops : List Operation) {frame : Bytes} {now : Moment}
    (hreceive : (s₀.run ops).2.receive frame now = (answer, s')) :
    ∃ added, s'.store.inbound.entries = (s₀.run ops).2.store.inbound.entries ++ added ∧
      (∀ reaction, answer = .ok reaction →
        reaction.delivered.filter (·.msgType.isApp) = applications config.beginString added) ∧
      ((∀ m ∈ applications config.beginString added, m ∈ (Outcome.reacted answer).delivered) ↔
        answer.isOk = true ∨ applications config.beginString added = []) := by
  have hconfig : (s₀.run ops).2.config = config := config_run_of_open h ops
  have hstep : Stepped .any (s₀.run ops).2 (.reacted answer) s' := by
    have hdoes : Does .any (process frame now) (s₀.run ops).2 :=
      does_process (sound_run_of_open h ops) trivial now
    have := stepped_of_does hdoes now
    rwa [← receive, hreceive] at this
  cases hstep with
  | @reacted r _ hmoves =>
    obtain ⟨taken, htaken⟩ := hmoves.takes
    have happ := htaken.applications
    rw [hconfig] at happ
    refine ⟨taken.map kept, htaken.entries, ?_, ?_⟩
    · rintro _ ⟨⟩
      exact happ
    · refine iff_of_true (fun m hm => ?_) (.inl rfl)
      rw [← happ] at hm
      exact (List.mem_filter.mp hm).1
  | failed hfails now =>
    -- The moves before the failure stay in the journal, and the reaction to them is dropped.
    obtain ⟨_, taken, htaken⟩ := hfails.takes
    refine ⟨taken.map kept, (htaken.terminate now).entries, nofun, ?_⟩
    constructor
    · intro hall
      exact .inr (List.eq_nil_iff_forall_not_mem.mpr fun m hm => nomatch hall m hm)
    · rintro (hok | hnone)
      · cases hok
      · rw [hnone]
        exact nofun

/-- An order arrives before a message that is parked and cannot be dealt with: the order is kept and
counted, the call fails on the parked message, and the order is not handed over. -/
theorem receive_delivers_iff_acceptor :
    let s : Session MemoryStore := ((fresh Sample.acceptor .empty 0).run
      [.receive (Sample.logon Sample.initiator) Sample.moment,
        .receive (Sample.frame Sample.initiator .resendRequest 3 []) Sample.moment]).2
    let order := Sample.frame Sample.initiator .newOrderSingle 2 []
    let answer := (s.receive order Sample.moment).1
    let s' := (s.receive order Sample.moment).2
    open? Sample.acceptor MemoryStore.empty 0 = .ok (fresh Sample.acceptor .empty 0) ∧
      s'.store.inbound.entries = s.store.inbound.entries ++
        [(2, order), (3, Sample.frame Sample.initiator .resendRequest 3 [])] ∧
      s'.sequences.expectedIncoming = 4 ∧ answer.isOk = false ∧
      ∃ added, s'.store.inbound.entries = s.store.inbound.entries ++ added ∧
        ¬ ∀ m ∈ applications Sample.acceptor.beginString added,
          m ∈ (Outcome.reacted answer).delivered := by
  intro s order answer s'
  have hkept : s'.store.inbound.entries = s.store.inbound.entries ++
      [(2, order), (3, Sample.frame Sample.initiator .resendRequest 3 [])] := by decide +kernel
  have hfailed : answer.isOk = false := by decide +kernel
  obtain ⟨added, hadded, _, hiff⟩ := receive_delivers_iff Sample.open_acceptor
    [.receive (Sample.logon Sample.initiator) Sample.moment,
      .receive (Sample.frame Sample.initiator .resendRequest 3 []) Sample.moment]
    (show s.receive order Sample.moment = (answer, s') from rfl)
  refine ⟨Sample.open_acceptor, hkept, by decide +kernel, hfailed, added, hadded, fun hall => ?_⟩
  have hnone : applications Sample.acceptor.beginString added = [] := by
    rcases hiff.mp hall with hok | hnone
    · rw [hfailed] at hok
      cases hok
    · exact hnone
  rw [hkept] at hadded
  rw [← List.append_cancel_left hadded] at hnone
  exact absurd hnone (by decide +kernel)

end Session

end FixProtocol
