import FixProtocol.Proofs.Session.Exchange
import FixProtocol.Proofs.Session.Gaps
import Mathlib.Data.List.Nodup

/-!
# The order of arrival does not matter

Messages of the application may arrive in any order and any number of times. Those from behind a gap
are parked, a gap is asked for whenever one is left, and in the end all have been taken in the order
of their numbers.

- `Batch`: messages of the application with consecutive numbers.
- `Onward`: more of a batch was handed over.
- `Arriving`: where a session stands while a batch arrives: what it has taken, and what it holds.
- `Catching.ends_onNumbered`: what a message adds, wherever in the batch it is.
- `run_converges`: every order of arrival leads to the same end.
-/

namespace FixProtocol

namespace Journal

/-- Keeps messages one after the other. -/
def appendAll (j : Journal) (es : List (SeqNum × Bytes)) : Except StoreError Journal :=
  es.foldlM (fun j e => j.append e.1 e.2) j

theorem appendAll_concat {j j' j'' : Journal} {es : List (SeqNum × Bytes)} {n : SeqNum} {bs : Bytes}
    (h : j.appendAll es = .ok j') (h' : j'.append n bs = .ok j'') :
    j.appendAll (es ++ [(n, bs)]) = .ok j'' := by
  unfold appendAll at h ⊢
  rw [List.foldlM_append, h]
  show ([(n, bs)].foldlM (fun j e => j.append e.1 e.2) j') = _
  rw [List.foldlM_cons, h']
  rfl

theorem entries_appendAll {j j' : Journal} {es : List (SeqNum × Bytes)}
    (h : j.appendAll es = .ok j') : j'.entries = j.entries ++ es := by
  induction es generalizing j with
  | nil =>
    cases h
    exact (List.append_nil _).symm
  | cons e es ih =>
    unfold appendAll at h
    rw [List.foldlM_cons] at h
    obtain ⟨k, hk, hrest⟩ := exists_of_bind_eq_ok h
    rw [ih hrest, entries_append hk, List.append_assoc, List.singleton_append]

end Journal

/-- An ascending list of numbers is no longer than the range that it lies in. -/
theorem length_le_of_ascending {ns : List SeqNum} (h : ns.Pairwise (· < ·)) (low high : Nat)
    (hlow : ∀ n ∈ ns, low ≤ n.toNat) (hhigh : ∀ n ∈ ns, n.toNat < high) :
    ns.length ≤ high - low := by
  induction ns generalizing low with
  | nil => exact Nat.zero_le _
  | cons n ns ih =>
    rw [List.pairwise_cons] at h
    obtain ⟨hn, hns⟩ := List.forall_mem_cons.mp hlow
    obtain ⟨hn', hns'⟩ := List.forall_mem_cons.mp hhigh
    have hrest := ih h.2 (n.toNat + 1) (fun m hm => UInt64.lt_iff_toNat_lt.mp (h.1 m hm)) hns'
    rw [List.length_cons]
    omega

/-- What is found under a number is what is parked under it. -/
theorem GapRecovery.find?_eq_some_iff {r : GapRecovery} {n : SeqNum} {p : Parked} :
    r.find? n = some p ↔ (n, p) ∈ r.parked := by
  have hasc := r.ascending
  unfold find?
  -- The induction is on the entries alone.
  generalize r.parked = es at hasc
  induction es with
  | nil => exact iff_of_false nofun nofun
  | cons e es ih =>
    obtain ⟨k, q⟩ := e
    rw [List.map_cons, List.pairwise_cons] at hasc
    by_cases heq : n = k
    · subst heq
      rw [List.lookup_cons_self]
      constructor
      · rintro ⟨⟩
        exact List.mem_cons_self
      · intro hmem
        rcases List.mem_cons.mp hmem with hhead | hmem
        · cases hhead
          rfl
        · exact absurd (hasc.1 n (List.mem_map_of_mem hmem)) (UInt64.lt_irrefl _)
    · have hskip : List.lookup n ((k, q) :: es) = List.lookup n es := by
        rw [List.lookup_cons, beq_false_of_ne heq]
      rw [hskip]
      refine (ih hasc.2).trans ⟨List.mem_cons_of_mem _, fun hmem => ?_⟩
      rcases List.mem_cons.mp hmem with hhead | hmem
      · cases hhead
        exact absurd rfl heq
      · exact hmem

namespace Session

open Call

variable {c : SessionConfig} {s t : Session MemoryStore} {now : Moment}

/-- A frame is the message of one number. -/
theorem Genuine.number_eq {I : Inputs} {n m : SeqNum} {p q : Parked} (hp : Genuine I c n p)
    (hq : Genuine I c m q) (h : p.frame = q.frame) : n = m := by
  have hmessage : p.message = q.message :=
    Except.ok.inj (hp.decoded.symm.trans (h ▸ hq.decoded))
  exact Option.some.inj (hp.numbered.symm.trans (hmessage ▸ hq.numbered))

/-! ## Batches -/

/-- Messages of the application that the counterparty has given consecutive numbers. -/
structure Batch (c : SessionConfig) (base : Nat) (ps : List (SeqNum × Parked)) : Prop where
  genuine : ∀ e ∈ ps, Genuine .any c e.1 e.2
  isApp : ∀ e ∈ ps, e.2.message.msgType.isApp = true
  numbers : ps.map (fun e => e.1.toNat) = List.range' base ps.length

namespace Batch

variable {base : Nat} {e e' : SeqNum × Parked} {ps : List (SeqNum × Parked)}

theorem bounds (h : Batch c base ps) (he : e ∈ ps) :
    base ≤ e.1.toNat ∧ e.1.toNat < base + ps.length := by
  have hmem : e.1.toNat ∈ ps.map fun e => e.1.toNat := List.mem_map_of_mem he
  rw [h.numbers, List.mem_range'_1] at hmem
  exact hmem

/-- There is one message for each number. -/
theorem eq_of_fst (h : Batch c base ps) (he : e ∈ ps) (he' : e' ∈ ps) (heq : e.1 = e'.1) :
    e = e' := by
  have hnodup : (ps.map fun e => e.1.toNat).Nodup := by
    rw [h.numbers]
    exact List.nodup_range'
  exact List.inj_on_of_nodup_map hnodup he he' (congrArg UInt64.toNat heq)

theorem head (h : Batch c base (e :: ps)) : e.1.toNat = base := by
  have hnumbers := h.numbers
  rw [List.map_cons, List.length_cons, List.range'_succ] at hnumbers
  exact (List.cons.inj hnumbers).1

theorem tail (h : Batch c base (e :: ps)) : Batch c (base + 1) ps where
  genuine e' he' := h.genuine e' (List.mem_cons_of_mem _ he')
  isApp e' he' := h.isApp e' (List.mem_cons_of_mem _ he')
  numbers := by
    have hnumbers := h.numbers
    rw [List.map_cons, List.length_cons, List.range'_succ] at hnumbers
    exact (List.cons.inj hnumbers).2

/-- The message with the first number is the first one. -/
theorem exists_cons (h : Batch c base ps) (he : e ∈ ps) (hbase : e.1.toNat = base) :
    ∃ rest, ps = e :: rest := by
  cases ps with
  | nil => cases he
  | cons first rest =>
    have hfirst : e = first := h.eq_of_fst he List.mem_cons_self
      (UInt64.toNat_inj.mp (hbase.trans h.head.symm))
    exact ⟨rest, by rw [hfirst]⟩

end Batch

/-! ## While a batch arrives -/

/-- More of the batch was handed over, and then `P` holds of all that was taken and of the rest. -/
def Onward (taken rest : List (SeqNum × Parked)) (r : Reaction)
    (P : List (SeqNum × Parked) → List (SeqNum × Parked) → Prop) : Prop :=
  ∃ more rest', rest = more ++ rest' ∧ r.delivered = more.map (fun e => e.2.message) ∧
    P (taken ++ more) rest'

namespace Onward

variable {x : SeqNum × Parked} {taken rest : List (SeqNum × Parked)} {r r' : Reaction}
  {P Q : List (SeqNum × Parked) → List (SeqNum × Parked) → Prop}

theorem nothing (hr : r.delivered = []) (h : P taken rest) : Onward taken rest r P := by
  refine ⟨[], rest, rfl, hr, ?_⟩
  rw [List.append_nil]
  exact h

theorem cons (h : Onward (taken ++ [x]) rest r P) :
    Onward taken (x :: rest) (.ofMessage x.2.message ++ r) P := by
  obtain ⟨more, rest', rfl, hr, hP⟩ := h
  refine ⟨x :: more, rest', rfl, ?_, ?_⟩
  · rw [Reaction.delivered_append, hr]
    rfl
  · rw [List.append_assoc] at hP
    exact hP

theorem mono (h : Onward taken rest r P)
    (hP : ∀ taken' rest', taken <+: taken' → P taken' rest' → Q taken' rest') :
    Onward taken rest r Q := by
  obtain ⟨more, rest', hrest, hr, h⟩ := h
  exact ⟨more, rest', hrest, hr, hP _ _ (List.prefix_append taken more) h⟩

/-- What hands over nothing may follow. -/
theorem silent (h : Onward taken rest r P) (hr : r'.delivered = []) :
    Onward taken rest (r ++ r') P := by
  obtain ⟨more, rest', hrest, hdelivered, h⟩ := h
  refine ⟨more, rest', hrest, ?_, h⟩
  rw [Reaction.delivered_append, hdelivered, hr, List.append_nil]

end Onward

/-- Where a session stands while the messages in `taken ++ rest` arrive. It has taken and kept the
first ones; of the rest, those with a number in `seen` are parked, and nothing else is. A request
that is open ends before one of them, unless it was passed. What the session has written has used up
no number from `bound` on. -/
structure Arriving (c : SessionConfig) (journal : Journal) (base bound : Nat)
    (taken rest : List (SeqNum × Parked)) (seen : List SeqNum) (s : Session MemoryStore) :
    Prop where
  config_eq : s.config = c
  state_eq : s.state = .loggedOn
  isOpen : s.terminated = false
  room : s.recovery.maxBuffered = c.maxBufferedMessages
  expected : s.sequences.expectedIncoming.toNat = base + taken.length
  batch : Batch c s.sequences.expectedIncoming.toNat rest
  past : ∀ e ∈ taken, e.1 < s.sequences.expectedIncoming
  kept : journal.appendAll (taken.map kept) = .ok s.store.inbound
  inbound : s.store.inbound.last < s.sequences.expectedIncoming
  outbound : s.store.outbound.last < s.sequences.nextOutgoing
  spoken : s.sequences.nextOutgoing.toNat ≤ bound
  parked : ∀ e ∈ s.recovery.parked, e ∈ rest
  held : ∀ e ∈ rest, e.1 ∈ seen → s.recovery.find? e.1 = some e.2
  asked : ∀ range ∈ s.recovery.pending, range.last < s.sequences.expectedIncoming ∨
    ∃ e ∈ rest, s.recovery.find? e.1 = some e.2 ∧ range.last = e.1 - 1

namespace Arriving

variable {journal : Journal} {base bound : Nat} {x : SeqNum × Parked}
  {taken rest : List (SeqNum × Parked)} {seen : List SeqNum}

/-- The first of the rest has the expected number. -/
theorem head_eq (h : Arriving c journal base bound taken (x :: rest) seen s) :
    x.1 = s.sequences.expectedIncoming :=
  UInt64.toNat_inj.mp h.batch.head

theorem clock (h : Arriving c journal base bound taken rest seen s)
    (heartbeat : HeartbeatMonitor) :
    Arriving c journal base bound taken rest seen { s with heartbeat } :=
  { h with }

/-- The message with the expected number was counted and kept, and is not parked any more. -/
theorem counted (h : Arriving c journal base bound taken (x :: rest) seen s)
    (hbehind : ∀ e ∈ s.recovery.parked, s.sequences.expectedIncoming < e.1) {j : Journal}
    (hj : s.store.inbound.append x.1 x.2.frame = .ok j) :
    Arriving c journal base bound (taken ++ [x]) rest seen
      { s.counted x.1 with store := { s.store with inbound := j } } := by
  have hx := h.head_eq
  have hvalid := (h.batch.genuine x List.mem_cons_self).valid
  have hnext : (x.1 + 1).toNat = s.sequences.expectedIncoming.toNat + 1 := by
    rw [SeqNum.toNat_succ (SeqNum.ne_top_of_isValid hvalid), hx]
  have hlt : x.1 < x.1 + 1 := SeqNum.lt_succ_of_isValid hvalid
  have hgrows : s.sequences.expectedIncoming < x.1 + 1 := hx ▸ hlt
  exact { h with
    expected := by
      show (x.1 + 1).toNat = base + (taken ++ [x]).length
      rw [hnext, h.expected, List.length_append, List.length_singleton, Nat.add_assoc]
    batch := by
      show Batch c (x.1 + 1).toNat rest
      rw [hnext]
      exact h.batch.tail
    past := by
      intro e he
      rcases List.mem_append.mp he with he | he
      · exact UInt64.lt_trans (h.past e he) hgrows
      · rw [List.mem_singleton.mp he]
        exact hlt
    kept := by
      rw [List.map_append]
      exact Journal.appendAll_concat h.kept hj
    inbound := by
      show j.last < x.1 + 1
      rw [(Journal.last_append hj).2]
      exact hlt
    parked := by
      intro e he
      rcases List.mem_cons.mp (h.parked e he) with rfl | hrest
      · exact absurd (hx ▸ hbehind e he) (UInt64.lt_irrefl _)
      · exact hrest
    held := fun e he => h.held e (List.mem_cons_of_mem _ he)
    asked := by
      intro range hrange
      rcases h.asked range hrange with hpassed | ⟨e, he, hfound, hlast⟩
      · exact .inl (UInt64.lt_trans hpassed hgrows)
      · rcases List.mem_cons.mp he with rfl | he
        · refine .inl (UInt64.lt_trans ?_ hlt)
          rw [hlast]
          exact SeqNum.sub_one_lt_of_isValid hvalid
        · exact .inr ⟨e, he, hfound, hlast⟩ }

/-- The message with the expected number is kept and handed over. -/
theorem ends_accept (h : Arriving c journal base bound taken (x :: rest) seen s)
    (hbehind : ∀ e ∈ s.recovery.parked, s.sequences.expectedIncoming < e.1) (replaying : Bool)
    (now : Moment) :
    Ends (accept x.1 x.2 replaying now) (s.counted x.1)
      (fun r t => r = .ofMessage x.2.message ∧
        Arriving c journal base bound (taken ++ [x]) rest seen t) Never := by
  have hbelow : ((s.counted x.1).store.journal .inbound).last < x.1 := h.head_eq ▸ h.inbound
  obtain ⟨j, hj, hstore⟩ := MemoryStore.append_of_lt hbelow x.2.frame
  have hlevel := isSessionLevel_of_isApp (h.batch.isApp x List.mem_cons_self)
  exact ends_accept_ok hstore (ends_dispatch_application hlevel ⟨rfl, h.counted hbehind hj⟩)

/-- What is not parked any more after the expected number was looked for has not arrived, or is the
message with that number. -/
theorem takeReady (h : Arriving c journal base bound taken rest seen s)
    (hnone : ∀ e ∈ rest, e.1 = s.sequences.expectedIncoming → e.1 ∉ seen) :
    Arriving c journal base bound taken rest seen s.released := by
  have hfind (n : SeqNum) := s.recovery.find?_takeReady s.sequences.expectedIncoming n
  have habove (e : SeqNum × Parked) (he : e ∈ rest) (hne : e.1 ≠ s.sequences.expectedIncoming) :
      ¬ e.1 ≤ s.sequences.expectedIncoming := by
    have hle : s.sequences.expectedIncoming ≤ e.1 :=
      UInt64.le_iff_toNat_le.mpr (h.batch.bounds he).1
    exact fun hle' => hne (UInt64.le_antisymm hle' hle)
  exact { h with
    parked := fun e he => h.parked e ((List.dropWhile_sublist _).mem he)
    held := by
      intro e he hseen
      have hne : e.1 ≠ s.sequences.expectedIncoming := fun heq => hnone e he heq hseen
      show (s.recovery.takeReady s.sequences.expectedIncoming).2.find? e.1 = some e.2
      rw [hfind, if_neg (habove e he hne)]
      exact h.held e he hseen
    asked := by
      intro range hrange
      rcases h.asked range hrange with hpassed | ⟨e, he, hfound, hlast⟩
      · exact .inl hpassed
      · by_cases heq : e.1 = s.sequences.expectedIncoming
        · refine .inl ?_
          show range.last < s.sequences.expectedIncoming
          rw [hlast, ← heq]
          exact SeqNum.sub_one_lt_of_isValid (h.batch.genuine e he).valid
        · refine .inr ⟨e, he, ?_, hlast⟩
          show (s.recovery.takeReady s.sequences.expectedIncoming).2.find? e.1 = some e.2
          rw [hfind, if_neg (habove e he heq)]
          exact hfound }

theorem seen_congr {seen' : List SeqNum} (h : Arriving c journal base bound taken rest seen s)
    (hseen : ∀ e ∈ rest, e.1 ∈ seen' → e.1 ∈ seen) :
    Arriving c journal base bound taken rest seen' s :=
  { h with held := fun e he hmem => h.held e he (hseen e he hmem) }

/-- That a message has arrived again that was taken changes nothing. -/
theorem seen_past (h : Arriving c journal base bound taken rest seen s) (hx : x ∈ taken) :
    Arriving c journal base bound taken rest (x.1 :: seen) s := by
  refine h.seen_congr fun e he hmem => ?_
  rcases List.mem_cons.mp hmem with heq | hmem
  · have hlt := UInt64.lt_iff_toNat_lt.mp (heq ▸ h.past x hx)
    have hle := (h.batch.bounds he).1
    omega
  · exact hmem

/-- A message that is parked has been seen. -/
theorem seen_cons (h : Arriving c journal base bound taken rest seen s) (hx : x ∈ rest)
    (hfound : s.recovery.find? x.1 = some x.2) :
    Arriving c journal base bound taken rest (x.1 :: seen) s := by
  refine { h with held := fun e he hmem => ?_ }
  rcases List.mem_cons.mp hmem with heq | hmem
  · rw [h.batch.eq_of_fst he hx heq]
    exact hfound
  · exact h.held e he hmem

/-- More may be parked, and the request that is open may be closed. -/
theorem recover {recovery : GapRecovery} (h : Arriving c journal base bound taken rest seen s)
    (hroom : recovery.maxBuffered = s.recovery.maxBuffered)
    (hparked : ∀ e ∈ recovery.parked, e ∈ rest)
    (hpending : ∀ range ∈ recovery.pending, range ∈ s.recovery.pending)
    (hfind : ∀ e ∈ rest, s.recovery.find? e.1 = some e.2 → recovery.find? e.1 = some e.2) :
    Arriving c journal base bound taken rest seen { s with recovery } :=
  { h with
    room := hroom.trans h.room
    parked := hparked
    held := fun e he hseen => hfind e he (h.held e he hseen)
    asked := by
      intro range hrange
      rcases h.asked range (hpending range hrange) with hpassed | ⟨e, he, hfound, hlast⟩
      · exact .inl hpassed
      · exact .inr ⟨e, he, hfind e he hfound, hlast⟩ }

theorem bound_mono {bound' : Nat} (h : Arriving c journal base bound taken rest seen s)
    (hle : bound ≤ bound') : Arriving c journal base bound' taken rest seen s :=
  { h with spoken := Nat.le_trans h.spoken hle }

/-- What is found under a number is the message of the batch with that number. -/
theorem mem_of_find? {n : SeqNum} {p : Parked}
    (h : Arriving c journal base bound taken rest seen s) (hfound : s.recovery.find? n = some p) :
    (n, p) ∈ rest :=
  h.parked _ (GapRecovery.find?_eq_some_iff.mp hfound)

/-- Once the expected message was looked for, it is no longer parked, so it does not count as one
that is held. -/
theorem takeReady_filter (h : Arriving c journal base bound taken rest seen s) :
    Arriving c journal base bound taken rest (seen.filter (· ≠ s.sequences.expectedIncoming))
      s.released := by
  refine (h.seen_congr fun e _ he => (List.mem_filter.mp he).1).takeReady fun e _ heq he => ?_
  exact of_decide_eq_true (List.mem_filter.mp he).2 heq

/-- When it was taken, that does not matter any more. -/
theorem seen_of_filter {n : SeqNum} {p : Parked}
    (h : Arriving c journal base bound (taken ++ [(n, p)]) rest (seen.filter (· ≠ n)) s) :
    Arriving c journal base bound (taken ++ [(n, p)]) rest seen s := by
  refine h.seen_congr fun e he hmem => List.mem_filter.mpr ⟨hmem, decide_eq_true ?_⟩
  rintro rfl
  have hlt := UInt64.lt_iff_toNat_lt.mp (h.past _ (List.mem_append_right _ List.mem_cons_self))
  have hle := (h.batch.bounds he).1
  exact absurd hle (Nat.not_le.mpr hlt)

/-- The messages that are parked and whose turn has come are taken. The induction is on how many may
be taken. -/
theorem ends_replay (h : Arriving c journal base bound taken rest seen s) (now : Moment)
    (count : Nat) :
    Ends (replay now count) s
      (fun r t => Onward taken rest r fun taken rest =>
        Arriving c journal base bound taken rest seen t) Never := by
  induction count generalizing s taken rest with
  | zero => exact ends_pure.mpr (.nothing rfl h)
  | succ count ih =>
    refine ends_replay_succ h.isOpen (fun hnone => ?_) fun p hready => ?_
    · refine .nothing rfl (h.takeReady fun e he heq hseen => ?_)
      have hfound := h.held e he hseen
      rw [heq] at hfound
      exact Option.some_ne_none _ (hfound.symm.trans hnone)
    · have hmem : (s.sequences.expectedIncoming, p) ∈ rest := h.mem_of_find? hready
      have hvalid := (h.batch.genuine _ hmem).valid
      obtain ⟨rest, rfl⟩ := h.batch.exists_cons hmem rfl
      have hleft : ∀ e ∈ s.released.recovery.parked, s.sequences.expectedIncoming < e.1 :=
        fun e => GapRecovery.lt_of_mem_takeReady
      refine ends_observe_next hvalid rfl ((h.takeReady_filter.ends_accept hleft true now).imp ?_)
      rintro _ t ⟨rfl, ht⟩
      exact (ih ht.seen_of_filter).imp fun _ _ hu => hu.cons

/-- A gap before a message that is parked is asked for. -/
theorem ends_requestResend (hc : Speakable c)
    (h : Arriving c journal base bound taken rest seen s) (hbound : bound < SeqNum.top.toNat)
    (hx : x ∈ rest) (hfound : s.recovery.find? x.1 = some x.2) (first : SeqNum) (now : Moment) :
    Ends (requestResend first (x.1 - 1) now) s
      (fun r t => r.delivered = [] ∧ t.recovery.isRequesting = true ∧
        Arriving c journal base (bound + 1) taken rest seen t) Never := by
  have hc : Speakable s.config := h.config_eq ▸ hc
  have hnext : s.sequences.nextOutgoing ≠ .top := by
    intro htop
    have hspoken := h.spoken
    rw [htop] at hspoken
    omega
  refine Session.ends_requestResend.mpr ((ends_emit_ok hc (Field.writable_msgType rfl)
    (isBody_request _ _) h.outbound now).imp ?_)
  rintro frame _ ⟨_, j, hj, rfl⟩
  refine ⟨rfl, rfl, { h with
    outbound := ?_
    spoken := ?_
    asked := ?_ }⟩
  · show j.last < s.sequences.nextOutgoing + 1
    rw [(Journal.last_append hj).2]
    exact UInt64.lt_iff_toNat_lt.mpr (by rw [SeqNum.toNat_succ hnext]; omega)
  · show (s.sequences.nextOutgoing + 1).toNat ≤ bound + 1
    rw [SeqNum.toNat_succ hnext]
    exact Nat.succ_le_succ h.spoken
  · rintro range ⟨⟩
    exact .inr ⟨x, hx, hfound, rfl⟩

/-- A request that was fulfilled is closed, and if a message is still parked, what is missing before
it is asked for. -/
theorem ends_closeGap (hc : Speakable c) (h : Arriving c journal base bound taken rest seen s)
    (hbound : bound < SeqNum.top.toNat) (now : Moment) :
    Ends (closeGap now) s
      (fun r t => r.delivered = [] ∧
        Arriving c journal base (bound + t.recovery.isRequesting.toNat) taken rest seen t)
      Never := by
  have hparked := parked_onAdvanced s.recovery s.sequences.expectedIncoming
  have hclosed : Arriving c journal base bound taken rest seen s.advanced :=
    h.recover (GapRecovery.maxBuffered_onAdvanced ..) (fun e he => h.parked e (hparked ▸ he))
      (fun _ hrange => (GapRecovery.mem_pending_onAdvanced hrange).1)
      (fun e _ hfound => (congrArg (List.lookup e.1) hparked).trans hfound)
  refine Session.ends_closeGap (fun _ => ?_) fun first hfirst _ _ => ?_
  · exact ⟨rfl, hclosed.bound_mono (Nat.le_add_right _ _)⟩
  · obtain ⟨p, hmem⟩ := GapRecovery.exists_mem_of_first? hfirst
    have hfound := GapRecovery.find?_eq_some_iff.mpr hmem
    refine (hclosed.ends_requestResend (x := (first, p)) hc hbound (hclosed.parked _ hmem) hfound
      _ now).imp ?_
    rintro r t ⟨hdelivered, hrequesting, ht⟩
    rw [hrequesting]
    exact ⟨hdelivered, ht⟩

/-- All parked messages whose turn has come are taken, and what is then missing is asked for. -/
theorem ends_drain (hc : Speakable c) (h : Arriving c journal base bound taken rest seen s)
    (hbound : bound < SeqNum.top.toNat) (now : Moment) :
    Ends (drain now) s
      (fun r t => Onward taken rest r fun taken rest =>
        Arriving c journal base (bound + t.recovery.isRequesting.toNat) taken rest seen t)
      Never := by
  refine Session.ends_drain.mpr ((h.ends_replay now _).imp ?_)
  rintro r t ⟨more, rest', rfl, hdelivered, ht⟩
  refine ⟨fun hended => absurd ht.isOpen (by rw [hended]; exact nofun), fun _ => ?_⟩
  refine (ht.ends_closeGap hc hbound now).imp ?_
  rintro r' u ⟨hnothing, hu⟩
  exact Onward.silent ⟨more, rest', rfl, hdelivered, hu⟩ hnothing

/-- The expected message is not parked, so there are fewer that are parked than are missing. -/
theorem size_lt (h : Arriving c journal base bound taken rest seen s) (hs : Waits s)
    (hx : x ∈ rest) : s.recovery.size < rest.length := by
  have hpos : 0 < rest.length := List.length_pos_of_mem hx
  have hlength := length_le_of_ascending s.recovery.ascending
    (s.sequences.expectedIncoming.toNat + 1) (s.sequences.expectedIncoming.toNat + rest.length)
    (fun n hn => by
      obtain ⟨e, he, rfl⟩ := List.mem_map.mp hn
      exact UInt64.lt_iff_toNat_lt.mp (hs.behind e he))
    (fun n hn => by
      obtain ⟨e, he, rfl⟩ := List.mem_map.mp hn
      exact (h.batch.bounds (h.parked e he)).2)
  rw [List.length_map] at hlength
  unfold GapRecovery.size
  omega

/-- There is room for a message from behind a gap. -/
theorem exists_park (h : Arriving c journal base bound taken rest seen s) (hs : Waits s)
    (hbuffer : rest.length ≤ c.maxBufferedMessages) (hx : x ∈ rest) :
    ∃ recovery, s.recovery.park x.1 x.2 = .ok recovery ∧
      recovery.find? x.1 = some x.2 ∧ recovery.isRequesting = s.recovery.isRequesting ∧
      Arriving c journal base bound taken rest (x.1 :: seen) { s with recovery } := by
  have hsize : s.recovery.size < s.recovery.maxBuffered := by
    rw [h.room]
    exact Nat.lt_of_lt_of_le (h.size_lt hs hx) hbuffer
  have hroom : s.recovery.hasRoom x.1 = true := GapRecovery.hasRoom_iff.mpr (.inl hsize)
  obtain ⟨recovery, hpark⟩ : ∃ recovery, s.recovery.park x.1 x.2 = .ok recovery :=
    ⟨_, if_pos hroom⟩
  have hfind := GapRecovery.find?_park hpark
  have hpending := GapRecovery.pending_park hpark
  have hfound : recovery.find? x.1 = some x.2 := by
    rw [hfind, if_pos rfl]
  have hparked : Arriving c journal base bound taken rest seen { s with recovery } := by
    refine h.recover (GapRecovery.maxBuffered_park hpark) ?_
      (fun range hrange => hpending ▸ hrange) ?_
    · intro e he
      rcases mem_of_mem_park hpark he with rfl | he
      · exact hx
      · exact h.parked e he
    · intro e he hold
      rw [hfind]
      by_cases heq : e.1 = x.1
      · rw [if_pos heq, h.batch.eq_of_fst he hx heq]
      · rw [if_neg heq]
        exact hold
  exact ⟨recovery, hpark, hfound, congrArg Option.isSome hpending, hparked.seen_cons hx hfound⟩

end Arriving

/-- What the arrivals of frames do, one after the other. -/
def arrivals (frames : List (Bytes × Moment)) : List Operation :=
  frames.map fun a => .receive a.1 a.2

/-- Where a session stands between two arrivals: it has asked once for each message that it has
taken, and once more if a request is open. -/
structure Catching (c : SessionConfig) (journal : Journal) (base start : Nat)
    (taken rest : List (SeqNum × Parked)) (seen : List SeqNum) (s : Session MemoryStore) :
    Prop where
  arriving : Arriving c journal base (start + taken.length + s.recovery.isRequesting.toNat) taken
    rest seen s
  waits : Waits s

namespace Catching

variable {journal : Journal} {base start : Nat} {x : SeqNum × Parked}
  {taken rest : List (SeqNum × Parked)} {seen : List SeqNum}

theorem clock (h : Catching c journal base start taken rest seen s)
    (heartbeat : HeartbeatMonitor) :
    Catching c journal base start taken rest seen { s with heartbeat } where
  arriving := h.arriving.clock heartbeat
  waits := ⟨h.waits.behind, h.waits.asked, h.waits.range⟩

/-- The expected message is taken, and with it what waited for it. -/
theorem ends_inOrder (hc : Speakable c)
    (h : Catching c journal base start taken (x :: rest) seen s)
    (hroom : start + (taken.length + (x :: rest).length) < SeqNum.top.toNat) (now : Moment) :
    Ends (onNumbered x.1 x.2 now) s
      (fun r t => Onward taken (x :: rest) r fun taken rest =>
        Arriving c journal base (start + taken.length + t.recovery.isRequesting.toNat) taken rest
          (x.1 :: seen) t) Never := by
  have hrequests : s.recovery.isRequesting.toNat ≤ 1 := Bool.toNat_le _
  rw [List.length_cons] at hroom
  have hvalid := (h.arriving.batch.genuine x List.mem_cons_self).valid
  have hspoken := h.arriving.bound_mono (show _ ≤ start + (taken.length + 1) by omega)
  refine ends_onNumbered_next hvalid h.arriving.head_eq
    ((hspoken.ends_accept h.waits.behind false now).imp ?_)
  rintro _ t ⟨rfl, ht⟩
  refine (ht.ends_drain hc (by omega) now).imp ?_
  intro r u hu
  refine Onward.cons (hu.mono fun taken' rest' hprefix hu => ?_)
  have hmem : x ∈ taken' := hprefix.mem (List.mem_append_right _ List.mem_cons_self)
  have hlength := hprefix.length_le
  rw [List.length_append, List.length_singleton] at hlength
  exact (hu.seen_past hmem).bound_mono (by omega)

/-- A message from behind a gap is parked, and what is missing before it is asked for, unless a
request is open. -/
theorem ends_ahead (hc : Speakable c) (h : Catching c journal base start taken rest seen s)
    (hbuffer : rest.length ≤ c.maxBufferedMessages)
    (hroom : start + taken.length < SeqNum.top.toNat) (hx : x ∈ rest)
    (hgt : s.sequences.expectedIncoming < x.1) (now : Moment) :
    Ends (onNumbered x.1 x.2 now) s
      (fun r t => r.delivered = [] ∧
        Arriving c journal base (start + taken.length + t.recovery.isRequesting.toNat) taken rest
          (x.1 :: seen) t) Never := by
  obtain ⟨recovery, hpark, hfound, hrequesting, hparked⟩ :=
    h.arriving.exists_park h.waits hbuffer hx
  rw [← hrequesting] at hparked
  have hvalid := (h.arriving.batch.genuine x hx).valid
  refine ends_onNumbered_ahead hvalid hgt (fun _ hpark' => ?_) fun _ hfull => ?_
  · cases hpark.symm.trans hpark'
    refine ⟨fun _ => ⟨rfl, hparked⟩, fun hidle => ?_⟩
    rw [hidle] at hparked
    refine (hparked.ends_requestResend hc hroom hx hfound _ now).imp ?_
    rintro r t ⟨hdelivered, hasked, ht⟩
    rw [hasked]
    exact ⟨hdelivered, ht⟩
  · cases hpark.symm.trans hfull

/-- A message of the batch is taken, parked or discarded. -/
theorem ends_onNumbered (hc : Speakable c) (h : Catching c journal base start taken rest seen s)
    (hbuffer : (taken ++ rest).length ≤ c.maxBufferedMessages)
    (hroom : start + (taken ++ rest).length < SeqNum.top.toNat) (hx : x ∈ taken ++ rest)
    (hvalid : x.1.isValid = true) (now : Moment) :
    Ends (onNumbered x.1 x.2 now) s
      (fun r t => Onward taken rest r fun taken rest =>
        Arriving c journal base (start + taken.length + t.recovery.isRequesting.toNat) taken rest
          (x.1 :: seen) t) Never := by
  rw [List.length_append] at hbuffer hroom
  rcases List.mem_append.mp hx with hx | hx
  · exact ends_onNumbered_passed hvalid (h.arriving.past x hx)
      (.nothing rfl (h.arriving.seen_past hx))
  · rcases SeqNum.lt_trichotomy x.1 s.sequences.expectedIncoming with hlt | heq | hgt
    · have hle := (h.arriving.batch.bounds hx).1
      exact absurd (UInt64.lt_iff_toNat_lt.mp hlt) (Nat.not_lt.mpr hle)
    · obtain ⟨rest, rfl⟩ := h.arriving.batch.exists_cons hx (congrArg UInt64.toNat heq)
      exact h.ends_inOrder hc hroom now
    · refine (h.ends_ahead hc (by omega) (by omega) hx hgt now).imp ?_
      rintro r t ⟨hdelivered, ht⟩
      exact .nothing hdelivered ht

/-- A frame of the batch is received. -/
theorem exists_receive (hc : Speakable c) (h : Catching c journal base start taken rest seen s)
    (hbuffer : (taken ++ rest).length ≤ c.maxBufferedMessages)
    (hroom : start + (taken ++ rest).length < SeqNum.top.toNat)
    (hgenuine : Genuine .any c x.1 x.2) (happ : x.2.message.msgType.isApp = true)
    (hx : x ∈ taken ++ rest) (now : Moment) :
    ∃ r t, s.receive x.2.frame now = (.ok r, t) ∧ Onward taken rest r fun taken rest =>
      Catching c journal base start taken rest (x.1 :: seen) t := by
  have hgenuine : Genuine .any s.config x.1 x.2 := h.arriving.config_eq.symm ▸ hgenuine
  have hestablished : s.state.isEstablished = true := by
    rw [h.arriving.state_eq]
    rfl
  have hheard : Catching c journal base start taken rest seen (s.heard now) := h.clock _
  refine receive_of_ends (ends_process_numbered h.arriving.isOpen hestablished hgenuine
    (isPlainReset_of_isApp happ) ?_)
  refine ((hheard.ends_onNumbered hc hbuffer hroom hx hgenuine.valid now).and
    (ends_onNumbered_rests hheard.arriving.isOpen hheard.waits hgenuine.valid x.2 now)).mono ?_
    (fun _ _ h => h.1)
  rintro r t ⟨honward, hrests⟩
  refine honward.mono fun taken' rest' _ ht => ⟨ht, ?_⟩
  cases hrests with
  | ended hended =>
    have hopen := ht.isOpen
    rw [hended.terminated] at hopen
    cases hopen
  | goesOn _ hwaits => exact hwaits

/-- After frames of the batch have arrived, more of it was taken, and their numbers have been seen.
The induction is on the frames. -/
theorem exists_run (hc : Speakable c) (h : Catching c journal base start taken rest seen s)
    (hps : Batch c base (taken ++ rest)) (hbuffer : (taken ++ rest).length ≤ c.maxBufferedMessages)
    (hroom : start + (taken ++ rest).length < SeqNum.top.toNat) {frames : List (Bytes × Moment)}
    (hframes : ∀ a ∈ frames, ∃ x ∈ taken ++ rest, x.2.frame = a.1) :
    (∀ o ∈ (s.run (arrivals frames)).1, o.succeeded = true) ∧
      ∃ more rest' seen', rest = more ++ rest' ∧
        (s.run (arrivals frames)).1.flatMap Outcome.delivered =
          more.map (fun e => e.2.message) ∧
        (∀ n ∈ seen, n ∈ seen') ∧
        (∀ a ∈ frames, ∃ x ∈ taken ++ rest, x.2.frame = a.1 ∧ x.1 ∈ seen') ∧
        Catching c journal base start (taken ++ more) rest' seen' (s.run (arrivals frames)).2 := by
  induction frames generalizing s taken rest seen with
  | nil =>
    refine ⟨nofun, [], rest, seen, rfl, rfl, fun _ hn => hn, nofun, ?_⟩
    rw [List.append_nil]
    exact h
  | cons a frames ih =>
    obtain ⟨⟨x, hx, hframe⟩, hframes⟩ := List.forall_mem_cons.mp hframes
    obtain ⟨r, t, hreceive, more, rest', rfl, hdelivered, ht⟩ :=
      h.exists_receive hc hbuffer hroom (hps.genuine x hx) (hps.isApp x hx) hx a.2
    rw [hframe] at hreceive
    rw [← List.append_assoc] at hps hbuffer hroom hframes hx
    obtain ⟨hsucceeded, more', rest'', seen', rfl, hrest, hkept, hseen, hend⟩ :=
      ih ht hps hbuffer hroom hframes
    have hrun : s.run (arrivals (a :: frames)) =
        (.reacted (.ok r) :: (t.run (arrivals frames)).1, (t.run (arrivals frames)).2) := by
      show (.reacted (s.receive a.1 a.2).1 :: ((s.receive a.1 a.2).2.run (arrivals frames)).1,
        ((s.receive a.1 a.2).2.run (arrivals frames)).2) = _
      rw [hreceive]
    rw [hrun]
    refine ⟨List.forall_mem_cons.mpr ⟨rfl, hsucceeded⟩, more ++ more', rest'', seen',
      ?_, ?_, ?_, ?_, ?_⟩
    · rw [List.append_assoc]
    · rw [List.flatMap_cons, hrest, List.map_append]
      exact congrArg (· ++ _) hdelivered
    · exact fun n hn => hkept n (List.mem_cons_of_mem _ hn)
    · rw [← List.append_assoc]
      exact List.forall_mem_cons.mpr ⟨⟨x, hx, hframe, hkept _ List.mem_cons_self⟩, hseen⟩
    · rw [← List.append_assoc]
      exact hend

/-- When every message of the rest has arrived, none is left. -/
theorem rest_eq_nil (h : Catching c journal base start taken rest seen s)
    (hseen : ∀ e ∈ rest, e.1 ∈ seen) : rest = [] := by
  cases rest with
  | nil => rfl
  | cons x rest =>
    have hfound := h.arriving.held x List.mem_cons_self (hseen x List.mem_cons_self)
    have hlt := h.waits.behind _ (GapRecovery.find?_eq_some_iff.mp hfound)
    rw [h.arriving.head_eq] at hlt
    exact absurd hlt (UInt64.lt_irrefl _)

/-- When nothing is left, nothing is parked and nothing is requested. -/
theorem idle (h : Catching c journal base start taken [] seen s) :
    s.recovery.parked = [] ∧ s.recovery.pending = none := by
  constructor
  · exact List.eq_nil_iff_forall_not_mem.mpr fun e he => List.not_mem_nil (h.arriving.parked e he)
  · refine Option.eq_none_iff_forall_not_mem.mpr fun range hrange => ?_
    rcases h.arriving.asked range hrange with hpassed | ⟨_, he, _⟩
    · exact absurd hpassed (UInt64.not_lt.mpr (h.waits.range range hrange).2)
    · exact List.not_mem_nil he

end Catching

/-! ## Runs -/

/-- A session has written something, or goes on with a number that messages have. -/
def HasNumber (s : Session MemoryStore) : Prop :=
  .first ≤ s.sequences.nextOutgoing ∨ s.store.outbound.entries ≠ []

theorem HasNumber.of_eq (hs : HasNumber s) (hstore : t.store.outbound = s.store.outbound)
    (hnext : t.sequences.nextOutgoing = s.sequences.nextOutgoing) : HasNumber t := by
  unfold HasNumber
  rw [hstore, hnext]
  exact hs

theorem HasNumber.move {I : Inputs} {r : Reaction} (hs : HasNumber s) (h : Move I s r t) :
    HasNumber t := by
  rcases h.outbound_cases with ⟨hstore, hnext⟩ | ⟨_, _, now, frame, j, _, _, hj, rfl⟩
  · exact hs.of_eq hstore hnext
  · refine .inr ?_
    show j.entries ≠ []
    rw [Journal.entries_append hj]
    exact List.append_ne_nil_of_right_ne_nil _ (List.cons_ne_nil _ _)

theorem HasNumber.fault {I : Inputs} {e : Error} (hs : HasNumber s) (h : Fault I s e t) :
    HasNumber t :=
  hs.of_eq h.outbound_eq.1 h.outbound_eq.2

/-- If everything that was written is below the next number, that number is above all of it. -/
theorem HasNumber.last_lt (hs : HasNumber s)
    (hbelow : ∀ e ∈ s.store.outbound.entries, e.1 < s.sequences.nextOutgoing) :
    s.store.outbound.last < s.sequences.nextOutgoing := by
  have hfirst : .first ≤ s.sequences.nextOutgoing := by
    rcases hs with hfirst | hne
    · exact hfirst
    · obtain ⟨e, he⟩ := List.exists_mem_of_ne_nil _ hne
      exact SeqNum.succ_le_of_lt (UInt64.lt_of_le_of_lt (UInt64.zero_le) (hbelow e he))
  exact (Journal.last_lt_iff hfirst).mpr hbelow

/-- A session that is logged on, with nothing parked and nothing requested, over a store that holds
only numbers below its own; and a batch that starts with the number it expects, and that it has
room and numbers for. -/
structure Ready (c : SessionConfig) (ps : List (SeqNum × Parked)) (s : Session MemoryStore) :
    Prop where
  loggedOn : s.state = .loggedOn
  parked : s.recovery.parked = []
  pending : s.recovery.pending = none
  below : ∀ d, ∀ e ∈ (s.store.journal d).entries, e.1 < s.sequences.next d
  batch : Batch c s.sequences.expectedIncoming.toNat ps
  buffer : ps.length ≤ c.maxBufferedMessages
  room : s.sequences.nextOutgoing.toNat + ps.length < SeqNum.top.toNat

/-- A session that can be reached and is ready for a batch has taken nothing of it. -/
theorem Ready.catching {config : SessionConfig} {store : MemoryStore} {start : Nat}
    {s₀ : Session MemoryStore} (h : open? config store start = .ok s₀) {ops : List Operation}
    {ps : List (SeqNum × Parked)} (hready : Ready config ps (s₀.run ops).2) :
    Speakable config ∧
      Catching config (s₀.run ops).2.store.inbound
        (s₀.run ops).2.sequences.expectedIncoming.toNat
        (s₀.run ops).2.sequences.nextOutgoing.toNat [] ps [] (s₀.run ops).2 := by
  have hran := ran_of_open h ops
  have hconfig : (s₀.run ops).2.config = config := config_run_of_open h ops
  have hmoderate : Moderate (s₀.run ops).2 := hran.keeps (fun hmove hs => hs.move hmove)
    (fun hfault hs => hs.fault hfault) (moderate_of_open h)
  have hnumber : HasNumber (s₀.run ops).2 := by
    refine hran.keeps (fun hmove hs => hs.move hmove) (fun hfault hs => hs.fault hfault) (.inl ?_)
    obtain ⟨_, rfl⟩ := open?_eq_ok_iff.mp h
    exact SeqNum.le_max_right _ _
  have hexpected : .first ≤ (s₀.run ops).2.sequences.expectedIncoming := by
    obtain ⟨_, _, hhands⟩ := hran.hands
    refine UInt64.le_trans ?_ hhands.expected
    obtain ⟨_, rfl⟩ := open?_eq_ok_iff.mp h
    exact SeqNum.le_max_right _ _
  have hidle : Idles (s₀.run ops).2 := by
    cases settled_run_of_open h ops with
    | idle hidle => exact hidle
    | ended hended =>
      have hstate := hended.state
      rw [hready.loggedOn] at hstate
      cases hstate
  generalize (s₀.run ops).2 = s at *
  have hc : Speakable s.config := hidle.introduced.named (by rw [hready.loggedOn]; exact nofun)
  refine ⟨hconfig ▸ hc, ?_, hidle.waits⟩
  exact {
    config_eq := hconfig
    state_eq := hready.loggedOn
    isOpen := hidle.isOpen
    room := hconfig ▸ hmoderate.room
    expected := rfl
    batch := hready.batch
    past := nofun
    kept := rfl
    inbound := (Journal.last_lt_iff hexpected).mpr (hready.below .inbound)
    outbound := hnumber.last_lt (hready.below .outbound)
    spoken := Nat.le_add_right _ _
    parked := by
      rw [hready.parked]
      exact nofun
    held := nofun
    asked := by
      rw [hready.pending]
      exact nofun }

/-- A batch that arrives in any order, each message at least once, is taken as a whole and in the
order of the numbers. Nothing stays parked or requested, and the inbound journal is the same for
every order. -/
theorem run_converges {config : SessionConfig} {store : MemoryStore} {start : Nat}
    {s₀ : Session MemoryStore} (h : open? config store start = .ok s₀) (ops : List Operation)
    {ps : List (SeqNum × Parked)} (hready : Ready config ps (s₀.run ops).2)
    {frames : List (Bytes × Moment)}
    (hframes : ∀ frame, frame ∈ frames.map Prod.fst ↔ frame ∈ ps.map fun e => e.2.frame) :
    let s := (s₀.run ops).2
    let outcomes := (s.run (arrivals frames)).1
    let t := (s.run (arrivals frames)).2
    (∀ o ∈ outcomes, o.succeeded = true) ∧
      outcomes.flatMap Outcome.delivered = ps.map (fun e => e.2.message) ∧
      t.sequences.expectedIncoming.toNat = s.sequences.expectedIncoming.toNat + ps.length ∧
      t.recovery.parked = [] ∧ t.recovery.pending = none ∧
      t.store.inbound.entries = s.store.inbound.entries ++ ps.map kept ∧
      s.store.inbound.appendAll (ps.map kept) = .ok t.store.inbound := by
  intro s outcomes t
  obtain ⟨hc, hcatching⟩ := hready.catching h
  have hexists : ∀ a ∈ frames, ∃ x ∈ [] ++ ps, x.2.frame = a.1 := fun a ha =>
    List.mem_map.mp ((hframes a.1).mp (List.mem_map_of_mem ha))
  obtain ⟨hsucceeded, more, rest, seen, hps, hdelivered, -, hseen, hend⟩ :=
    hcatching.exists_run hc hready.batch hready.buffer hready.room hexists
  -- Each message of the batch has arrived, and its frame tells its number.
  have harrived : ∀ e ∈ rest, e.1 ∈ seen := by
    intro e he
    have hmem : e ∈ ps := by
      rw [hps]
      exact List.mem_append_right _ he
    obtain ⟨a, ha, hframe⟩ := List.mem_map.mp
      ((hframes e.2.frame).mpr (List.mem_map_of_mem (f := fun e => e.2.frame) hmem))
    obtain ⟨x, hx, hsame, hnumber⟩ := hseen a ha
    rw [← (hready.batch.genuine x hx).number_eq (hready.batch.genuine e hmem)
      (hsame.trans hframe)]
    exact hnumber
  obtain rfl := hend.rest_eq_nil harrived
  rw [List.append_nil] at hps
  subst hps
  have harriving := hend.arriving
  obtain ⟨hparked, hpending⟩ := hend.idle
  exact ⟨hsucceeded, hdelivered, harriving.expected, hparked, hpending,
    Journal.entries_appendAll harriving.kept, harriving.kept⟩

end Session

namespace Sample

open Session

/-- An order of the side that begins, as the other side parks it. -/
def parkedOrder (number : SeqNum) : Parked :=
  let s : Session MemoryStore := .fresh initiator .empty 0
  ⟨⟨s.header .newOrderSingle number moment.utc⟩, frame initiator .newOrderSingle number []⟩

theorem genuine_order {number : SeqNum} (h : number.isValid = true) :
    Genuine .any acceptor number (parkedOrder number) := by
  let s : Session MemoryStore := .fresh initiator .empty 0
  obtain ⟨bytes, hencode⟩ :
      ∃ bytes, Wire.encode (s.header .newOrderSingle number moment.utc ++ []) = .ok bytes :=
    exists_encode_header speakable_initiator ⟨by decide, by decide, by decide⟩
      (List.forall_mem_nil _) moment.utc
  have hgenuine := genuine_frame h (by decide) (by decide) hencode
  rwa [List.append_nil] at hgenuine

theorem batch_orders : Batch acceptor 2 [(2, parkedOrder 2), (3, parkedOrder 3)] where
  genuine e he := by
    rcases List.mem_pair.mp he with rfl | rfl
    · exact genuine_order (by decide)
    · exact genuine_order (by decide)
  isApp e he := by
    rcases List.mem_pair.mp he with rfl | rfl
    · decide +kernel
    · decide +kernel
  numbers := by decide

end Sample

namespace Session

/-- The second of two orders arrives first, and once more in the end. -/
theorem run_converges_acceptor :
    let s₀ : Session MemoryStore := .fresh Sample.acceptor .empty 0
    let ops : List Operation := [.receive (Sample.logon Sample.initiator) Sample.moment]
    let s := (s₀.run ops).2
    let frames := [3, 2, 3].map fun n => ((Sample.parkedOrder n).frame, Sample.moment)
    let t := (s.run (arrivals frames)).2
    open? Sample.acceptor MemoryStore.empty 0 = .ok s₀ ∧ s.state = .loggedOn ∧
      s.sequences.expectedIncoming = 2 ∧
      ((s.run (arrivals frames)).1.flatMap Outcome.delivered).map Message.seqNum? =
        [some 2, some 3] ∧
      t.sequences.expectedIncoming.toNat = 4 ∧ t.recovery.pending = none ∧
      t.store.inbound.entries =
        s.store.inbound.entries ++
          [(2, (Sample.parkedOrder 2).frame), (3, (Sample.parkedOrder 3).frame)] := by
  intro s₀ ops s frames t
  have hstate : s.state = .loggedOn := by decide +kernel
  have hexpected : s.sequences.expectedIncoming = 2 := by decide +kernel
  have hready : Ready Sample.acceptor [(2, Sample.parkedOrder 2), (3, Sample.parkedOrder 3)] s := {
    loggedOn := hstate
    parked := by decide +kernel
    pending := by decide +kernel
    below := by
      intro d
      cases d
      · decide +kernel
      · decide +kernel
    batch := by
      rw [hexpected]
      exact Sample.batch_orders
    buffer := by decide +kernel
    room := by decide +kernel }
  have hframes : ∀ frame, frame ∈ frames.map Prod.fst ↔
      frame ∈ [(2, Sample.parkedOrder 2), (3, Sample.parkedOrder 3)].map fun e => e.2.frame := by
    intro frame
    show frame ∈ [_, _, _] ↔ frame ∈ [_, _]
    rw [List.mem_pair, List.mem_cons, List.mem_pair]
    exact ⟨fun h => h.elim .inr (fun h => h), .inr⟩
  obtain ⟨-, hdelivered, hnext, -, hpending, hentries, -⟩ :=
    run_converges Sample.open_acceptor ops hready hframes
  refine ⟨Sample.open_acceptor, hstate, hexpected, ?_, ?_, hpending, hentries⟩
  · rw [hdelivered]
    decide +kernel
  · rw [hnext, hexpected]
    rfl

end Session

end FixProtocol
