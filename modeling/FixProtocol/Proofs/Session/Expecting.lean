import FixProtocol.Proofs.Session.Counters
import FixProtocol.Proofs.Session.Exchange
import FixProtocol.Proofs.Session.Telling

/-!
# What a session can come to expect

The expected number and the inbound counter of the store agree between two calls, and neither ever
falls. So a session whose store begins with a number that messages have goes on with such numbers,
until it comes to the greatest word, which no message has. Two ways lead there: the message with the
greatest number is taken, or a sequence reset names the word after it. A reset that names no number
at all, or zero, ends the session; one that names the greatest word does not.

- `Session.Abreast`: the session and its store expect the same number; every call that does not fail
  keeps it.
- `Session.Exhausts`: what brings a session to the greatest word.
- `Session.run_expects`: what a session expects after a run, and what a sequence reset in its turn
  does that names no number that messages have.
-/

namespace FixProtocol

/-- A counter that comes to the greatest word has just passed the greatest number of a message. -/
theorem SeqNum.eq_greatest_of_max_next {m n : SeqNum} (h : max m n.next = top) (hm : m ≠ top)
    (hn : n ≠ top) : n = greatest := by
  rw [next, if_neg hn] at h
  change (if m ≤ n + 1 then n + 1 else m) = top at h
  split at h
  · grind
  · exact absurd h hm

namespace Session

open Call

variable {α : Type} {I : Inputs} {s t u : Session MemoryStore} {r : Reaction} {n : SeqNum}
  {p : Parked}

/-! ## Store and session agree -/

/-- The session and its store expect the same number. -/
def Abreast (s : Session MemoryStore) : Prop :=
  s.store.inbound.nextSeq = s.sequences.expectedIncoming

theorem Abreast.same (hs : Abreast s) (hstore : t.store.inbound = s.store.inbound)
    (hexpected : t.sequences.expectedIncoming = s.sequences.expectedIncoming) : Abreast t := by
  rw [Abreast, hstore, hexpected]
  exact hs

theorem Abreast.still (hs : Abreast s) (h : Still s t) : Abreast t :=
  hs.same h.store h.expected

theorem Abreast.renumbers (hs : Abreast s) (h : Renumbers s t) : Abreast t := by
  cases h with
  | still h => exact hs.still h
  | reset _ hstore hexpected =>
    rw [Abreast, hstore, hexpected]
    rfl

/-- A message that is kept under the next number brings the store to the one after it. -/
theorem Abreast.keep {frame : Bytes} {store : MemoryStore} (hn : s.store.inbound.nextSeq = n)
    (htop : n ≠ .top) (hstore : MessageStore.append s.store .inbound n frame = (.ok (), store)) :
    store.inbound.nextSeq = n + 1 := by
  obtain ⟨j, hj, rfl⟩ := MemoryStore.append_eq_ok hstore
  exact (Journal.level_append hj hn htop).1

theorem Leaves.abreast {c : Call MemoryStore α} (h : Leaves c s) (hs : Abreast s) :
    Ends c s (fun _ t => Abreast t) Anyhow :=
  h.anyhow fun _ _ hst => hs.still hst

theorem ends_accept_abreast (hs : s.store.inbound.nextSeq = n) (hn : n.isValid = true) (p : Parked)
    (replaying : Bool) (now : Moment) :
    Ends (accept n p replaying now) (s.counted n) (fun _ t => Abreast t) Anyhow := by
  refine ends_accept (fun store hstore => ?_) fun _ _ _ => trivial
  have hkept : Abreast { s.counted n with store } :=
    Abreast.keep hs (SeqNum.ne_top_of_isValid hn) hstore
  exact (ends_dispatch_renumbers p.message replaying now).anyhow fun _ _ => hkept.renumbers

theorem ends_drain_abreast (hsound : Sound I s) (hs : Abreast s) (now : Moment) :
    Ends (drain now) s (fun _ t => Abreast t) Anyhow := by
  refine ends_drain_keeps (P := fun _ t => Abreast t)
    (ends_replay_sound (fun _ ht => ht.same rfl rfl) ?_ hsound hs _) ?_
  · intro _ t p _ _ ht hp
    exact ends_accept_abreast (s := t.released) ht hp.valid p true now
  · exact fun _ ht => (leaves_closeGap now).abreast ht

theorem ends_onNumbered_abreast (hsound : Sound I s) (hs : Abreast s) (hp : Genuine I s.config n p)
    (now : Moment) : Ends (onNumbered n p now) s (fun _ t => Abreast t) Anyhow := by
  refine ends_onNumbered hp.valid (fun _ => hs) (fun heq => ?_)
    (fun _ recovery _ => ⟨fun _ => hs.same rfl rfl, fun _ => ?_⟩) fun _ _ _ => trivial
  · exact (hsound.accept hp heq (ends_accept_abreast (hs.trans heq.symm) hp.valid p false now)).imp
      fun _ _ ht => ends_drain_abreast ht.2 ht.1 now
  · exact (leaves_requestResend ..).abreast (hs.same rfl rfl)

/-- A logon with the expected number is counted first and kept at the end, so that the two agree
again only when it has not failed in between. -/
theorem ends_onLogonPhase_abreast (hs : Abreast s) (hn : n.isValid = true) (p : Parked)
    (now : Moment) : Ends (onLogonPhase n p now) s (fun _ t => Abreast t) Anyhow := by
  refine ends_onLogonPhase hn (fun _ _ _ => trivial) (fun seconds _ _ heq => ?_)
    fun seconds _ _ _ => ?_
  · refine (leaves_establish (s := s.counted n) seconds now).anyhow fun _ t hst =>
      ends_append.mpr ⟨fun store hstore => ?_, fun _ _ _ => trivial⟩
    have hnext : t.store.inbound.nextSeq = n := by
      rw [hst.store, heq]
      exact hs
    have hkept := Abreast.keep hnext (SeqNum.ne_top_of_isValid hn) hstore
    exact hkept.trans hst.expected.symm
  · refine (leaves_establish seconds now).anyhow fun _ t hst =>
      ends_park.mpr ⟨fun _ _ => ?_, fun _ _ => trivial⟩
    exact (leaves_requestResend ..).abreast ((hs.still hst).same rfl rfl)

theorem ends_process_abreast (hsound : Sound .any s) (hs : Abreast s) (frame : Bytes)
    (now : Moment) : Ends (process frame now) s (fun _ t => Abreast t) Anyhow := by
  have hheard : Abreast (s.heard now) := hs
  refine ends_process (I := .any) trivial (fun _ _ _ _ _ => trivial) ?early ?reset ?numbered
  case early => exact fun _ _ _ _ hp => ends_onLogonPhase_abreast hheard hp.valid _ now
  case reset =>
    intro _ _ n m hp hplain
    exact (Sound.reset (s := s.heard now) (p := ⟨m, frame⟩) hsound hp hplain
      (ends_applySequenceReset_renumbers m)).anyhow
        fun _ _ ht => ends_drain_abreast ht.2 (hheard.renumbers ht.1) now
  case numbered =>
    exact fun _ _ _ _ hp _ => ends_onNumbered_abreast (s := s.heard now) hsound hheard hp now

theorem abreast_of_settle {c : Call MemoryStore Reaction}
    (h : Ends c s (fun _ t => Abreast t) Anyhow) {now : Moment}
    (hopen : (c.settle s now).2.terminated = false) : Abreast (c.settle s now).2 := by
  rcases settle_cases h now with ⟨r, t, hsettle, ht⟩ | ⟨e, t, hsettle⟩
  · rw [hsettle]
    exact ht
  · rw [hsettle] at hopen
    cases hopen

/-- An operation that leaves the session open leaves it abreast of its store. -/
theorem Abreast.step (hsound : Sound .any s) (hs : Abreast s) (op : Operation)
    (hopen : (s.step op).2.terminated = false) : Abreast (s.step op).2 := by
  have hsent {c : Call MemoryStore Bytes} (h : Leaves c s) : Abreast (c.run s).2 := by
    rcases run_cases h with ⟨_, _, hrun, hst⟩ | ⟨_, _, hrun, hst⟩
    · rw [hrun]
      exact hs.still hst
    · rw [hrun]
      exact hs.still hst
  cases op with
  | logon now => exact hsent (leaves_logon now)
  | send type fields now => exact hsent (leaves_send type fields now)
  | logout text now => exact hsent (leaves_logout text now)
  | receive frame now => exact abreast_of_settle (ends_process_abreast hsound hs frame now) hopen
  | timer now => exact abreast_of_settle ((leaves_tick now).abreast hs) hopen
  | disconnect now =>
    exact absurd hopen (Bool.eq_false_iff.not.mpr (not_not.mpr (terminated_disconnect s now)))

/-! ## The way to the greatest word -/

/-- The frames that are received in a run, and whatever its application sends. -/
def Inputs.received (ops : List Operation) : Inputs :=
  ⟨fun frame => ∃ now, .receive frame now ∈ ops, fun _ => True⟩

theorem within_received {ops : List Operation} : ∀ op ∈ ops, op.Within (.received ops) := by
  intro op hop
  cases op with
  | receive frame now => exact ⟨now, hop⟩
  | _ => trivial

/-- What brings a session that took the messages in `taken` to the greatest word: one of them has the
greatest number, or a sequence reset of the counterparty names the word after it. -/
inductive Exhausts (I : Inputs) (c : SessionConfig) (taken : List (SeqNum × Bytes)) : Prop
  | greatest {frame : Bytes} (h : (.greatest, frame) ∈ taken)
  | reset {n : SeqNum} {p : Parked} (hp : Genuine I c n p)
      (htype : p.message.msgType = .sequenceReset)
      (hnumber : p.message.nat64? .newSeqNo = some SeqNum.top)

theorem Exhausts.mono {c : SessionConfig} {taken taken' : List (SeqNum × Bytes)}
    (h : Exhausts I c taken) (hsub : taken ⊆ taken') : Exhausts I c taken' := by
  cases h with
  | greatest h => exact .greatest (hsub h)
  | reset hp htype hnumber => exact .reset hp htype hnumber

/-- A move leaves the inbound journal alone, or keeps a message in it, or sets its counter to the
number that a sequence reset names. -/
theorem Move.inbound_cases (h : Move I s r t) :
    t.store.inbound = s.store.inbound ∨
      (∃ n p, Genuine I s.config n p ∧
        s.store.inbound.append n p.frame = .ok t.store.inbound) ∨
      ∃ n p number, Genuine I s.config n p ∧ p.message.msgType = .sequenceReset ∧
        p.message.nat64? .newSeqNo = some number ∧
        t.store.inbound = s.store.inbound.setNextSeq number := by
  cases h with
  | write now _ _ hstore => exact .inl (inbound_of_append_outbound hstore)
  | serve _ _ _ _ hrange _ =>
    obtain ⟨_, rfl⟩ := MemoryStore.range_eq hrange
    exact .inl rfl
  | take hp _ hstore =>
    obtain ⟨j, hj, rfl⟩ := MemoryStore.append_eq_ok hstore
    exact .inr (.inl ⟨_, _, hp, hj⟩)
  | keepLogon hp _ _ hstore =>
    obtain ⟨j, hj, rfl⟩ := MemoryStore.append_eq_ok hstore
    exact .inr (.inl ⟨_, _, hp, hj⟩)
  | advance hp htype hnumber _ _ => exact .inr (.inr ⟨_, _, _, hp, htype, hnumber, rfl⟩)
  | _ => exact .inl rfl

/-- Since the inbound journal was `start`, the session has taken some messages, and the counter has
come to the greatest word only in one of the two ways. -/
def Spares (I : Inputs) (c : SessionConfig) (start : Journal) (s : Session MemoryStore) : Prop :=
  s.config = c ∧ ∃ taken, s.store.inbound.entries = start.entries ++ taken ∧
    (s.store.inbound.nextSeq = .top → Exhausts I c taken)

section
variable {c : SessionConfig} {start : Journal}

theorem Spares.same (hs : Spares I c start s) (hconfig : t.config = s.config)
    (hstore : t.store.inbound = s.store.inbound) : Spares I c start t := by
  obtain ⟨hc, taken, hentries, htop⟩ := hs
  refine ⟨hconfig.trans hc, taken, ?_, ?_⟩
  · rw [hstore]
    exact hentries
  · rw [hstore]
    exact htop

theorem Spares.move (hs : Spares I c start s) (h : Move I s r t) : Spares I c start t := by
  rcases h.inbound_cases with hsame | ⟨n, p, hp, hj⟩ | ⟨n, p, number, hp, htype, hnumber, hset⟩
  · exact hs.same h.config_eq hsame
  · obtain ⟨rfl, taken, hentries, htop⟩ := hs
    refine ⟨h.config_eq, taken ++ [(n, p.frame)], ?_, fun heq => ?_⟩
    · rw [Journal.entries_append hj, hentries, List.append_assoc]
    · rw [Journal.nextSeq_append hj] at heq
      by_cases hbefore : s.store.inbound.nextSeq = .top
      · exact (htop hbefore).mono (List.subset_append_left ..)
      · -- The counter has only now come to the end, by the number of this message.
        have hn : n = .greatest := SeqNum.eq_greatest_of_max_next heq hbefore
          (SeqNum.ne_top_of_isValid hp.valid)
        subst hn
        exact .greatest (List.mem_append_right _ (List.mem_singleton_self _))
  · obtain ⟨rfl, taken, hentries, _⟩ := hs
    refine ⟨h.config_eq, taken, ?_, fun heq => ?_⟩
    · rw [hset]
      exact hentries
    · rw [hset] at heq
      exact .reset hp htype (hnumber.trans (congrArg some heq))

theorem Spares.fault {e : Error} (hs : Spares I c start s) (h : Fault I s e t) :
    Spares I c start t := by
  rcases h.eq_or_counted with rfl | ⟨_, _, rfl⟩
  · exact hs
  · exact hs.same rfl rfl

end

/-! ## Sequence resets that name no number of a message -/

/-- A reset that names nothing, or zero, does nothing. -/
theorem ends_applySequenceReset_unnamed {m : Message}
    (hpos : .first ≤ s.sequences.expectedIncoming)
    (hzero : ∀ number, m.nat64? .newSeqNo = some number → number = 0) :
    Ends (applySequenceReset m) s (fun _ _ => False) (fun _ t => t = s) := by
  refine ends_applySequenceReset (fun _ => rfl) (fun _ _ _ => rfl) fun number hnumber hle => ?_
  obtain rfl := hzero number hnumber
  exact absurd (UInt64.le_trans hpos hle) (by decide)

/-- A reset that names the greatest word sets both counters to it. -/
theorem ends_applySequenceReset_top {m : Message} (htop : m.nat64? .newSeqNo = some SeqNum.top) :
    Ends (applySequenceReset m) s
      (fun _ t => t.recovery = s.recovery ∧ t.terminated = s.terminated ∧
        t.config = s.config ∧ t.sequences.expectedIncoming = .top ∧
        t.store.inbound.nextSeq = .top) Never := by
  refine ends_applySequenceReset (fun hnone => ?_) (fun number hnumber hlt => ?_)
    fun number hnumber _ => ?_
  · cases htop.symm.trans hnone
  · cases htop.symm.trans hnumber
    grind
  · cases htop.symm.trans hnumber
    exact ⟨rfl, rfl, rfl, rfl, rfl⟩

/-- At the greatest word nothing that waits is ever taken, and nothing is asked for. -/
theorem ends_drain_top (hopen : s.terminated = false) (hsound : Sound I s)
    (htop : s.sequences.expectedIncoming = .top) (now : Moment) :
    Ends (drain now) s
      (fun _ t => t.terminated = false ∧ t.sequences = s.sequences ∧ t.store = s.store) Never := by
  have hnone : s.recovery.find? s.sequences.expectedIncoming = none := by
    refine List.lookup_eq_none_iff.mpr fun e he => bne_iff_ne.mpr ?_
    rw [htop]
    exact (SeqNum.ne_top_of_isValid (hsound e he).valid).symm
  -- What waited is dropped, as it is all below the greatest word.
  have hreplay (count : Nat) (hsize : s.recovery.size = count) :
      Ends (replay now count) s
        (fun _ t => t.recovery.parked = [] ∧ t.terminated = false ∧ t.sequences = s.sequences ∧
          t.store = s.store) Never := by
    cases count with
    | zero => exact ⟨List.eq_nil_of_length_eq_zero hsize, hopen, rfl, rfl⟩
    | succ count =>
      refine ends_replay_succ hopen (fun _ => ⟨?_, hopen, rfl, rfl⟩) fun p hready => ?_
      · refine List.eq_nil_iff_forall_not_mem.mpr fun e he => ?_
        have hlt := GapRecovery.lt_of_mem_takeReady he
        grind
      · cases hnone.symm.trans hready
  refine ends_drain.mpr ((hreplay _ rfl).imp ?_)
  rintro _ t ⟨hparked, ht⟩
  refine ⟨fun hended => absurd (ht.1.symm.trans hended) Bool.false_ne_true, fun _ => ?_⟩
  refine (ends_closeGap_of_nil hparked now).imp ?_
  rintro _ _ ⟨rfl, rfl⟩
  exact ht

/-- What is expected when a sequence reset has been counted: a gap fill counts like every message, a
plain reset does not. -/
def countedReset (s : Session MemoryStore) (m : Message) : SeqNum :=
  if isPlainReset m then s.sequences.expectedIncoming else s.sequences.expectedIncoming + 1

section
variable (hs : Abreast s) (hp : Genuine I s.config n p)
  (htype : p.message.msgType = .sequenceReset)
include hs hp htype

/-- A reset in its turn that names nothing, or zero, ends the session; at most it was counted
itself. -/
theorem ends_process_unnamed (hopen : s.terminated = false)
    (hstate : s.state.isEstablished = true) (hpos : .first ≤ s.sequences.expectedIncoming)
    (hturn : isPlainReset p.message = true ∨ n = s.sequences.expectedIncoming)
    (hzero : ∀ number, p.message.nat64? .newSeqNo = some number → number = 0) (now : Moment) :
    Ends (process p.frame now) s (fun _ _ => False)
      (fun _ t => t.sequences.expectedIncoming = s.countedReset p.message ∧
        (t.store.inbound.nextSeq = s.store.inbound.nextSeq ∨
          t.store.inbound.nextSeq = s.countedReset p.message)) := by
  unfold countedReset
  cases hplain : isPlainReset p.message with
  | true =>
    refine ends_process_reset hopen hstate hp hplain ?_
    refine (ends_applySequenceReset_unnamed (s := s.heard now) hpos hzero).mono
      (fun _ _ h => h.elim) ?_
    rintro _ _ rfl
    exact ⟨rfl, .inl rfl⟩
  | false =>
    obtain rfl := hturn.resolve_left (Bool.eq_false_iff.mp hplain)
    have hpos : .first ≤ s.sequences.expectedIncoming + 1 :=
      UInt64.le_trans hpos (SeqNum.le_succ_of_isValid hp.valid)
    refine ends_process_numbered hopen hstate hp hplain (ends_onNumbered_next hp.valid rfl
      (ends_accept (fun store hstore => ?_) fun _ store hstore => ?_))
    · refine ends_dispatch_sequenceReset htype ?_
      refine (ends_applySequenceReset_unnamed hpos hzero).mono (fun _ _ h => h.elim) ?_
      rintro _ _ rfl
      exact ⟨rfl, .inr (Abreast.keep hs (SeqNum.ne_top_of_isValid hp.valid) hstore)⟩
    · cases MemoryStore.append_eq_error hstore
      exact ⟨rfl, .inl rfl⟩

omit hs in
/-- A reset in its turn that names the greatest word does not: the session goes on there. -/
theorem ends_process_top (hopen : s.terminated = false) (hstate : s.state.isEstablished = true)
    (hsound : Sound I s)
    (hturn : isPlainReset p.message = true ∨
      n = s.sequences.expectedIncoming ∧ s.store.inbound.last < n)
    (htop : p.message.nat64? .newSeqNo = some SeqNum.top) (now : Moment) :
    Ends (process p.frame now) s
      (fun _ t => t.terminated = false ∧ t.sequences.expectedIncoming = .top ∧
        t.store.inbound.nextSeq = .top) Never := by
  -- Either way the counters are set, and then what waits is looked through.
  have hdrain {u : Session MemoryStore}
      (hu : u.recovery = s.recovery ∧ u.terminated = s.terminated ∧ u.config = s.config ∧
        u.sequences.expectedIncoming = .top ∧ u.store.inbound.nextSeq = .top) :
      Ends (drain now) u (fun _ t => t.terminated = false ∧ t.sequences.expectedIncoming = .top ∧
        t.store.inbound.nextSeq = .top) Never := by
    obtain ⟨hrecovery, hterminated, hconfig, hexpected, hstore⟩ := hu
    refine (ends_drain_top (hterminated.trans hopen) (hsound.of_recovery_eq hconfig hrecovery)
      hexpected now).imp ?_
    rintro _ v ⟨hvopen, hvsequences, hvstore⟩
    rw [hvsequences, hvstore]
    exact ⟨hvopen, hexpected, hstore⟩
  cases hplain : isPlainReset p.message with
  | true =>
    exact ends_process_reset hopen hstate hp hplain
      ((ends_applySequenceReset_top htop).imp fun _ _ hu => hdrain hu)
  | false =>
    obtain ⟨rfl, hlast⟩ := hturn.resolve_left (Bool.eq_false_iff.mp hplain)
    obtain ⟨j, hj, hstore⟩ := MemoryStore.append_of_lt (d := .inbound) (s := s.store) hlast p.frame
    exact ends_process_numbered hopen hstate hp hplain (ends_onNumbered_next hp.valid rfl
      (ends_accept_ok hstore (ends_dispatch_sequenceReset htype
        ((ends_applySequenceReset_top htop).imp fun _ _ hu => hdrain hu))))

end

/-! ## Runs -/

/-- Over a run a session that is open stays abreast of its store. The induction is on the
operations. -/
theorem abreast_run (hs : Steady s) (h : s.terminated = false → Abreast s) (ops : List Operation)
    (hopen : (s.run ops).2.terminated = false) : Abreast (s.run ops).2 := by
  induction ops generalizing s with
  | nil => exact h hopen
  | cons op ops ih =>
    refine ih (hs.step op rfl) (fun hstep => ?_) hopen
    -- An operation does not open a session again.
    have hbefore : s.terminated = false := by
      refine Bool.eq_false_iff.mpr fun hended => ?_
      exact Bool.false_ne_true (hstep.symm.trans (lasts_step (hs.lasts hended) op).2.terminated)
    exact (h hbefore).step hs.sound op hstep

section
variable {config : SessionConfig} {store : MemoryStore} {opened : Nat} {s₀ : Session MemoryStore}

/-- A new session is abreast of a store whose counter is above zero. -/
theorem abreast_run_of_open (h : open? config store opened = .ok s₀)
    (hfirst : .first ≤ store.inbound.nextSeq) (ops : List Operation)
    (hopen : (s₀.run ops).2.terminated = false) : Abreast (s₀.run ops).2 := by
  refine abreast_run (steady_of_open h) (fun _ => ?_) ops hopen
  obtain ⟨_, rfl⟩ := open?_eq_ok_iff.mp h
  exact (SeqNum.max_first_of_le hfirst).symm

theorem first_le_run_of_open (h : open? config store opened = .ok s₀) (ops : List Operation) :
    .first ≤ (s₀.run ops).2.sequences.expectedIncoming := by
  obtain ⟨_, _, hhands⟩ := (ran_of_open h ops).hands
  refine UInt64.le_trans ?_ hhands.expected
  obtain ⟨_, rfl⟩ := open?_eq_ok_iff.mp h
  exact SeqNum.le_max_right _ _

theorem spares_run_of_open (h : open? config store opened = .ok s₀)
    (htop : store.inbound.nextSeq ≠ .top) (ops : List Operation) :
    Spares (.received ops) config store.inbound (s₀.run ops).2 := by
  refine (ran (sound_of_open h) within_received).keeps (fun hmove hs => hs.move hmove)
    (fun hfault hs => hs.fault hfault) ?_
  obtain ⟨_, rfl⟩ := open?_eq_ok_iff.mp h
  exact ⟨rfl, [], (List.append_nil _).symm, fun heq => absurd heq htop⟩

/-- Over every run of a session whose store begins with a number that messages have, and with any
frames arriving. As long as the session is open, it expects the same number as its store, and
messages have that number, unless the session has come to the greatest word: then it has taken the
message with the greatest number since it began, or a sequence reset of the counterparty has named
that word. And when a sequence reset arrives in its turn, as a gap fill or not, that names no number
that messages have: if it names no number at all, or zero, it ends the session and moves neither
counter, but that a gap fill may have been counted itself; if it names the greatest word, the session
goes on and both counters are there. -/
theorem run_expects (h : open? config store opened = .ok s₀)
    (hvalid : store.inbound.nextSeq.isValid = true) (ops : List Operation) :
    let s := (s₀.run ops).2
    (s.terminated = false →
      s.store.inbound.nextSeq = s.sequences.expectedIncoming ∧
      ∃ taken, s.store.inbound.entries = store.inbound.entries ++ taken ∧
        (s.sequences.expectedIncoming.isValid = true ∨
          s.sequences.expectedIncoming = .top ∧ Exhausts (.received ops) config taken)) ∧
    ∀ (n : SeqNum) (p : Parked) (now : Moment), s.state.isEstablished = true →
      Genuine .any config n p → p.message.msgType = .sequenceReset →
      (∀ number : SeqNum, p.message.nat64? .newSeqNo = some number → number.isValid = false) →
      let t := (s.step (.receive p.frame now)).2
      (isPlainReset p.message = true ∨ n = s.sequences.expectedIncoming →
        p.message.nat64? .newSeqNo ≠ some SeqNum.top →
          t.terminated = true ∧ t.sequences.expectedIncoming = s.countedReset p.message ∧
          (t.store.inbound.nextSeq = s.store.inbound.nextSeq ∨
            t.store.inbound.nextSeq = s.countedReset p.message)) ∧
      (isPlainReset p.message = true ∨
          n = s.sequences.expectedIncoming ∧ s.store.inbound.last < n →
        p.message.nat64? .newSeqNo = some SeqNum.top →
          t.terminated = false ∧ t.sequences.expectedIncoming = .top ∧
          t.store.inbound.nextSeq = .top) := by
  intro s
  have hstore := SeqNum.isValid_iff.mp hvalid
  have hfirst : .first ≤ s.sequences.expectedIncoming := first_le_run_of_open h ops
  constructor
  · intro hopen
    have habreast : Abreast s := abreast_run_of_open h hstore.1 ops hopen
    obtain ⟨_, taken, hentries, hexhausts⟩ :=
      spares_run_of_open h (SeqNum.ne_top_of_isValid hvalid) ops
    refine ⟨habreast, taken, hentries, ?_⟩
    by_cases htop : s.sequences.expectedIncoming = .top
    · exact .inr ⟨htop, hexhausts (habreast.trans htop)⟩
    · exact .inl (SeqNum.isValid_iff.mpr ⟨hfirst, SeqNum.lt_top_of_ne htop⟩)
  · intro n p now hstate hp htype hnone t
    have hsteady : Steady s := (steady_of_open h).run ops
    have hopen : s.terminated = false := by
      refine Bool.eq_false_iff.mpr fun hended => ?_
      rw [hsteady.ended hended] at hstate
      cases hstate
    have habreast : Abreast s := abreast_run_of_open h hstore.1 ops hopen
    have hp : Genuine .any s.config n p := (config_run_of_open h ops).symm ▸ hp
    constructor
    · intro hturn htop
      have hzero (number : SeqNum) (hnumber : p.message.nat64? .newSeqNo = some number) :
          number = 0 := by
        by_contra hne
        have hbelow : number < .top := SeqNum.lt_top_of_ne fun heq => htop (heq ▸ hnumber)
        have hvalid : number.isValid = true := SeqNum.isValid_iff.mpr ⟨by grind, hbelow⟩
        rw [hnone number hnumber] at hvalid
        cases hvalid
      have hends := ends_process_unnamed habreast hp htype hopen hstate hfirst hturn hzero now
      obtain ⟨e, u, hsettle, hexpected, hunmoved⟩ := settle_of_fails hends now
      have ht : t = u.terminate now := congrArg Prod.snd hsettle
      rw [ht]
      exact ⟨rfl, hexpected, hunmoved⟩
    · intro hturn htop
      have hends := ends_process_top hp htype hopen hstate hsteady.sound hturn htop now
      obtain ⟨r, u, hsettle, hgoes⟩ := settle_of_ends hends now
      have ht : t = u := congrArg Prod.snd hsettle
      rw [ht]
      exact hgoes

end

end Session

namespace Sample

open Session

/-- A frame of the side that begins, and its message. -/
def parked (type : MsgType) (number : SeqNum) (body : List Field) : Parked :=
  let s : Session MemoryStore := .fresh initiator .empty 0
  ⟨⟨s.header type number moment.utc ++ body⟩, frame initiator type number body⟩

theorem genuine_parked {type : MsgType} {number : SeqNum} {body : List Field}
    (hn : number.isValid = true) (hcode : (Utf8.bytes type.code).length ≤ 20)
    (hbody : (Wire.fieldBytes body).length ≤ 1000)
    (hencode : (Wire.encode (parked type number body).message.fields).isOk = true) :
    Genuine .any acceptor number (parked type number body) := by
  cases heq : Wire.encode (parked type number body).message.fields with
  | ok bytes => exact genuine_frame hn hcode hbody heq
  | error e =>
    rw [heq] at hencode
    cases hencode

/-- A sequence reset of the side that begins. -/
def reset (number newSeqNo : SeqNum) : Parked :=
  parked .sequenceReset number [.ofSeqNum .newSeqNo newSeqNo]

end Sample

namespace Session

/-- A reset to the greatest word leaves the session at a number that no message has; a reset to zero
ends it. -/
theorem run_expects_acceptor :
    let s₀ : Session MemoryStore := .fresh Sample.acceptor .empty 0
    let s := (s₀.run [.receive (Sample.logon Sample.initiator) Sample.moment]).2
    let after (newSeqNo : SeqNum) : Session MemoryStore :=
      (s.step (.receive (Sample.reset 2 newSeqNo).frame Sample.moment)).2
    open? Sample.acceptor MemoryStore.empty 0 = .ok s₀ ∧
      (s.terminated = false ∧ s.sequences.expectedIncoming = 2) ∧
      ((after .top).terminated = false ∧ (after .top).sequences.expectedIncoming = .top ∧
        (after .top).store.inbound.nextSeq = .top) ∧
      ((after 0).terminated = true ∧ (after 0).sequences.expectedIncoming = 2 ∧
        (after 0).store.inbound.nextSeq = 2) := by
  intro s₀ s after
  have hs : s.terminated = false ∧ s.sequences.expectedIncoming = 2 ∧
      s.store.inbound.nextSeq = 2 ∧ s.state.isEstablished = true := by decide +kernel
  obtain ⟨_, hresets⟩ := run_expects Sample.open_acceptor (by decide)
    [.receive (Sample.logon Sample.initiator) Sample.moment]
  have hunnamed {m : Message} {w : SeqNum} (hnamed : m.nat64? .newSeqNo = some w)
      (hw : w.isValid = false) (number : SeqNum) (h : m.nat64? .newSeqNo = some number) :
      number.isValid = false := by
    obtain rfl : w = number := Option.some.inj (hnamed.symm.trans h)
    exact hw
  have hnamesTop : (Sample.reset 2 .top).message.nat64? .newSeqNo = some SeqNum.top := by
    decide +kernel
  have hnamesZero : (Sample.reset 2 0).message.nat64? .newSeqNo = some 0 := by decide +kernel
  have htop := (hresets 2 (Sample.reset 2 .top) Sample.moment hs.2.2.2
    (Sample.genuine_parked (by decide) (by decide) (by decide +kernel) (by decide +kernel))
    (by decide +kernel) (hunnamed hnamesTop (by decide))).2 (.inl (by decide +kernel)) hnamesTop
  obtain ⟨hended, hexpected, hunmoved⟩ := (hresets 2 (Sample.reset 2 0) Sample.moment hs.2.2.2
    (Sample.genuine_parked (by decide) (by decide) (by decide +kernel) (by decide +kernel))
    (by decide +kernel) (hunnamed hnamesZero (by decide))).1 (.inl (by decide +kernel))
      (by decide +kernel)
  have hcounted : s.countedReset (Sample.reset 2 0).message = 2 := by decide +kernel
  refine ⟨Sample.open_acceptor, ⟨hs.1, hs.2.1⟩, htop, hended, hexpected.trans hcounted, ?_⟩
  exact hunmoved.elim (fun h => h.trans hs.2.2.1) (fun h => h.trans hcounted)

end Session

end FixProtocol
