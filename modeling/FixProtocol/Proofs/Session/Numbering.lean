import FixProtocol.Proofs.Session.Tiling
import FixProtocol.Session.Link

/-!
# What a session numbers

Whatever a session does, the frames that it numbers are kept under the numbers that they carry, and
the numbers follow each other without a hole. What is sent again is not numbered anew, and says so.
The counter has room for one number too many: after the greatest word it stands at zero, and then the
store keeps nothing more.

- `Level`: the store and the session go on with the same number, and all that is kept is below it.
- `Spent`: the frames that a session numbered and kept meanwhile, wherever its counter stood.
- `Wrote`: the same as long as the counter has not come to the end; then the numbers are those that
  it passed.
- `Stepped.spent`, `Stepped.wrote`: an operation that does not fail puts out what it numbered, and no
  other new frame.
-/

namespace FixProtocol

/-- The number that a direction goes on with. -/
def SequenceTracker.next (t : SequenceTracker) : Direction → SeqNum
  | .outbound => t.nextOutgoing
  | .inbound => t.expectedIncoming

namespace Journal

variable {j j' : Journal} {n : SeqNum} {frame : Bytes}

/-- A message that was kept while the counter has not come to the end has a number that has not
either. -/
theorem ne_top_of_append (h : j.append n frame = .ok j') (htop : j'.nextSeq < .top) : n ≠ .top := by
  intro heq
  rw [nextSeq_append h, heq] at htop
  exact absurd (SeqNum.le_max_right j.nextSeq _) (UInt64.not_le.mpr htop)

/-- Everything in a journal has a number above zero. -/
theorem ne_zero_of_mem {e : SeqNum × Bytes} (h : e ∈ j.entries) : e.1 ≠ 0 := by
  have hpos : 0 < e.1 := (List.pairwise_cons.mp j.ascending).1 e.1 (List.mem_map_of_mem h)
  intro heq
  rw [heq] at hpos
  exact absurd hpos (by decide)

/-- A message that was kept under the next number leaves the journal level. -/
theorem level_append (h : j.append n frame = .ok j') (hnext : j.nextSeq = n) (htop : n ≠ .top) :
    j'.nextSeq = n + 1 ∧ j'.last < n + 1 := by
  have hsucc : n.next = n + 1 := by rw [SeqNum.next, if_neg htop]
  have hlt : n < n + 1 := hsucc ▸ SeqNum.lt_next htop
  rw [nextSeq_append h, (last_append h).2, hnext, hsucc]
  refine ⟨?_, hlt⟩
  show (if n ≤ n + 1 then n + 1 else n) = n + 1
  rw [if_pos (UInt64.le_of_lt hlt)]

end Journal

namespace Session

variable {I : Inputs} {σ : Type} {s t u : Session MemoryStore} {r : Reaction}
  {written written' : List (SeqNum × Bytes)}

/-! ## New frames -/

/-- Is the frame new? What is sent again says that it may be a duplicate. -/
def isFresh (frame : Bytes) : Bool :=
  !(Wire.contents? frame).any Message.isPossDup

/-- The frame is new, and its message carries the number. -/
def Numbered (n : SeqNum) (frame : Bytes) : Prop :=
  ∃ m, Wire.contents? frame = some m ∧ m.seqNum? = some n ∧ m.isPossDup = false

theorem Numbered.isFresh {n : SeqNum} {frame : Bytes} (h : Numbered n frame) :
    isFresh frame = true := by
  obtain ⟨m, hm, _, hnew⟩ := h
  rw [Session.isFresh, hm, Option.any_some, hnew]
  rfl

/-- What a session numbers does not say that it may be a duplicate. -/
theorem Writes.find?_possDupFlag {T : MsgType → Prop} {type : MsgType} {body : List Field}
    (h : Writes T type body) : body.find? (·.tag = .possDupFlag) = none := by
  cases h with
  | heartbeat answer h =>
    cases answer with
    | none => rfl
    | some f =>
      have hf : f.tag = .testReqId := h f rfl
      rw [Option.toList_some, List.find?_cons_of_neg, List.find?_nil]
      rw [hf]
      decide
  | logout text =>
    cases text with
    | none => rfl
    | some text => rfl
  | application _ _ _ hcheck =>
    unfold checkSend at hcheck
    split at hcheck
    · cases hcheck
    · split at hcheck
      · cases hcheck
      · next hnone =>
        rw [List.find?_eq_none] at hnone ⊢
        intro f hf htag
        refine hnone f hf (decide_eq_true ?_)
        rw [of_decide_eq_true htag]
        decide
  | _ => rfl

/-- What a session numbers is new, and carries its number. -/
theorem numbered_header {s : Session σ} {T : MsgType → Prop} {type : MsgType} {body : List Field}
    {n : SeqNum} {time : Timestamp} {frame : Bytes} (h : Writes T type body)
    (hencode : Wire.encode (s.header type n time ++ body) = .ok frame) : Numbered n frame := by
  refine ⟨⟨s.header type n time ++ body⟩, Wire.contents?_of_encode hencode, seqNum?_header, ?_⟩
  have hnone : Message.get? ⟨s.header type n time ++ body⟩ .possDupFlag = none := by
    rw [get?_header (by decide)]
    exact h.find?_possDupFlag
  rw [Message.isPossDup, Message.bool?, Message.read?, hnone]
  rfl

/-- What answers a request is not new. -/
theorem isFresh_of_mem_sends {first last : SeqNum} {time : Timestamp} {frames : List Bytes}
    {frame : Bytes} (hlast : last < .top)
    (h : Sends s time (Resend.plan last first
      (Resend.readings s.config.beginString (s.store.outbound.range first last))) frames)
    (hframe : frame ∈ frames) : isFresh frame = false := by
  obtain ⟨item, hitem, hencode⟩ := exists_of_mem_mapM h hframe
  have hcarries := carries_answer (answers_of_mem_plan hlast hitem) hencode
  rw [isFresh, hcarries.contents, Option.any_some, isPossDup_resendMessage]
  rfl

/-! ## Numbers that follow each other -/

/-- The store and the session go on with the same number, and all that is kept is below it. -/
structure Level (d : Direction) (s : Session MemoryStore) : Prop where
  next : s.store.nextSeq d = s.sequences.next d
  last : (s.store.journal d).last < s.sequences.next d

/-- From `s` to `t` the session numbered the frames in `written` and kept them. -/
structure Wrote (s t : Session MemoryStore) (written : List (SeqNum × Bytes)) : Prop where
  entries : t.store.outbound.entries = s.store.outbound.entries ++ written
  numbered : ∀ e ∈ written, Numbered e.1 e.2
  le : s.sequences.nextOutgoing ≤ t.sequences.nextOutgoing
  numbers : written.map (·.1.toNat) =
    List.range' s.sequences.nextOutgoing.toNat
      (t.sequences.nextOutgoing.toNat - s.sequences.nextOutgoing.toNat)

theorem Wrote.trans (h : Wrote s t written) (h' : Wrote t u written') :
    Wrote s u (written ++ written') where
  entries := by rw [h'.entries, h.entries, List.append_assoc]
  numbered := by
    intro e he
    rcases List.mem_append.mp he with he | he
    · exact h.numbered e he
    · exact h'.numbered e he
  le := UInt64.le_trans h.le h'.le
  numbers := by
    have hle := UInt64.le_iff_toNat_le.mp h.le
    have hle' := UInt64.le_iff_toNat_le.mp h'.le
    have hstart : t.sequences.nextOutgoing.toNat = s.sequences.nextOutgoing.toNat +
        1 * (t.sequences.nextOutgoing.toNat - s.sequences.nextOutgoing.toNat) := by omega
    rw [List.map_append, h.numbers, h'.numbers]
    nth_rewrite 2 [hstart]
    rw [List.range'_append]
    congr 1
    omega

/-- What leaves the outbound side alone writes nothing. -/
theorem Wrote.nothing (hstore : t.store.outbound = s.store.outbound)
    (hnext : t.sequences.nextOutgoing = s.sequences.nextOutgoing) : Wrote s t [] where
  entries := by rw [hstore, List.append_nil]
  numbered := nofun
  le := UInt64.le_of_eq hnext.symm
  numbers := by
    rw [hnext, Nat.sub_self]
    rfl

theorem Level.same {d : Direction} (h : Level d s) (hstore : t.store.journal d = s.store.journal d)
    (hnext : t.sequences.next d = s.sequences.next d) : Level d t where
  next := by
    rw [MemoryStore.nextSeq, hstore, hnext]
    exact h.next
  last := by
    rw [hstore, hnext]
    exact h.last

/-! ## Numbers that are used -/

/-- From `s` to `t` the session used up the numbers of the frames in `written` and kept them,
wherever the counter stood. After the greatest word it stands at zero. -/
structure Spent (s t : Session MemoryStore) (written : List (SeqNum × Bytes)) : Prop where
  entries : t.store.outbound.entries = s.store.outbound.entries ++ written
  numbered : ∀ e ∈ written, Numbered e.1 e.2
  numbers : written.map (·.1.toNat) =
    List.range' s.sequences.nextOutgoing.toNat written.length
  next : t.sequences.nextOutgoing.toNat =
    (s.sequences.nextOutgoing.toNat + written.length) % 2 ^ 64
  counter : s.store.outbound.nextSeq ≤ t.store.outbound.nextSeq
  passed : ∀ e ∈ written, e.1.next ≤ t.store.outbound.nextSeq

/-- The numbers that were used are words. -/
theorem Spent.bound (h : Spent s t written) :
    s.sequences.nextOutgoing.toNat + written.length ≤ 2 ^ 64 := by
  have hstart := s.sequences.nextOutgoing.toNat_lt
  rcases Nat.eq_zero_or_pos written.length with hnone | hpos
  · omega
  · have hlast : s.sequences.nextOutgoing.toNat + (written.length - 1) ∈
        written.map (·.1.toNat) := by
      rw [h.numbers, List.mem_range'_1]
      omega
    obtain ⟨e, _, heq⟩ := List.mem_map.mp hlast
    have := e.1.toNat_lt
    omega

/-- After the greatest word nothing more is kept: the store refuses zero. -/
theorem Spent.eq_nil (h : Spent s t written) (hzero : s.sequences.nextOutgoing = 0) :
    written = [] := by
  cases written with
  | nil => rfl
  | cons e rest =>
    have hhead : e.1.toNat = s.sequences.nextOutgoing.toNat := (List.cons.inj h.numbers).1
    have he : e ∈ t.store.outbound.entries := by
      rw [h.entries]
      exact List.mem_append_right _ (List.mem_cons_self ..)
    exact absurd (UInt64.toNat_inj.mp (hhead.trans (congrArg _ hzero))) (Journal.ne_zero_of_mem he)

theorem Spent.trans (h : Spent s t written) (h' : Spent t u written') :
    Spent s u (written ++ written') := by
  have hbound := h.bound
  -- What is written after the counter has wrapped is nothing, so the numbers go on where they
  -- stopped.
  have hgoes : written' = [] ∨
      t.sequences.nextOutgoing.toNat = s.sequences.nextOutgoing.toNat + written.length := by
    by_cases hfull : s.sequences.nextOutgoing.toNat + written.length = 2 ^ 64
    · refine .inl (h'.eq_nil (UInt64.toNat_inj.mp ?_))
      rw [h.next, hfull]
      rfl
    · exact .inr (h.next.trans (Nat.mod_eq_of_lt (by omega)))
  refine ⟨?_, ?_, ?_, ?_, UInt64.le_trans h.counter h'.counter, ?_⟩
  · rw [h'.entries, h.entries, List.append_assoc]
  · exact List.forall_mem_append.mpr ⟨h.numbered, h'.numbered⟩
  · rw [List.map_append, List.length_append, h.numbers, h'.numbers, ← List.range'_append_1]
    rcases hgoes with rfl | heq
    · rfl
    · rw [heq]
  · rw [h'.next, h.next, List.length_append, Nat.mod_add_mod, Nat.add_assoc]
  · refine List.forall_mem_append.mpr ⟨fun e he => ?_, h'.passed⟩
    exact UInt64.le_trans (h.passed e he) h'.counter

/-- What leaves the outbound side alone uses no number. -/
theorem Spent.nothing (hstore : t.store.outbound = s.store.outbound)
    (hnext : t.sequences.nextOutgoing = s.sequences.nextOutgoing) : Spent s t [] where
  entries := by rw [hstore, List.append_nil]
  numbered := nofun
  numbers := rfl
  next := by
    rw [hnext]
    exact (Nat.mod_eq_of_lt s.sequences.nextOutgoing.toNat_lt).symm
  counter := UInt64.le_of_eq (congrArg Journal.nextSeq hstore.symm)
  passed := nofun

/-- As long as the greatest word was not used, the numbers that were used end below the counter. -/
theorem Spent.toNat_next (h : Spent s t written) (htop : ∀ e ∈ written, e.1 ≠ .top) :
    t.sequences.nextOutgoing.toNat = s.sequences.nextOutgoing.toNat + written.length := by
  have hbound := h.bound
  rw [h.next, Nat.mod_eq_of_lt (Nat.lt_of_le_of_ne hbound fun hfull => ?_)]
  have hstart := s.sequences.nextOutgoing.toNat_lt
  have hlast : 2 ^ 64 - 1 ∈ written.map (·.1.toNat) := by
    rw [h.numbers, List.mem_range'_1]
    omega
  obtain ⟨e, he, heq⟩ := List.mem_map.mp hlast
  exact htop e he (UInt64.toNat_inj.mp heq)

theorem Spent.wrote (h : Spent s t written) (htop : ∀ e ∈ written, e.1 ≠ .top) :
    Wrote s t written := by
  have hnext := h.toNat_next htop
  refine ⟨h.entries, h.numbered, UInt64.le_iff_toNat_le.mpr (by omega), ?_⟩
  rw [h.numbers, hnext, Nat.add_sub_cancel_left]

/-- Numbers below the end of the range leave the journal below the counter. -/
theorem Spent.last_lt (h : Spent s t written) (htop : ∀ e ∈ written, e.1 ≠ .top)
    (hbelow : s.store.outbound.last < s.sequences.nextOutgoing) :
    t.store.outbound.last < t.sequences.nextOutgoing := by
  have hnext := h.toNat_next htop
  have hle : s.sequences.nextOutgoing ≤ t.sequences.nextOutgoing :=
    UInt64.le_iff_toNat_le.mpr (by omega)
  have hfirst : .first ≤ s.sequences.nextOutgoing := by grind
  refine (Journal.last_lt_iff (UInt64.le_trans hfirst hle)).mpr fun e he => ?_
  rw [h.entries] at he
  rcases List.mem_append.mp he with he | he
  · exact UInt64.lt_of_lt_of_le ((Journal.last_lt_iff hfirst).mp hbelow e he) hle
  · have hmem : e.1.toNat ∈ written.map (·.1.toNat) := List.mem_map_of_mem he
    rw [h.numbers, List.mem_range'_1] at hmem
    exact UInt64.lt_iff_toNat_lt.mpr (by omega)

/-- As long as the counter of the store has not come to the end, the greatest word was not used. -/
theorem Spent.ne_top (h : Spent s t written) (htop : t.store.outbound.nextSeq < .top) :
    ∀ e ∈ written, e.1 ≠ .top := by
  intro e he heq
  have hle := h.passed e he
  rw [heq] at hle
  exact absurd hle (UInt64.not_le.mpr htop)

/-- A move puts out what it numbers, and no other new frame. -/
theorem Move.spent (h : Move I s r t) :
    ∃ written, Spent s t written ∧ r.outbound.filter isFresh = written.map Prod.snd := by
  cases h with
  | @write type body now frame store hwrites hencode hstore =>
    obtain ⟨j, hj, rfl⟩ := MemoryStore.append_eq_ok hstore
    have hj : s.store.outbound.append s.sequences.nextOutgoing frame = .ok j := hj
    have hnew : Numbered s.sequences.nextOutgoing frame := numbered_header hwrites hencode
    refine ⟨[(s.sequences.nextOutgoing, frame)], ⟨Journal.entries_append hj,
      List.forall_mem_singleton.mpr hnew, rfl, ?_, ?_, List.forall_mem_singleton.mpr ?_⟩,
      List.filter_cons_of_pos hnew.isFresh⟩
    · exact UInt64.toNat_add s.sequences.nextOutgoing 1
    · show _ ≤ j.nextSeq
      rw [Journal.nextSeq_append hj]
      exact SeqNum.le_max_left _ _
    · show _ ≤ j.nextSeq
      rw [Journal.nextSeq_append hj]
      exact SeqNum.le_max_right _ _
  | @serve first last now stored store frames _ _ hlast hrange hframes =>
    obtain ⟨hstored, rfl⟩ := MemoryStore.range_eq hrange
    cases hstored
    have hlast : last < .top := SeqNum.lt_top_of_ne (SeqNum.ne_top_of_le_previous hlast)
    refine ⟨[], .nothing rfl rfl, List.filter_eq_nil_iff.mpr fun frame hframe => ?_⟩
    exact Bool.eq_false_iff.mp (isFresh_of_mem_sends hlast hframes hframe)
  | take _ _ hstore => exact ⟨[], .nothing (outbound_of_append_inbound hstore) rfl, rfl⟩
  | keepLogon _ _ _ hstore => exact ⟨[], .nothing (outbound_of_append_inbound hstore) rfl, rfl⟩
  | _ => exact ⟨[], .nothing rfl rfl, rfl⟩

theorem Moves.spent (h : Moves I s r t) :
    ∃ written, Spent s t written ∧ r.outbound.filter isFresh = written.map Prod.snd := by
  induction h with
  | refl s => exact ⟨[], .nothing rfl rfl, rfl⟩
  | cons head _ ih =>
    obtain ⟨written, hspent, hfresh⟩ := head.spent
    obtain ⟨written', hspent', hfresh'⟩ := ih
    refine ⟨written ++ written', hspent.trans hspent', ?_⟩
    rw [Reaction.outbound_append, List.filter_append, hfresh, hfresh', List.map_append]

/-- The outbound counter of the store never falls. -/
theorem Moves.nextSeq_le (h : Moves I s r t) :
    s.store.outbound.nextSeq ≤ t.store.outbound.nextSeq := by
  obtain ⟨_, hspent, _⟩ := h.spent
  exact hspent.counter

/-- A move leaves the store level with the session. -/
theorem Level.move (hs : Level .outbound s) (h : Move I s r t)
    (htop : t.store.outbound.nextSeq < .top) : Level .outbound t := by
  rcases h.outbound_cases with ⟨hstore, hnext⟩ | ⟨_, _, now, frame, j, _, _, hj, rfl⟩
  · exact hs.same hstore hnext
  · obtain ⟨hnext, hlast⟩ := Journal.level_append hj hs.next (Journal.ne_top_of_append hj htop)
    exact ⟨hnext, hlast⟩

theorem Level.moves (hs : Level .outbound s) (h : Moves I s r t)
    (htop : t.store.outbound.nextSeq < .top) : Level .outbound t := by
  induction h with
  | refl s => exact hs
  | cons head tail ih =>
    exact ih (hs.move head (UInt64.lt_of_le_of_lt tail.nextSeq_le htop)) htop

/-! ## Operations -/

/-- Did the operation answer? -/
def Outcome.succeeded : Outcome → Bool
  | .sent (.error _) => false
  | .reacted (.error _) => false
  | _ => true

/-- What an operation wrote, beside its outcome: one that answered put out just that, and a message
that was refused was not written. What a call wrote before it failed is not put out. -/
structure Accounts (o : Outcome) (written : List (SeqNum × Bytes)) : Prop where
  answered : o.succeeded = true → o.frames.filter isFresh = written.map Prod.snd
  refused : ∀ e, o = .sent (.error e) → written = []

/-- An operation that does not fail puts out what it numbered, and no other new frame. -/
theorem Stepped.spent {o : Outcome} (h : Stepped I s o t) :
    ∃ written, Spent s t written ∧ Accounts o written := by
  cases h with
  | sent h | reacted h | closed h =>
    obtain ⟨written, hspent, hfresh⟩ := h.spent
    exact ⟨written, hspent, fun _ => hfresh, nofun⟩
  | refused h =>
    obtain rfl := h.eq
    exact ⟨[], .nothing rfl rfl, nofun, fun _ _ => rfl⟩
  | @failed _ u h now =>
    obtain ⟨_, v, hmoves, hfault⟩ := h
    obtain ⟨hstore, hnext⟩ := hfault.outbound_eq
    obtain ⟨written, hspent, _⟩ := hmoves.spent
    have hafter : Spent v (u.terminate now) [] := .nothing hstore hnext
    have hspent := hspent.trans hafter
    rw [List.append_nil] at hspent
    exact ⟨written, hspent, nofun, nofun⟩

theorem Stepped.nextSeq_le {o : Outcome} (h : Stepped I s o t) :
    s.store.outbound.nextSeq ≤ t.store.outbound.nextSeq := by
  obtain ⟨_, hspent, _⟩ := h.spent
  exact hspent.counter

/-- An operation leaves the store level with the session. -/
theorem Level.stepped {o : Outcome} (hs : Level .outbound s) (h : Stepped I s o t)
    (htop : t.store.outbound.nextSeq < .top) : Level .outbound t := by
  cases h with
  | sent h => exact hs.moves h htop
  | refused h =>
    obtain rfl := h.eq
    exact hs
  | reacted h => exact hs.moves h htop
  | @failed _ u h now =>
    obtain ⟨_, v, hmoves, hfault⟩ := h
    obtain ⟨hstore, hnext⟩ := hfault.outbound_eq
    have htop : v.store.outbound.nextSeq < .top := hstore ▸ htop
    exact (hs.moves hmoves htop).same hstore hnext
  | closed h => exact hs.moves h htop

/-- An operation numbers and keeps what it writes. -/
theorem Stepped.wrote {o : Outcome} (h : Stepped I s o t)
    (hbelow : s.store.outbound.last < s.sequences.nextOutgoing)
    (htop : t.store.outbound.nextSeq < .top) :
    ∃ written, Wrote s t written ∧ Accounts o written ∧
      t.store.outbound.last < t.sequences.nextOutgoing := by
  obtain ⟨written, hspent, haccounts⟩ := h.spent
  have hne := hspent.ne_top htop
  exact ⟨written, hspent.wrote hne, haccounts, hspent.last_lt hne hbelow⟩

end Session

end FixProtocol
