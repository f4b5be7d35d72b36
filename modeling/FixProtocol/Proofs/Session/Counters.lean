import FixProtocol.Proofs.Session.Numbering

/-!
# What a session receives

The expected number and the inbound counter of the store move together. Most calls leave both alone;
those that take a message move both by one, and a sequence reset sets both. Within a logon the two
differ for a moment, and nothing can fail then.

- `Still`: what was received is the same as before.
- `Leaves`: a call that receives nothing, however it ends.
- `Renumbers`: what a message that was taken does to both counters.
- `Levels`: a call that leaves the store level with the session, however it ends.
- `levels_step`: every operation does.
-/

namespace FixProtocol.Session

open Call

variable {α β : Type} {I : Inputs} {s t u : Session MemoryStore} {n : SeqNum} {p : Parked}

/-- From `s` to `t` nothing was received. -/
structure Still (s t : Session MemoryStore) : Prop where
  store : t.store.inbound = s.store.inbound
  expected : t.sequences.expectedIncoming = s.sequences.expectedIncoming

theorem Still.refl (s : Session MemoryStore) : Still s s :=
  ⟨rfl, rfl⟩

theorem Still.trans (h : Still s t) (h' : Still t u) : Still s u :=
  ⟨h'.store.trans h.store, h'.expected.trans h.expected⟩

theorem Still.level (h : Still s t) (hs : Level .inbound s) : Level .inbound t :=
  hs.same h.store h.expected

/-! ## Calls that receive nothing -/

/-- However the call ends, it has received nothing. -/
def Leaves (c : Call MemoryStore α) (s : Session MemoryStore) : Prop :=
  Ends c s (fun _ t => Still s t) (fun _ t => Still s t)

theorem Leaves.after {c : Call MemoryStore α} (h : Leaves c t) (hst : Still s t) :
    Ends c t (fun _ u => Still s u) (fun _ u => Still s u) :=
  h.mono (fun _ _ => hst.trans) (fun _ _ => hst.trans)

theorem leaves_emit (type : MsgType) (body : List Field) (now : Moment) :
    Leaves (emit type body now) s := by
  refine ends_emit.mpr ⟨fun frame _ => ⟨fun store hstore => ?_, fun e store hstore => ?_⟩,
    fun _ _ => .refl s⟩
  · exact ⟨inbound_of_append_outbound hstore, rfl⟩
  · cases MemoryStore.append_eq_error hstore
    exact .refl s

theorem leaves_requestResend (first last : SeqNum) (now : Moment) :
    Leaves (requestResend first last now) s :=
  ends_requestResend.mpr ((leaves_emit ..).imp fun _ _ h => h.trans ⟨rfl, rfl⟩)

theorem Serves.still {r : Reaction} {now : Moment} (h : Serves now s r t) : Still s t := by
  cases h with
  | nothing => exact .refl s
  | again _ _ _ hrange _ =>
    obtain ⟨_, rfl⟩ := MemoryStore.range_eq hrange
    exact ⟨rfl, rfl⟩

theorem Unserved.still {e : Error} (h : Unserved s e t) : Still s t := by
  cases h with
  | unclear => exact .refl s
  | unread hrange | unwritten hrange =>
    cases (MemoryStore.range_eq hrange).2
    exact .refl s

theorem leaves_serveResend (m : Message) (now : Moment) : Leaves (serveResend m now) s :=
  (ends_serveResend_serves m now).mono (fun _ _ h => h.still) (fun _ _ h => h.still)

theorem leaves_onLogout (now : Moment) : Leaves (onLogout now) s :=
  ends_onLogout (fun _ => ⟨rfl, rfl⟩) fun _ =>
    (leaves_emit ..).imp fun _ _ h => h.trans ⟨rfl, rfl⟩

theorem leaves_closeGap (now : Moment) : Leaves (closeGap now) s :=
  ends_closeGap (fun _ => ⟨rfl, rfl⟩) fun _ _ _ _ => (leaves_requestResend ..).after ⟨rfl, rfl⟩

theorem leaves_establish (seconds : Nat) (now : Moment) : Leaves (establish seconds now) s :=
  ends_establish (fun _ => ⟨rfl, rfl⟩) fun _ =>
    (leaves_emit ..).imp fun _ _ h => h.trans ⟨rfl, rfl⟩

theorem leaves_keepAlive (now : Moment) : Leaves (keepAlive now) s :=
  ends_keepAlive (fun _ => ⟨rfl, rfl⟩) (fun _ => (leaves_emit ..).after ⟨rfl, rfl⟩)
    (fun _ _ => (leaves_emit ..).after ⟨rfl, rfl⟩) (fun _ _ => ⟨rfl, rfl⟩)

theorem leaves_retryResend (now : Moment) : Leaves (retryResend now) s :=
  ends_retryResend (fun _ => ⟨rfl, rfl⟩) (fun _ _ _ => (leaves_emit ..).after ⟨rfl, rfl⟩)
    (fun _ _ => ⟨rfl, rfl⟩)

theorem leaves_tick (now : Moment) : Leaves (tick now) s :=
  ends_tick (fun _ => .refl s) (fun _ _ _ => .refl s) (fun _ _ _ => ⟨rfl, rfl⟩) fun _ _ =>
    (leaves_keepAlive now).imp fun _ _ hst => (leaves_retryResend now).after hst

theorem leaves_logon (now : Moment) : Leaves (logon now) s :=
  ends_logon (fun _ _ _ => .refl s) fun _ _ _ =>
    (leaves_emit ..).imp fun _ _ h => h.trans ⟨rfl, rfl⟩

theorem leaves_send (type : MsgType) (fields : List Field) (now : Moment) :
    Leaves (send type fields now) s :=
  ends_send (fun _ _ _ => .refl s) fun _ _ _ => leaves_emit ..

theorem leaves_logout (text : Option String) (now : Moment) : Leaves (logout text now) s :=
  ends_logout (fun _ _ _ => .refl s) fun _ _ =>
    (leaves_emit ..).imp fun _ _ h => h.trans ⟨rfl, rfl⟩

/-! ## Calls that take messages -/

/-- From `s` to `t` nothing was received, or a sequence reset has set both counters to a number that
was not passed yet. -/
inductive Renumbers (s t : Session MemoryStore) : Prop
  | still (h : Still s t)
  | reset {number : SeqNum} (hle : s.sequences.expectedIncoming ≤ number)
      (hstore : t.store.inbound = s.store.inbound.setNextSeq number)
      (hexpected : t.sequences.expectedIncoming = number)

theorem ends_applySequenceReset_renumbers (m : Message) :
    Ends (applySequenceReset m) s (fun _ t => Renumbers s t) (fun _ t => Still s t) :=
  ends_applySequenceReset (fun _ => .refl s) (fun _ _ _ => .refl s)
    fun _ _ hle => .reset hle rfl rfl

/-- What a message asks for changes the counters only if it is a sequence reset. -/
theorem ends_dispatch_renumbers (m : Message) (replaying : Bool) (now : Moment) :
    Ends (dispatch m replaying now) s (fun _ t => Renumbers s t) (fun _ t => Still s t) := by
  refine ends_dispatch ?heartbeat ?testRequest ?resendRequest ?sequenceReset ?logout ?logon
    ?application
  case heartbeat => exact fun _ => .still ⟨rfl, rfl⟩
  case testRequest => exact fun _ => (leaves_emit ..).imp fun _ _ => .still
  case resendRequest => exact fun _ => (leaves_serveResend m now).imp fun _ _ => .still
  case sequenceReset => exact fun _ => ends_applySequenceReset_renumbers m
  case logout => exact fun _ => (leaves_onLogout now).imp fun _ _ => .still
  case logon => exact fun _ => ⟨fun _ => .still (.refl s), fun _ => .refl s⟩
  case application => exact fun _ => .still (.refl s)

/-- However the call ends, the inbound side of the store is level with the session. -/
def Levels (c : Call MemoryStore α) (s : Session MemoryStore) : Prop :=
  Ends c s (fun _ t => Level .inbound t) (fun _ t => Level .inbound t)

theorem Leaves.levels {c : Call MemoryStore α} (h : Leaves c s) (hs : Level .inbound s) :
    Levels c s :=
  h.mono (fun _ _ hst => hst.level hs) (fun _ _ hst => hst.level hs)

theorem Level.renumbers (hs : Level .inbound s) (h : Renumbers s t) : Level .inbound t := by
  cases h with
  | still h => exact h.level hs
  | @reset number hle hstore hexpected =>
    constructor
    · show t.store.inbound.nextSeq = t.sequences.expectedIncoming
      rw [hstore, hexpected]
      rfl
    · show t.store.inbound.last < t.sequences.expectedIncoming
      rw [hstore, hexpected]
      exact UInt64.lt_of_lt_of_le hs.last hle

theorem levels_applySequenceReset (hs : Level .inbound s) (m : Message) :
    Levels (applySequenceReset m) s :=
  (ends_applySequenceReset_renumbers m).mono (fun _ _ => hs.renumbers) (fun _ _ h => h.level hs)

theorem levels_dispatch (hs : Level .inbound s) (m : Message) (replaying : Bool) (now : Moment) :
    Levels (dispatch m replaying now) s :=
  (ends_dispatch_renumbers m replaying now).mono (fun _ _ => hs.renumbers)
    (fun _ _ h => h.level hs)

/-- The session after the store kept the message with the expected number. -/
theorem Level.keep {j : Journal} {frame : Bytes} (hs : Level .inbound s)
    (hn : n = s.sequences.expectedIncoming) (hvalid : n.isValid = true)
    (hj : s.store.inbound.append n frame = .ok j)
    (hinbound : t.store.inbound = j) (hexpected : t.sequences.expectedIncoming = n + 1) :
    Level .inbound t := by
  obtain ⟨hnext, hlast⟩ := Journal.level_append hj (hs.next.trans hn.symm)
    (SeqNum.ne_top_of_isValid hvalid)
  refine ⟨?_, ?_⟩
  · show t.store.inbound.nextSeq = t.sequences.expectedIncoming
    rw [hinbound, hexpected, hnext]
  · show t.store.inbound.last < t.sequences.expectedIncoming
    rw [hinbound, hexpected]
    exact hlast

/-- A message with the expected number is counted, kept, and dealt with. -/
theorem levels_accept (hs : Level .inbound s) (hn : n = s.sequences.expectedIncoming)
    (hvalid : n.isValid = true) (p : Parked) (replaying : Bool) (now : Moment) :
    Levels (accept n p replaying now) (s.counted n) := by
  have hlast : s.store.inbound.last < n := hn ▸ hs.last
  obtain ⟨j, hj, hstore⟩ :=
    MemoryStore.append_of_lt (d := .inbound) (s := s.store) hlast p.frame
  exact ends_accept_ok hstore
    (levels_dispatch (hs.keep hn hvalid hj rfl rfl) p.message replaying now)

theorem levels_drain (hsound : Sound I s) (hs : Level .inbound s) (now : Moment) :
    Levels (drain now) s := by
  refine ends_drain_keeps (P := fun _ t => Level .inbound t)
    (ends_replay_sound (fun _ ht => ht.same rfl rfl) ?_ hsound hs _) ?_
  · intro _ t p _ _ ht hp
    exact levels_accept (s := t.released) (ht.same rfl rfl) rfl hp.valid p true now
  · exact fun _ ht => (leaves_closeGap now).levels ht

theorem levels_onNumbered (hsound : Sound I s) (hs : Level .inbound s)
    (hp : Genuine I s.config n p) (now : Moment) : Levels (onNumbered n p now) s := by
  refine ends_onNumbered hp.valid (fun _ => hs) (fun heq => ?_)
    (fun _ recovery _ => ⟨fun _ => hs.same rfl rfl, fun _ => ?_⟩) fun _ _ _ => hs
  · exact (hsound.accept hp heq (levels_accept hs heq hp.valid p false now)).imp
      fun _ _ ht => levels_drain ht.2 ht.1 now
  · exact (leaves_requestResend ..).levels (hs.same rfl rfl)

/-! ## Logging on -/

/-- Nothing fails between the counting of a logon and its keeping: the answer can be written. -/
theorem ends_establish_ok (hc : Speakable s.config)
    (hlast : s.store.outbound.last < s.sequences.nextOutgoing) (seconds : Nat) (now : Moment) :
    Ends (establish seconds now) s (fun _ t => Still s t) (fun _ _ => False) := by
  refine ends_establish (fun _ => ⟨rfl, rfl⟩) fun _ =>
    (ends_emit_ok hc (Field.writable_msgType rfl) (isBody_logon seconds) hlast now).imp ?_
  rintro frame _ ⟨_, j, _, rfl⟩
  exact ⟨rfl, rfl⟩

theorem levels_onLogonPhase (hs : Level .inbound s) (hc : Speakable s.config)
    (hout : s.store.outbound.last < s.sequences.nextOutgoing) (hvalid : n.isValid = true)
    (p : Parked) (now : Moment) : Levels (onLogonPhase n p now) s := by
  refine ends_onLogonPhase hvalid (fun _ _ _ => hs) (fun seconds _ _ heq => ?_)
    fun seconds _ _ _ => ?_
  · refine (ends_establish_ok (s := s.counted n) hc hout seconds now).mono ?_
      (fun _ _ h => h.elim)
    intro r t hst
    have hlast : t.store.inbound.last < n := by
      rw [hst.store, heq]
      exact hs.last
    obtain ⟨j, hj, hstore⟩ :=
      MemoryStore.append_of_lt (d := .inbound) (s := t.store) hlast p.frame
    rw [ends_append_ok hstore]
    have hj : s.store.inbound.append n p.frame = .ok j := by
      rw [← hj]
      exact congrArg (·.append n p.frame) hst.store.symm
    exact hs.keep heq hvalid hj rfl hst.expected
  · refine ((leaves_establish seconds now).levels hs).imp fun _ t ht =>
      ends_park.mpr ⟨fun _ _ => ?_, fun _ _ => ht⟩
    exact (leaves_requestResend ..).levels (ht.same rfl rfl)

/-! ## Operations -/

theorem levels_process (hsound : Sound .any s) (hs : Level .inbound s) (hc : Speakable s.config)
    (hout : s.store.outbound.last < s.sequences.nextOutgoing) (frame : Bytes) (now : Moment) :
    Levels (process frame now) s := by
  have hheard : Level .inbound (s.heard now) := hs.same rfl rfl
  refine ends_process (I := .any) trivial ?refused ?early ?reset ?numbered
  case refused =>
    rintro _ _ _ (rfl | rfl) _
    · exact hs
    · exact hheard
  case early => exact fun _ _ _ _ hp => levels_onLogonPhase hheard hc hout hp.valid _ now
  case reset =>
    intro _ _ n m hp hplain
    exact (Sound.reset (s := s.heard now) (p := ⟨m, frame⟩) hsound hp hplain
      (levels_applySequenceReset hheard m)).imp fun _ _ ht => levels_drain ht.2 ht.1 now
  case numbered =>
    exact fun _ _ _ _ hp _ => levels_onNumbered (s := s.heard now) hsound hheard hp now

theorem Levels.run {c : Call MemoryStore α} (h : Levels c s) : Level .inbound (c.run s).2 := by
  unfold Levels Ends at h
  unfold Call.run
  cases heq : c s with
  | ok a t =>
    rw [heq] at h
    exact h
  | error e t =>
    rw [heq] at h
    exact h

theorem Levels.settle {c : Call MemoryStore Reaction} (h : Levels c s) (now : Moment) :
    Level .inbound (c.settle s now).2 := by
  unfold Levels Ends at h
  unfold Call.settle
  cases heq : c s with
  | ok r t =>
    rw [heq] at h
    exact h
  | error e t =>
    rw [heq] at h
    exact h.same rfl rfl

/-- Whatever the operation, the inbound side of the store stays level with the session. -/
theorem levels_step (hsound : Sound .any s) (hs : Level .inbound s) (hc : Speakable s.config)
    (hout : s.store.outbound.last < s.sequences.nextOutgoing) (op : Operation) :
    Level .inbound (s.step op).2 := by
  cases op with
  | logon now => exact ((leaves_logon now).levels hs).run
  | send type fields now => exact ((leaves_send type fields now).levels hs).run
  | logout text now => exact ((leaves_logout text now).levels hs).run
  | receive frame now => exact (levels_process hsound hs hc hout frame now).settle now
  | timer now => exact ((leaves_tick now).levels hs).settle now
  | disconnect now =>
    show Level .inbound (s.disconnect now)
    unfold disconnect
    split
    · exact hs
    · exact hs.same rfl rfl

end FixProtocol.Session
