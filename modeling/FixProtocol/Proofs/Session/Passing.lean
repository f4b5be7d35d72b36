import FixProtocol.Proofs.Session.Calls
import FixProtocol.Proofs.Session.Checked
import FixProtocol.Proofs.Session.Delivery
import FixProtocol.Proofs.Session.Idle

/-!
# Every check holds

Over a store in memory, no check of a session ever stops it, whatever numbers the store begins with
and whatever arrives. Each check relies on something that was established elsewhere: a received
number was looked at when its message came, and a parked one before it was parked; a resend request
is answered only up to the last number sent, which has a successor; and a state is entered only where
the one before was looked at.

- `Checked.Passes`: every check of a call holds, so that it does what the call does without them.
- `Checked.passes_process`, `Checked.passes_tick`, and one such lemma for each call.
- `run_passes_checks`: every run does the same with checks as without.
-/

namespace FixProtocol.Session

namespace Checked

section
variable {σ α β : Type} {s : Session σ}

/-- Every check of a call holds: it does what the call does without them. -/
def Passes (g : Checked σ α) (c : Call σ α) (s : Session σ) : Prop :=
  g s = plain c s

/-! ## How checks pass -/

theorem passes_plain (c : Call σ α) : Passes (plain c) c s :=
  rfl

theorem Passes.bind {g : Checked σ β} {c : Call σ β} {k : β → Checked σ α} {k' : β → Call σ α}
    {E : Error → Session σ → Prop} (h : Passes g c s)
    (hk : Ends c s (fun b t => Passes (k b) (k' b) t) E) : Passes (g >>= k) (c >>= k') s := by
  unfold Passes plain at h
  unfold Ends at hk
  show EStateM.bind g k s = plain (EStateM.bind c k') s
  cases hc : c s with
  | ok b t =>
    rw [hc] at h hk
    simp only [EStateM.bind, plain, h, hc]
    exact hk
  | error e t =>
    rw [hc] at h
    simp only [EStateM.bind, plain, h, hc]

theorem Passes.map {g : Checked σ β} {c : Call σ β} (h : Passes g c s) (f : β → α) :
    Passes (f <$> g) (f <$> c) s := by
  unfold Passes plain at h
  show EStateM.map f g s = plain (EStateM.map f c) s
  cases hc : c s with
  | ok b t =>
    rw [hc] at h
    simp only [EStateM.map, plain, h, hc]
  | error e t =>
    rw [hc] at h
    simp only [EStateM.map, plain, h, hc]

/-- What a call goes on with need not know what the call has done. -/
theorem Passes.seq {g : Checked σ β} {c : Call σ β} {k : β → Checked σ α} {k' : β → Call σ α}
    (h : Passes g c s) (hk : ∀ b t, Passes (k b) (k' b) t) : Passes (g >>= k) (c >>= k') s := by
  refine h.bind (E := fun _ _ => True) ?_
  unfold Ends
  split
  · exact hk _ _
  · trivial

/-- A computation that only checks goes on with its answer. -/
theorem Passes.pure_bind {g : Checked σ β} {b : β} {k : β → Checked σ α} {c : Call σ α}
    (h : Passes g (pure b) s) (hk : Passes (k b) c s) : Passes (g >>= k) c s := by
  have h : g s = .ok b s := h
  show EStateM.bind g k s = plain c s
  unfold EStateM.bind
  rw [h]
  exact hk

/-- A computation that does not touch the session goes on with its answer. -/
theorem passes_ofExcept {ε : Type} {wrap : ε → Error} {x : Except ε β} {k : β → Checked σ α}
    {k' : β → Call σ α} (hk : ∀ b, x = .ok b → Passes (k b) (k' b) s) :
    Passes (plain (Call.ofExcept wrap x) >>= k) (Call.ofExcept wrap x >>= k') s := by
  refine (passes_plain _).bind (E := fun _ _ => True) ?_
  rw [Call.ends_ofExcept]
  exact ⟨hk, fun _ _ => trivial⟩

/-- A call on the store goes on with its answer and what it left behind. -/
theorem passes_onStore {f : σ → Except StoreError β × σ} {k : β → Checked σ α} {k' : β → Call σ α}
    (hk : ∀ b store, f s.store = (.ok b, store) → Passes (k b) (k' b) { s with store }) :
    Passes (plain (Call.onStore f) >>= k) (Call.onStore f >>= k') s := by
  refine (passes_plain _).bind (E := fun _ _ => True) ?_
  rw [Call.ends_onStore]
  exact ⟨hk, fun _ _ _ => trivial⟩

/-- A number that is not the greatest word has a successor. -/
theorem passes_plus_one {n : SeqNum} {k : SeqNum → Checked σ α} {c : Call σ α} (h : n ≠ .top)
    (hk : Passes (k (n + 1)) c s) : Passes (plus n 1 >>= k) c s := by
  have hword : n.toNat + 1 < UInt64.size := by
    rw [← SeqNum.toNat_succ h]
    exact UInt64.toNat_lt_size (n + 1)
  unfold plus
  rw [if_pos (show n.toNat + (1 : SeqNum).toNat < UInt64.size from hword)]
  exact hk

theorem passes_minus_one {n : SeqNum} {k : SeqNum → Checked σ α} {c : Call σ α}
    (h : .first ≤ n) (hk : Passes (k (n - 1)) c s) : Passes (minus n 1 >>= k) c s := by
  unfold minus
  rw [if_pos (UInt64.le_iff_toNat_le.mp h)]
  exact hk

theorem passes_ensure {holds : Bool} {k : Unit → Checked σ α} {c : Call σ α} (h : holds = true)
    (hk : Passes (k ()) c s) : Passes (ensure holds >>= k) c s := by
  unfold ensure
  rw [if_pos h]
  exact hk

theorem passes_pure (a : α) : Passes (pure a) (pure a) s :=
  rfl

theorem passes_get {k : Session σ → Checked σ α} {k' : Session σ → Call σ α} :
    Passes (get >>= k) (get >>= k') s ↔ Passes (k s) (k' s) s :=
  Iff.rfl

theorem passes_set {t : Session σ} {k : PUnit → Checked σ α} {k' : PUnit → Call σ α} :
    Passes (set t >>= k) (set t >>= k') s ↔ Passes (k ⟨⟩) (k' ⟨⟩) t :=
  Iff.rfl

theorem passes_modify {f : Session σ → Session σ} {k : PUnit → Checked σ α}
    {k' : PUnit → Call σ α} :
    Passes (modify f >>= k) (modify f >>= k') s ↔ Passes (k ⟨⟩) (k' ⟨⟩) (f s) :=
  Iff.rfl

theorem passes_observe {n : SeqNum} {k : SequenceOutcome → Checked σ α}
    {k' : SequenceOutcome → Call σ α} :
    Passes (plain (observe n) >>= k) (observe n >>= k') s ↔
      Passes (k (s.sequences.observe n).1) (k' (s.sequences.observe n).1)
        { s with sequences := (s.sequences.observe n).2 } :=
  Iff.rfl

/-- A state that may follow is entered. -/
theorem passes_enter {state : SessionState} (h : s.state.canBecome state = true) (now : Moment) :
    Passes (enter state now) (modify fun s => s.enter state now) s :=
  passes_ensure h rfl

/-- A session may always end. -/
theorem passes_terminate (now : Moment) :
    Passes (terminate now) (modify fun s => s.terminate now) s := by
  have hstate : s.state.canBecome .disconnected = true := by cases s.state <;> rfl
  exact passes_enter (s := { s with recovery := s.recovery.clear, terminated := true }) hstate now

theorem passes_disconnect (now : Moment) :
    Passes (disconnect now) (modify fun s => s.disconnect now) s := by
  unfold Passes
  show (if s.terminated then pure () else terminate now : Checked σ Unit) s =
    .ok ⟨⟩ (s.disconnect now)
  unfold Session.disconnect
  split
  · rfl
  · exact passes_terminate now

end

/-! ## Sending -/

section
variable {σ : Type} {s : Session σ}

/-- The answers for numbers that have a successor. -/
theorem passes_plan {last : SeqNum} (hlast : last ≠ .top) {stored : List (SeqNum × Option Message)}
    (hstored : ∀ e ∈ stored, e.1 ≠ .top) (next : SeqNum) :
    Passes (plan last next stored) (pure (Resend.plan last next stored)) s := by
  induction stored generalizing next with
  | nil => exact passes_plus_one hlast (passes_pure _)
  | cons e stored ih =>
    obtain ⟨number, readable⟩ := e
    obtain ⟨hnumber, hrest⟩ := List.forall_mem_cons.mp hstored
    unfold plan
    refine passes_plus_one hnumber ?_
    cases readable with
    | none => exact ih hrest next
    | some message => exact (ih hrest (number + 1)).pure_bind (passes_pure _)

end

section
variable {σ : Type} [MessageStore σ] {s : Session σ}

theorem passes_emit (type : MsgType) (body : List Field) (now : Moment) :
    Passes (emit type body now) (Session.emit type body now) s := by
  unfold emit Session.emit
  refine passes_ofExcept fun frame _ => passes_onStore fun _ store _ => ?_
  exact passes_ensure (decide_eq_true rfl) rfl

/-- A resend request for numbers that have a successor. -/
theorem passes_requestResend {last : SeqNum} (hlast : last ≠ .top) (first : SeqNum)
    (now : Moment) :
    Passes (requestResend first last now) (Session.requestResend first last now) s := by
  unfold requestResend Session.requestResend
  refine (passes_emit _ _ now).seq fun frame t => ?_
  rw [passes_modify]
  exact passes_plus_one hlast (passes_pure _)

/-- A number that messages have is behind another one, and that one has a successor. -/
theorem passes_requestBefore {number : SeqNum} (hvalid : number.isValid = true) (first : SeqNum)
    (now : Moment) :
    Passes (requestBefore first number now) (Session.requestResend first (number - 1) now) s :=
  passes_minus_one (SeqNum.isValid_iff.mp hvalid).1
    (passes_requestResend (SeqNum.sub_one_ne_top_of_isValid hvalid) first now)

theorem passes_onLogout (now : Moment) : Passes (onLogout now) (Session.onLogout now) s := by
  have hend (r : Reaction) (t : Session σ) :
      Passes (do terminate now; return r : Checked σ Reaction)
        (do modify fun s => s.terminate now; return r : Call σ Reaction) t :=
    (passes_terminate now).seq fun _ _ => passes_pure r
  unfold onLogout Session.onLogout
  rw [passes_get]
  split
  · exact hend _ s
  · exact ((passes_emit _ _ now).map _).seq hend

end

/-! ## Messages in order -/

section
variable {s : Session MemoryStore}

/-- Of the numbers that were sent even the last one has a successor, and nothing beyond them is
looked at. -/
theorem passes_serveResend (m : Message) (now : Moment) :
    Passes (serveResend m now) (Session.serveResend m now) s := by
  unfold serveResend Session.serveResend
  refine passes_ofExcept fun begun _ => passes_ofExcept fun requested _ => ?_
  have hlast := s.lastRequested_le_previous requested
  rw [passes_get]
  dsimp only
  split
  · exact passes_pure _
  · refine passes_onStore fun stored store hrange => ?_
    have hstored (e : SeqNum × Option Message) (he : e ∈ stored.map fun e =>
        (e.1, Resend.resendable? s.config.beginString e.2)) : e.1 ≠ .top := by
      obtain ⟨kept, hkept, rfl⟩ := List.mem_map.mp he
      rw [Except.ok.inj (MemoryStore.range_eq hrange).1] at hkept
      obtain ⟨_, _, hle⟩ := Journal.mem_range_iff.mp hkept
      exact SeqNum.ne_top_of_le_previous (UInt64.le_trans hle hlast)
    rw [passes_get]
    refine (passes_plan (SeqNum.ne_top_of_le_previous hlast) hstored _).pure_bind ?_
    exact passes_ofExcept fun _ _ => passes_pure _

theorem passes_dispatch (m : Message) (replaying : Bool) (now : Moment) :
    Passes (dispatch m replaying now) (Session.dispatch m replaying now) s := by
  unfold dispatch Session.dispatch
  cases m.msgType with
  | heartbeat => exact passes_pure _
  | testRequest => exact (passes_emit _ _ now).map _
  | resendRequest => exact passes_serveResend m now
  | sequenceReset => exact (passes_plain _).seq fun _ _ => passes_pure _
  | logout => exact passes_onLogout now
  | logon =>
    dsimp only
    split
    · exact passes_pure _
    · rfl
  | _ => exact passes_pure _

theorem passes_accept (n : SeqNum) (p : Parked) (replaying : Bool) (now : Moment) :
    Passes (accept n p replaying now) (Session.accept n p replaying now) s :=
  (passes_plain _).seq fun _ _ => passes_dispatch p.message replaying now

/-- What was parked under the expected number is in order: a parked number is one that messages
have. The induction is on how many may be taken. -/
theorem passes_replay (hs : Sound .any s) (now : Moment) (count : Nat) :
    Passes (replay now count) (Session.replay now count) s := by
  induction count generalizing s with
  | zero => exact passes_pure _
  | succ count ih =>
    unfold replay Session.replay
    rw [passes_get]
    split
    · exact passes_pure _
    · dsimp only
      rw [passes_set]
      have hrelease : Moves .any s .empty s.released := Move.single .release
      generalize hready : (s.recovery.takeReady s.sequences.expectedIncoming).1 = ready
      cases ready with
      | none => exact passes_pure _
      | some p =>
        have hp : Genuine .any s.config s.sequences.expectedIncoming p := hs.find? hready
        have hne := SeqNum.ne_top_of_isValid hp.valid
        rw [passes_observe]
        dsimp only
        rw [SequenceTracker.observe_of_eq hne rfl]
        refine passes_ensure (decide_eq_true rfl) ?_
        refine (passes_accept _ p true now).bind (E := Fails .any s) ?_
        refine (ends_accept_moves (s := s.released) hp rfl true now).mono ?_
          (fun _ _ => hrelease.fails)
        intro taken t hmoves
        exact (ih (hs.moves (hrelease.trans hmoves))).seq fun _ _ => passes_pure _

/-- The first parked number is one that messages have. -/
theorem passes_closeGap (hs : Sound .any s) (now : Moment) :
    Passes (closeGap now) (Session.closeGap now) s := by
  unfold closeGap Session.closeGap
  rw [passes_modify, passes_get]
  have hclosed : Sound .any s.advanced := hs.move .close
  dsimp only
  cases hfirst : (s.recovery.onAdvanced s.sequences.expectedIncoming).2.first? with
  | none => exact passes_pure _
  | some first =>
    dsimp only
    split
    · exact passes_pure _
    · obtain ⟨p, hmem⟩ := GapRecovery.exists_mem_of_first? hfirst
      exact passes_requestBefore (hclosed _ hmem).valid _ now

theorem passes_drain (hs : Sound .any s) (now : Moment) :
    Passes (drain now) (Session.drain now) s := by
  unfold drain Session.drain
  rw [passes_get]
  refine (passes_replay hs now _).bind ((does_replay hs now _).imp fun taken t hmoves => ?_)
  rw [passes_get]
  split
  · exact passes_pure _
  · exact (passes_closeGap (hs.moves hmoves) now).seq fun _ _ => passes_pure _

/-! ## Frames -/

theorem passes_establish (hstate : s.state.canBecome .loggedOn = true) (seconds : Nat)
    (now : Moment) : Passes (establish seconds now) (Session.establish seconds now) s := by
  have hend (r : Reaction) (t : Session MemoryStore) (ht : t.state.canBecome .loggedOn = true) :
      Passes
        (do
          modify fun s => { s with heartbeat := s.heartbeat.reset (seconds * 1000) now.elapsed }
          enter .loggedOn now
          return r : Checked MemoryStore Reaction)
        (do
          modify fun s =>
            { s with
              heartbeat := s.heartbeat.reset (seconds * 1000) now.elapsed }.enter .loggedOn now
          return r : Call MemoryStore Reaction) t := by
    have henter := passes_enter
      (s := { t with heartbeat := t.heartbeat.reset (seconds * 1000) now.elapsed }) ht now
    exact henter.seq fun _ _ => passes_pure r
  unfold establish Session.establish
  rw [passes_get]
  cases s.config.role with
  | initiator => exact hend _ s hstate
  | acceptor =>
    refine ((passes_emit _ _ now).map _).bind (E := Anyhow) ?_
    refine ends_map.mpr (ends_emit_of_emits fun frame t hemits => hend _ t ?_)
    rw [hemits.utters.state]
    exact hstate

theorem passes_onLogonPhase {n : SeqNum} (hn : n.isValid = true) (p : Parked) (now : Moment) :
    Passes (onLogonPhase n p now) (Session.onLogonPhase n p now) s := by
  unfold onLogonPhase Session.onLogonPhase
  rw [passes_get]
  refine passes_ofExcept fun _ hlogon => passes_ofExcept fun seconds _ => ?_
  obtain ⟨_, hstate⟩ := checkLogon_eq_ok hlogon
  rw [passes_observe]
  rcases SeqNum.lt_trichotomy n s.sequences.expectedIncoming with hlt | heq | hgt
  · rw [SequenceTracker.observe_of_lt hlt]
    rfl
  · rw [SequenceTracker.observe_of_eq (SeqNum.ne_top_of_isValid hn) heq]
    refine (passes_establish (s := s.counted n) hstate seconds now).seq fun answered t => ?_
    exact (passes_plain _).seq fun _ _ => passes_pure _
  · rw [SequenceTracker.observe_of_gt hgt]
    refine (passes_establish hstate seconds now).seq fun answered t => ?_
    refine (passes_plain _).seq fun _ u => ?_
    exact (passes_requestBefore hn _ now).seq fun _ _ => passes_pure _

theorem passes_onNumbered (hs : Sound .any s) {n : SeqNum} {p : Parked}
    (hp : Genuine .any s.config n p) (now : Moment) :
    Passes (onNumbered n p now) (Session.onNumbered n p now) s := by
  unfold onNumbered Session.onNumbered
  rw [passes_observe]
  rcases SeqNum.lt_trichotomy n s.sequences.expectedIncoming with hlt | heq | hgt
  · rw [SequenceTracker.observe_of_lt hlt]
    exact passes_pure _
  · rw [SequenceTracker.observe_of_eq (SeqNum.ne_top_of_isValid hp.valid) heq]
    refine (passes_accept n p false now).bind
      ((ends_accept_moves hp heq false now).imp fun taken t hmoves => ?_)
    exact (passes_drain (hs.moves hmoves) now).seq fun _ _ => passes_pure _
  · rw [SequenceTracker.observe_of_gt hgt]
    refine (passes_plain _).seq fun _ t => ?_
    rw [passes_get]
    split
    · exact passes_pure _
    · exact passes_requestBefore hp.valid _ now

/-- What the state makes of a message of the counterparty. -/
theorem passes_phase (hs : Sound .any s) {n : SeqNum} {p : Parked} (hp : Genuine .any s.config n p)
    (now : Moment) :
    Passes
      (match s.state with
      | .disconnected | .logonSent => onLogonPhase n p now
      | .loggedOn | .logoutSent =>
        if isPlainReset p.message then do
          plain (applySequenceReset p.message)
          drain now
        else onNumbered n p now)
      (match s.state with
      | .disconnected | .logonSent => Session.onLogonPhase n p now
      | .loggedOn | .logoutSent =>
        if isPlainReset p.message then do
          applySequenceReset p.message
          Session.drain now
        else Session.onNumbered n p now) s := by
  have hnumbered : Passes
      (if isPlainReset p.message then do
        plain (applySequenceReset p.message)
        drain now
      else onNumbered n p now)
      (if isPlainReset p.message then do
        applySequenceReset p.message
        Session.drain now
      else Session.onNumbered n p now) s := by
    split
    · next hplain =>
      have hreset := ends_applySequenceReset_move hp (msgType_of_isPlainReset hplain) (.inl hplain)
      exact (passes_plain _).bind (hreset.imp fun _ _ hmove => passes_drain (hs.move hmove) now)
    · exact passes_onNumbered hs hp now
  cases s.state with
  | disconnected => exact passes_onLogonPhase hp.valid p now
  | logonSent => exact passes_onLogonPhase hp.valid p now
  | loggedOn => exact hnumbered
  | logoutSent => exact hnumbered

theorem passes_process (hs : Sound .any s) (frame : Bytes) (now : Moment) :
    Passes (process frame now) (Session.process frame now) s := by
  unfold process Session.process
  refine (passes_plain _).bind (E := Anyhow) (ends_ensureOpen.mpr ⟨fun _ => trivial, fun _ => ?_⟩)
  rw [passes_get]
  refine passes_ofExcept fun message hdecode => ?_
  rw [passes_modify]
  refine passes_ofExcept fun _ hids => passes_ofExcept fun n hnumber => ?_
  exact passes_phase (s := s.heard now) (p := ⟨message, frame⟩) hs
    (genuine_of_checks trivial hdecode hids hnumber) now

/-! ## Timers -/

theorem passes_keepAlive (now : Moment) :
    Passes (keepAlive now) (Session.keepAlive now) s := by
  unfold keepAlive Session.keepAlive
  rw [passes_get]
  dsimp only
  rw [passes_set]
  cases (s.heartbeat.poll now).1 with
  | none => exact passes_pure _
  | some due =>
    cases due with
    | sendHeartbeat => exact (passes_emit _ _ now).map _
    | sendTestRequest id => exact (passes_emit _ _ now).map _
    | timedOut waited => rfl

theorem passes_retryResend (now : Moment) :
    Passes (retryResend now) (Session.retryResend now) s := by
  unfold retryResend Session.retryResend
  rw [passes_get]
  dsimp only
  rw [passes_set]
  cases (s.recovery.pollRetry now.elapsed s.sequences.expectedIncoming s.config.resendTimeout
    s.config.resendRetryLimit).1 with
  | none => exact passes_pure _
  | some decision =>
    cases decision with
    | reissue first last => exact (passes_emit _ _ now).map _
    | exhausted error => rfl

theorem passes_tick (now : Moment) : Passes (tick now) (Session.tick now) s := by
  unfold tick Session.tick
  rw [passes_get]
  dsimp only
  split
  · exact passes_pure _
  · cases s.state with
    | disconnected => exact passes_pure _
    | logonSent =>
      dsimp only
      split
      · rfl
      · exact passes_pure _
    | loggedOn =>
      exact (passes_keepAlive now).seq fun _ _ =>
        (passes_retryResend now).seq fun _ _ => passes_pure _
    | logoutSent =>
      dsimp only
      split
      · have hends : Passes (do terminate now; return Reaction.empty : Checked MemoryStore Reaction)
            (do modify fun s => s.terminate now; return Reaction.empty) s :=
          (passes_terminate now).seq fun _ _ => passes_pure _
        exact hends
      · exact passes_pure _

/-! ## What the owner asks for -/

theorem passes_logon (now : Moment) : Passes (logon now) (Session.logon now) s := by
  unfold logon Session.logon
  refine (passes_plain _).bind (E := Anyhow) (ends_ensureOpen.mpr ⟨fun _ => trivial, fun _ => ?_⟩)
  refine (passes_plain _).bind (E := Anyhow)
    (ends_ensureInitiator.mpr ⟨fun _ => trivial, fun _ => ?_⟩)
  refine (passes_plain _).bind (E := Anyhow)
    (ends_ensureState.mpr ⟨fun _ => trivial, fun hstate => ?_⟩)
  rw [passes_get]
  refine (passes_emit _ _ now).bind (ends_emit_of_emits fun frame t hemits => ?_)
  have henter : t.state.canBecome .logonSent = true := by rw [hemits.utters.state, hstate]; rfl
  exact (passes_enter henter now).seq fun _ _ => passes_pure _

theorem passes_send (type : MsgType) (fields : List Field) (now : Moment) :
    Passes (send type fields now) (Session.send type fields now) s := by
  unfold send Session.send
  refine (passes_plain _).seq fun _ _ => (passes_plain _).seq fun _ _ => ?_
  exact (passes_plain _).seq fun _ _ => passes_emit type fields now

theorem passes_logout (text : Option String) (now : Moment) :
    Passes (logout text now) (Session.logout text now) s := by
  unfold logout Session.logout
  refine (passes_plain _).seq fun _ s => ?_
  refine (passes_plain _).bind (E := Anyhow)
    (ends_ensureState.mpr ⟨fun _ => trivial, fun hstate => ?_⟩)
  refine (passes_emit _ _ now).bind (ends_emit_of_emits fun frame t hemits => ?_)
  have henter : t.state.canBecome .logoutSent = true := by rw [hemits.utters.state, hstate]; rfl
  exact (passes_enter henter now).seq fun _ _ => passes_pure _

/-! ## Operations -/

theorem Passes.run?_eq {α : Type} {g : Checked MemoryStore α} {c : Call MemoryStore α}
    (h : Passes g c s) : run? g s = some (c.run s) := by
  unfold Passes plain at h
  unfold run? Call.run
  rw [h]
  cases c s <;> rfl

theorem Passes.settle?_eq {g : Checked MemoryStore Reaction} {c : Call MemoryStore Reaction}
    (h : Passes g c s) (now : Moment) : settle? g s now = some (c.settle s now) := by
  unfold settle?
  rw [h.run?_eq]
  unfold Call.run Call.settle
  cases c s with
  | ok r t => rfl
  | error e t =>
    have hends := (passes_terminate (s := t) now).run?_eq
    simp only [Option.bind_eq_bind, Option.bind_some, hends]
    rfl

theorem step?_eq (hs : Sound .any s) (op : Operation) : step? s op = some (s.step op) := by
  cases op with
  | logon now => rw [step?, (passes_logon now).run?_eq]; rfl
  | send type fields now => rw [step?, (passes_send type fields now).run?_eq]; rfl
  | logout text now => rw [step?, (passes_logout text now).run?_eq]; rfl
  | receive frame now => rw [step?, (passes_process hs frame now).settle?_eq]; rfl
  | timer now => rw [step?, (passes_tick now).settle?_eq]; rfl
  | disconnect now => rw [step?, (passes_disconnect now).run?_eq]; rfl

/-- The induction is on the operations; what waits stays numbered as messages are. -/
theorem steps?_eq (hs : Sound .any s) (ops : List Operation) : steps? s ops = some (s.run ops) := by
  induction ops generalizing s with
  | nil => rfl
  | cons op ops ih =>
    rw [steps?, step?_eq hs op]
    simp only [Option.bind_eq_bind, Option.bind_some, ih (hs.stepped (stepped_any hs op))]
    rfl

end

end Checked

/-- Over every store in memory, whatever its counters and messages, and every run of a session over
it, with any frames arriving: every check holds. No sum and no difference of numbers leaves the
words, every state that is entered may follow the one before, the number that is used up is the one
that the message carries, and a parked message that is taken is in order. -/
theorem run_passes_checks {config : SessionConfig} {store : MemoryStore} {opened : Nat}
    {s₀ : Session MemoryStore} (h : open? config store opened = .ok s₀) (ops : List Operation) :
    Checked.steps? s₀ ops = some (s₀.run ops) :=
  Checked.steps?_eq (sound_of_open h) ops

/-- A check can fail: behind the greatest word there is no number that a gap could be reported
with. -/
example : (Checked.requestResend .first .top Sample.moment).run?
    (.fresh Sample.acceptor MemoryStore.empty 0) = none := by
  decide +kernel

/-- An acceptor over a store at both ends of the words. The logon comes under the greatest number that
a message may have, is answered under that number, and the request for everything before it takes
the last word. A resend request for all numbers is served, the gap is filled up to the logon, and a
reset names the greatest word. -/
theorem run_passes_checks_extreme :
    let store := MemoryStore.startingAt .greatest 0
    let session : Session MemoryStore := .fresh Sample.acceptor store 0
    let received (type : MsgType) (n : SeqNum) (body : List Field) : Operation :=
      .receive (Sample.frame Sample.initiator type n body) Sample.moment
    let ops := [received .logon .greatest [.ofNat .encryptMethod 0, .ofNat .heartBtInt 30],
      received .resendRequest 1 [.ofSeqNum .beginSeqNo 0, .ofSeqNum .endSeqNo .top],
      received .sequenceReset 2 [.ofBool .gapFillFlag true, .ofSeqNum .newSeqNo .greatest],
      received .sequenceReset 3 [.ofSeqNum .newSeqNo .top]]
    let after := (session.run ops).2
    open? Sample.acceptor store 0 = .ok session ∧
      after.sequences = ⟨0, .top⟩ ∧ after.terminated = false ∧
      Checked.steps? session ops = some (session.run ops) := by
  intro store session received ops after
  have hopen : open? Sample.acceptor store 0 = .ok session :=
    open?_eq_ok_iff.mpr ⟨Sample.validate_acceptor, rfl⟩
  have hafter : after.sequences = ⟨0, .top⟩ ∧ after.terminated = false := by decide +kernel
  exact ⟨hopen, hafter.1, hafter.2, run_passes_checks hopen ops⟩

end FixProtocol.Session
