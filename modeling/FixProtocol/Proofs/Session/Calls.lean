import FixProtocol.Proofs.Session.Rules

/-!
# What each call does

Every call is a chain of moves, and when it fails, a chain of moves and at most one change more.

- `Does`: what all calls that answer with a reaction do; `does_process` and `does_tick` say it of
  the two that come from outside.
- `ends_replay_sound`: what every parked message keeps that is taken; what is parked is genuine.
- `ends_logon_moves`, `ends_send_moves`, `ends_logout_moves`: what the owner asks for is written, or
  refused.
- `stepped`, `ran`: what an operation does, whichever it is, and what a list of them does.
- `Ran.keeps`: what every move keeps, every run keeps.
-/

namespace FixProtocol

namespace Session

variable {σ : Type} [MessageStore σ] {I : Inputs} {s t u : Session σ} {r : Reaction}

open Call

/-- A call does moves only, and fails only after moves. -/
def Does (I : Inputs) (c : Call σ Reaction) (s : Session σ) : Prop :=
  Ends c s (Moves I s) (Fails I s)

/-- After some moves a call goes on with its own. -/
theorem Does.after {c : Call σ Reaction} (h : Does I c t) (hmoves : Moves I s r t) :
    Ends c t (fun r' u => Moves I s (r ++ r') u) (Fails I s) :=
  h.mono (fun _ _ => hmoves.trans) (fun _ _ => hmoves.fails)

/-- After some moves that add nothing to the reaction a call goes on with its own. -/
theorem Does.afterSilent {c : Call σ Reaction} (h : Does I c t) (hmoves : Moves I s .empty t) :
    Ends c t (Moves I s) (Fails I s) :=
  h.after hmoves

/-! ## Sending -/

/-- A message that was written and kept is one move. -/
theorem Emits.move {type : MsgType} {body : List Field} {now : Moment} {frame : Bytes}
    (h : Emits s type body now frame t) (hw : Writes I.type type body) :
    Move I s (.ofFrame frame) t := by
  obtain ⟨store, hstore, rfl⟩ := h.kept
  exact .write now hw h.encode hstore

/-- A message that answers is the whole reaction. -/
theorem ends_emit_moves {type : MsgType} {body : List Field} (hw : Writes I.type type body)
    (now : Moment) :
    Ends (emit type body now) s (fun frame t => Moves I s (.ofFrame frame) t) (Fails I s) :=
  (ends_emit_emits type body now).mono (fun _ _ h => (h.move hw).single) (fun _ _ => Refusal.fails)

theorem does_requestResend {first last : SeqNum} (hle : first ≤ last) (now : Moment) :
    Does I (requestResend first last now) s := by
  refine ends_requestResend.mpr ((ends_emit_moves (.resendRequest first last) now).imp ?_)
  intro frame t hwrite
  exact hwrite.snoc (.start first last now hle)

/-! ## Messages in order -/

theorem msgType_of_isPlainReset {m : Message} (h : isPlainReset m = true) :
    m.msgType = .sequenceReset := by
  simp only [isPlainReset, Bool.and_eq_true, decide_eq_true_eq] at h
  exact h.1

theorem ends_applySequenceReset_move {n : SeqNum} {p : Parked} (hp : Genuine I s.config n p)
    (htype : p.message.msgType = .sequenceReset)
    (hplain : isPlainReset p.message = true ∨ n + 1 = s.sequences.expectedIncoming) :
    Ends (applySequenceReset p.message) s (fun _ t => Move I s .empty t) (Refusal s) :=
  ends_applySequenceReset (fun _ => .idle _ rfl) (fun _ _ _ => .idle _ rfl)
    fun _ hnumber hle => .advance hp htype hnumber hplain hle

theorem does_onLogout (now : Moment) : Does I (onLogout now) s :=
  ends_onLogout (fun _ => Move.single (.terminate now)) fun _ =>
    (ends_emit_moves (.logout none) now).imp fun _ _ h => h.silent (.terminate now)

theorem Serves.moves {now : Moment} (h : Serves now s r t) : Moves I s r t := by
  cases h with
  | nothing => exact .refl s
  | again hfirst hle hlast hrange hframes =>
    exact Move.single (.serve now hfirst hle hlast hrange hframes)

theorem Unserved.fails {e : Error} (h : Unserved s e t) : Fails I s e t := by
  cases h with
  | unclear e => exact .idle rfl
  | unread h => exact Fault.fails (.unread h)
  | unwritten h => exact Fault.fails (.unwritten h)

theorem does_serveResend (m : Message) (now : Moment) : Does I (serveResend m now) s :=
  (ends_serveResend_serves m now).mono (fun _ _ h => h.moves) (fun _ _ h => h.fails)

/-- What a message that was taken asks for. -/
theorem does_dispatch {n : SeqNum} {p : Parked} (hp : Genuine I s.config n p)
    (hn : n + 1 = s.sequences.expectedIncoming) (replaying : Bool) (now : Moment) :
    Ends (dispatch p.message replaying now) s
      (fun r t => ∃ r', r = ⟨[], handedOver p.message, []⟩ ++ r' ∧ Moves I s r' t) (Fails I s) := by
  -- A message of the session itself is not handed over, so what follows it is all there is.
  have hquiet {type : MsgType} {r : Reaction} {t : Session σ} (htype : p.message.msgType = type)
      (hown : type.isSessionLevel = true) (h : Moves I s r t) :
      ∃ r', r = ⟨[], handedOver p.message, []⟩ ++ r' ∧ Moves I s r' t := by
    rw [handedOver_of_eq htype hown]
    exact ⟨r, rfl, h⟩
  refine ends_dispatch ?heartbeat ?testRequest ?resendRequest ?sequenceReset ?logout ?logon
    ?application
  case heartbeat => exact fun htype => hquiet htype rfl (Move.single (.clock _))
  case testRequest =>
    intro htype
    have hecho : ∀ f ∈ p.message.get? .testReqId, f.tag = .testReqId := by
      intro f hf
      have hf : p.message.fields.find? (·.tag = .testReqId) = some f := hf
      exact of_decide_eq_true (List.find?_some hf :)
    exact (ends_emit_moves (.heartbeat _ hecho) now).imp fun _ _ => hquiet htype rfl
  case resendRequest =>
    exact fun htype => (does_serveResend p.message now).imp fun _ _ => hquiet htype rfl
  case sequenceReset =>
    exact fun htype => (ends_applySequenceReset_move hp htype (.inr hn)).mono
      (fun _ _ h => hquiet htype rfl h.single) (fun _ _ => Refusal.fails)
  case logout =>
    exact fun htype => (does_onLogout now).imp fun _ _ => hquiet htype rfl
  case logon => exact fun htype => ⟨fun _ => hquiet htype rfl (.refl s), fun _ => .idle rfl⟩
  case application =>
    intro hown
    rw [handedOver_of_not hown]
    exact ⟨.empty, rfl, .refl s⟩

/-! ## Messages from behind a gap -/

/-- A message with the expected number is taken. -/
theorem ends_accept_moves {n : SeqNum} {p : Parked} (hp : Genuine I s.config n p)
    (hn : n = s.sequences.expectedIncoming) (replaying : Bool) (now : Moment) :
    Ends (accept n p replaying now) (s.counted n) (Moves I s) (Fails I s) := by
  refine ends_accept (fun store hstore => ?_) fun e store hstore => ?_
  · have htake := Move.single (.take hp hn hstore)
    refine (does_dispatch (s := { s.counted n with store }) hp rfl replaying now).mono ?_
      (fun _ _ => htake.fails)
    rintro _ t ⟨r', rfl, hmoves⟩
    exact htake.trans hmoves
  · exact Fault.fails (.missed hp hn hstore)

/-- What is parked stays genuine while a message is taken. -/
theorem Sound.accept {n : SeqNum} {p : Parked} {P : Reaction → Session σ → Prop}
    {E : Error → Session σ → Prop} {replaying : Bool} {now : Moment} (hs : Sound I s)
    (hp : Genuine I s.config n p) (hn : n = s.sequences.expectedIncoming)
    (h : Ends (accept n p replaying now) (s.counted n) P E) :
    Ends (accept n p replaying now) (s.counted n) (fun r t => P r t ∧ Sound I t) E :=
  (h.and (ends_accept_moves hp hn replaying now)).mono (fun _ _ h => ⟨h.1, hs.moves h.2⟩)
    (fun _ _ h => h.1)

/-- What is parked stays genuine when a plain reset is applied. -/
theorem Sound.reset {n : SeqNum} {p : Parked} {P : Unit → Session σ → Prop}
    {E : Error → Session σ → Prop} (hs : Sound I s) (hp : Genuine I s.config n p)
    (hplain : isPlainReset p.message = true) (h : Ends (applySequenceReset p.message) s P E) :
    Ends (applySequenceReset p.message) s (fun a t => P a t ∧ Sound I t) E :=
  (h.and (ends_applySequenceReset_move hp (msgType_of_isPlainReset hplain) (.inl hplain))).mono
    (fun _ _ h => ⟨h.1, hs.move h.2⟩) (fun _ _ h => h.1)

/-- What is parked is genuine as long as messages are taken. So what holds before the parked
messages are looked through, and holds again after each genuine one that is counted and taken, holds
in the end. -/
theorem ends_replay_sound {P : Reaction → Session σ → Prop} {E : Error → Session σ → Prop}
    {now : Moment}
    (nothing : ∀ {r s}, s.terminated = false → P r s → P r s.released)
    (taken : ∀ {r s p}, s.terminated = false → Sound I s → P r s →
      Genuine I s.config s.sequences.expectedIncoming p →
      Ends (accept s.sequences.expectedIncoming p true now)
        (s.released.counted s.sequences.expectedIncoming) (fun r' t => P (r ++ r') t) E)
    (hsound : Sound I s) (hs : P .empty s) (count : Nat) : Ends (replay now count) s P E := by
  refine (ends_replay_keeps (P := fun r t => P r t ∧ Sound I t) ?_ ?_ ⟨hs, hsound⟩ count).imp
    fun _ _ h => h.1
  · rintro r s hopen ⟨hs, hsound⟩
    exact ⟨nothing hopen hs, hsound.move .release⟩
  · rintro r s p hopen ⟨hs, hsound⟩ hready
    have hp : Genuine I s.config s.sequences.expectedIncoming p := hsound.find? hready
    have hreleased : Sound I s.released := hsound.move .release
    exact ends_observe_next hp.valid rfl
      (hreleased.accept (s := s.released) hp rfl (taken hopen hsound hs hp))

/-- The parked messages whose turn has come are taken. -/
theorem does_replay (hs : Sound I s) (now : Moment) (count : Nat) :
    Does I (replay now count) s := by
  refine ends_replay_sound (fun _ h => h.silent .release) (fun _ _ h hp => ?_) hs (.refl s) count
  have hreleased := h.silent .release
  exact (ends_accept_moves (s := Session.released _) hp rfl true now).mono
    (fun _ _ => hreleased.trans) (fun _ _ => hreleased.fails)

theorem does_closeGap (now : Moment) : Does I (closeGap now) s := by
  have hclose : Moves I s .empty s.advanced := Move.single .close
  exact ends_closeGap (fun _ => hclose) fun _ _ _ hlt =>
    (does_requestResend (SeqNum.le_sub_one hlt) now).afterSilent hclose

theorem does_drain (hs : Sound I s) (now : Moment) : Does I (drain now) s :=
  ends_drain_keeps (does_replay hs now _) fun _ hmoves => (does_closeGap now).after hmoves

/-! ## Frames -/

/-- Logging on writes at most the answer, and enters the state. -/
theorem does_establish (hopen : s.terminated = false) (hstate : s.state.canBecome .loggedOn = true)
    (seconds : Nat) (now : Moment) :
    Ends (establish seconds now) s
      (fun r t => Moves I s r t ∧ t.sequences.expectedIncoming = s.sequences.expectedIncoming)
      (Fails I s) := by
  refine ends_establish (fun _ => ⟨?_, rfl⟩) fun _ => ?_
  · exact (Move.single (.clock _)).silent (.enter now hopen hstate)
  · refine (ends_emit_emits ..).mono ?_ (fun _ _ => Refusal.fails)
    intro frame t hemits
    have hwrite := (hemits.move (I := I) (.logon seconds)).single
    obtain ⟨store, _, rfl⟩ := hemits.kept
    exact ⟨(hwrite.silent (.clock _)).silent (.enter now hopen hstate), rfl⟩

omit [MessageStore σ] in
/-- Before logon only a logon is understood. -/
theorem checkLogon_eq_ok {m : Message} (h : s.checkLogon m = .ok ()) :
    m.msgType = .logon ∧ s.state.canBecome .loggedOn = true := by
  unfold checkLogon at h
  split at h
  · cases h
  · next hstate htype => exact ⟨htype, by rw [hstate]; rfl⟩
  · next hstate htype => exact ⟨htype, by rw [hstate]; rfl⟩
  · cases h

/-- Before logon a logon is taken or parked, and everything else is refused. -/
theorem does_onLogonPhase (hopen : s.terminated = false) {n : SeqNum} {p : Parked}
    (hp : Genuine I s.config n p) (now : Moment) : Does I (onLogonPhase n p now) s := by
  refine ends_onLogonPhase hp.valid (fun _ _ => .idle) (fun seconds hlogon _ heq => ?_)
    fun seconds hlogon _ hgt => ?_
  · obtain ⟨htype, hstate⟩ := checkLogon_eq_ok hlogon
    have hcount : Moves I s .empty (s.counted n) := Move.single (.countLogon hp htype heq)
    refine (does_establish (s := s.counted n) hopen hstate seconds now).mono ?_
      (fun _ _ => hcount.fails)
    rintro r t ⟨hmoves, hn⟩
    have hmoves : Moves I s r t := hcount.trans hmoves
    -- Only now, after the answer was written, is the logon kept; the answer did not change its
    -- number.
    have hp : Genuine I t.config n p := hmoves.config_eq ▸ hp
    refine ends_append.mpr ⟨fun store hstore => ?_, fun e store hstore => ?_⟩
    · exact hmoves.silent (.keepLogon hp htype hn.symm hstore)
    · exact hmoves.fails (Fault.fails (.unkeptLogon hp htype hn.symm hstore))
  · obtain ⟨_, hstate⟩ := checkLogon_eq_ok hlogon
    refine (does_establish hopen hstate seconds now).imp ?_
    rintro r t ⟨hmoves, hn⟩
    have hp : Genuine I t.config n p := hmoves.config_eq ▸ hp
    refine ends_park.mpr ⟨fun recovery hpark => ?_, fun _ _ => hmoves.fails (.idle rfl)⟩
    have hparked : Moves I s r { t with recovery } := hmoves.silent (.park hp (hn ▸ hgt) hpark)
    exact (does_requestResend (SeqNum.le_sub_one hgt) now).after hparked

/-- A numbered message is taken, discarded or parked. -/
theorem does_onNumbered (hs : Sound I s) {n : SeqNum} {p : Parked} (hp : Genuine I s.config n p)
    (now : Moment) : Does I (onNumbered n p now) s := by
  refine ends_onNumbered hp.valid (fun hlt => Move.single (.duplicate hlt)) (fun heq => ?_)
    (fun hgt recovery hpark => ?_) fun _ _ _ => .idle rfl
  · refine (ends_accept_moves hp heq false now).imp ?_
    intro r t hmoves
    exact (does_drain (hs.moves hmoves) now).after hmoves
  · have hparked : Moves I s .empty { s with recovery } := Move.single (.park hp hgt hpark)
    exact ⟨fun _ => hparked, fun _ =>
      (does_requestResend (SeqNum.le_sub_one hgt) now).afterSilent hparked⟩

/-- A session makes of a frame what its moves allow, where the frame may arrive. -/
theorem does_process (hs : Sound I s) {frame : Bytes} (hframe : I.frame frame) (now : Moment) :
    Does I (process frame now) s := by
  -- The frame is noted as a sign of life before its message is checked, so this stays on failure.
  have hclock : Moves I s .empty (s.heard now) := Move.single (.clock _)
  have hheard := hs.moves hclock
  refine ends_process hframe ?refused ?early ?reset ?numbered
  case refused =>
    rintro e _ he (rfl | rfl) _
    · exact .idle he
    · exact hclock.fails (.idle he)
  case early =>
    exact fun hopen _ _ _ hp =>
      (does_onLogonPhase (s := s.heard now) hopen hp now).afterSilent hclock
  case reset =>
    intro _ _ n m hp hplain
    refine (ends_applySequenceReset_move (s := s.heard now) (p := ⟨m, frame⟩) hp
      (msgType_of_isPlainReset hplain) (.inl hplain)).mono ?_ (fun _ _ h => hclock.fails h.fails)
    intro _ t hreset
    exact (does_drain (hheard.move hreset) now).afterSilent (hclock.silent hreset)
  case numbered => exact fun _ _ _ _ hp _ => (does_onNumbered hheard hp now).afterSilent hclock

/-! ## Timers -/

theorem does_keepAlive (now : Moment) : Does I (keepAlive now) s := by
  have hclock : Moves I s .empty (s.polled now) := Move.single (.clock _)
  have hnone : ∀ f ∈ (none : Option Field), f.tag = .testReqId :=
    fun f hf => absurd hf (Option.not_mem_none f)
  refine ends_keepAlive (fun _ => hclock) (fun _ => ?_) (fun id _ => ?_)
    fun _ _ => hclock.fails (.idle rfl)
  · exact (ends_emit_moves (.heartbeat none hnone) now).mono (fun _ _ => hclock.trans)
      (fun _ _ => hclock.fails)
  · exact (ends_emit_moves (.testRequest id) now).mono (fun _ _ => hclock.trans)
      (fun _ _ => hclock.fails)

theorem does_retryResend (now : Moment) : Does I (retryResend now) s := by
  have hretry : Moves I s .empty (s.retried now) := Move.single (.retry now)
  refine ends_retryResend (fun _ => hretry) (fun first last _ => ?_)
    fun _ _ => hretry.fails (.idle rfl)
  exact (ends_emit_moves (.resendRequest first last) now).mono (fun _ _ => hretry.trans)
    (fun _ _ => hretry.fails)

theorem does_tick (now : Moment) : Does I (tick now) s := by
  refine ends_tick (fun _ => .refl s) (fun _ _ _ => .idle rfl)
    (fun _ _ _ => Move.single (.terminate now)) fun _ _ => ?_
  refine (does_keepAlive now).imp ?_
  intro r t hmoves
  exact (does_retryResend now).after hmoves

/-! ## What the owner asks for -/

theorem ends_logon_moves (I : Inputs) (now : Moment) :
    Ends (logon now) s (fun frame t => Moves I s (.ofFrame frame) t) (Refusal s) := by
  refine ends_logon (fun _ => .idle) fun hopen _ hstate => ?_
  refine (ends_emit_emits ..).imp ?_
  intro frame t hemits
  have hwrite := (hemits.move (I := I) (.logon _)).single
  obtain ⟨store, _, rfl⟩ := hemits.kept
  exact hwrite.silent (.enter now hopen (by rw [written, hstate]; rfl))

theorem ends_send_moves {type : MsgType} (htype : I.type type) (fields : List Field)
    (now : Moment) :
    Ends (send type fields now) s (fun frame t => Moves I s (.ofFrame frame) t) (Refusal s) := by
  refine ends_send (fun _ => .idle) fun _ _ hcheck => ?_
  exact (ends_emit_emits ..).imp fun _ _ hemits =>
    (hemits.move (.application type fields htype hcheck)).single

theorem ends_logout_moves (I : Inputs) (text : Option String) (now : Moment) :
    Ends (logout text now) s (fun frame t => Moves I s (.ofFrame frame) t) (Refusal s) := by
  refine ends_logout (fun _ => .idle) fun hopen hstate => ?_
  refine (ends_emit_emits ..).imp ?_
  intro frame t hemits
  have hwrite := (hemits.move (I := I) (.logout text)).single
  obtain ⟨store, _, rfl⟩ := hemits.kept
  exact hwrite.silent (.enter now hopen (by rw [written, hstate]; rfl))

/-! ## Operations -/

/-- What an operation answers, and what it does to a session. -/
inductive Stepped (I : Inputs) (s : Session σ) : Outcome → Session σ → Prop
  | sent {frame : Bytes} {t : Session σ} (h : Moves I s (.ofFrame frame) t) :
      Stepped I s (.sent (.ok frame)) t
  | refused {e : Error} {t : Session σ} (h : Refusal s e t) : Stepped I s (.sent (.error e)) t
  | reacted {r : Reaction} {t : Session σ} (h : Moves I s r t) :
      Stepped I s (.reacted (.ok r)) t
  | failed {e : Error} {t : Session σ} (h : Fails I s e t) (now : Moment) :
      Stepped I s (.reacted (.error ⟨e, .disconnect⟩)) (t.terminate now)
  | closed {t : Session σ} (h : Moves I s .empty t) : Stepped I s .closed t

theorem stepped_of_ends_send {c : Call σ Bytes}
    (h : Ends c s (fun frame t => Moves I s (.ofFrame frame) t) (Refusal s)) :
    Stepped I s (.sent (c.run s).1) (c.run s).2 := by
  unfold Ends at h
  unfold Call.run
  cases heq : c s with
  | ok frame t =>
    rw [heq] at h
    exact .sent h
  | error e t =>
    rw [heq] at h
    exact .refused h

theorem stepped_of_does {c : Call σ Reaction} (h : Does I c s) (now : Moment) :
    Stepped I s (.reacted (c.settle s now).1) (c.settle s now).2 := by
  unfold Does Ends at h
  unfold Call.settle
  cases heq : c s with
  | ok r t =>
    rw [heq] at h
    exact .reacted h
  | error e t =>
    rw [heq] at h
    exact .failed h now

/-- Every operation does what its outcome says. -/
theorem stepped (hs : Sound I s) {op : Operation} (hop : op.Within I) :
    Stepped I s (s.step op).1 (s.step op).2 := by
  cases op with
  | logon now => exact stepped_of_ends_send (ends_logon_moves I now)
  | send type fields now => exact stepped_of_ends_send (ends_send_moves hop fields now)
  | logout text now => exact stepped_of_ends_send (ends_logout_moves I text now)
  | receive frame now => exact stepped_of_does (does_process hs hop now) now
  | timer now => exact stepped_of_does (does_tick now) now
  | disconnect now =>
    refine .closed ?_
    show Moves I s .empty (s.disconnect now)
    unfold disconnect
    split
    · exact .refl s
    · exact Move.single (.terminate now)

theorem stepped_any (hs : Sound .any s) (op : Operation) :
    Stepped .any s (s.step op).1 (s.step op).2 :=
  stepped hs (by cases op <;> trivial)

/-- What a list of operations answers, and what it does to a session. -/
inductive Ran (I : Inputs) : Session σ → List Outcome → Session σ → Prop
  | nil (s : Session σ) : Ran I s [] s
  | cons {s t u : Session σ} {o : Outcome} {os : List Outcome} (head : Stepped I s o t)
      (tail : Ran I t os u) : Ran I s (o :: os) u

/-! ## What every run keeps -/

section
variable {P : Session σ → Prop} (hmove : ∀ {s r t}, Move I s r t → P s → P t)
include hmove

/-- What every move keeps, every chain of moves keeps. -/
theorem Moves.keeps (h : Moves I s r t) (hs : P s) : P t := by
  induction h with
  | refl => exact hs
  | cons head _ ih => exact ih (hmove head hs)

variable (hfault : ∀ {s e t}, Fault I s e t → P s → P t)
include hfault

theorem Stepped.keeps {o : Outcome} (h : Stepped I s o t) (hs : P s) : P t := by
  cases h with
  | sent h => exact h.keeps hmove hs
  | refused h => exact hfault (.refusal h) hs
  | reacted h => exact h.keeps hmove hs
  | failed h now =>
    obtain ⟨_, _, hmoves, hlast⟩ := h
    exact hmove (.terminate now) (hfault hlast (hmoves.keeps hmove hs))
  | closed h => exact h.keeps hmove hs

/-- What every move keeps, and every change that a failing call may still make, every run keeps. -/
theorem Ran.keeps {os : List Outcome} (h : Ran I s os t) (hs : P s) : P t := by
  induction h with
  | nil => exact hs
  | cons head _ ih => exact ih (head.keeps hmove hfault hs)

end

theorem Sound.fault {e : Error} (hs : Sound I s) (h : Fault I s e t) : Sound I t := by
  cases h with
  | refusal h => cases h <;> exact hs
  | _ => exact hs

theorem Sound.stepped {o : Outcome} (hs : Sound I s) (h : Stepped I s o t) : Sound I t :=
  h.keeps (fun hmove hs => hs.move hmove) (fun hfault hs => hs.fault hfault) hs

theorem Sound.ran {os : List Outcome} (hs : Sound I s) (h : Ran I s os t) : Sound I t :=
  h.keeps (fun hmove hs => hs.move hmove) (fun hfault hs => hs.fault hfault) hs

/-- Every run does what its outcomes say. The induction is on the operations. -/
theorem ran {ops : List Operation} (hs : Sound I s) (hops : ∀ op ∈ ops, op.Within I) :
    Ran I s (s.run ops).1 (s.run ops).2 := by
  induction ops generalizing s with
  | nil => exact .nil s
  | cons op ops ih =>
    obtain ⟨hop, hops⟩ := List.forall_mem_cons.mp hops
    have hstep := Session.stepped hs hop
    exact .cons hstep (ih (hs.stepped hstep) hops)

/-- The settings of a session never change. -/
theorem Stepped.config_eq {o : Outcome} (h : Stepped I s o t) : t.config = s.config :=
  h.keeps (P := fun t => t.config = s.config) (fun hmove hs => hmove.config_eq.trans hs)
    (fun hfault hs => hfault.config_eq.trans hs) rfl

theorem Ran.config_eq {os : List Outcome} (h : Ran I s os t) : t.config = s.config :=
  h.keeps (P := fun t => t.config = s.config) (fun hmove hs => hmove.config_eq.trans hs)
    (fun hfault hs => hfault.config_eq.trans hs) rfl

/-- A session with the given settings that goes on where the store left off. -/
def fresh (config : SessionConfig) (store : σ) (now : Nat) : Session σ where
  config := config
  store := store
  sequences := .resume store
  heartbeat := .startingAt config.heartbeatInterval config.testRequestGrace now
  recovery := .empty config.maxBufferedMessages
  state := .disconnected
  since := now
  terminated := false

/-- Opening a session checks its settings and does nothing else. -/
theorem open?_eq_ok_iff {config : SessionConfig} {store : σ} {now : Nat} :
    open? config store now = .ok s ↔ config.validate = .ok () ∧ s = fresh config store now := by
  unfold open?
  cases config.validate with
  | error e => exact iff_of_false nofun nofun
  | ok _ =>
    constructor
    · rintro ⟨⟩
      exact ⟨rfl, rfl⟩
    · rintro ⟨_, rfl⟩
      rfl

/-- Nothing waits in a new session. -/
theorem sound_of_open {config : SessionConfig} {store : σ} {now : Nat}
    (h : open? config store now = .ok s) : Sound I s := by
  obtain ⟨_, rfl⟩ := open?_eq_ok_iff.mp h
  exact nofun

end Session

end FixProtocol
