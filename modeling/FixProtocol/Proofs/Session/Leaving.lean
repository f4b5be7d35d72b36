import FixProtocol.Proofs.Session.Clocked
import FixProtocol.Proofs.Session.Expecting
import FixProtocol.Proofs.Session.Finality

/-!
# The wait for the answer to a logout

A session that has written its logout waits for the one of the counterparty. It still takes messages
and answers them, and asks for what is missing; but of all that it takes only a logout ends it, and
while it goes on, it remembers when the wait began.

- `Session.IsLeaving`: the session waits since a time.
- `Session.TookLogout`: the last message that it took was a logout.
- `Session.Lingers`: one or the other, within a call; every part of a call keeps it.
- `Session.IsLeaving.received`, `Session.IsLeaving.timed`, `Session.IsLeaving.refuses`: what a
  frame, the timer and the application do to the wait.
-/

namespace FixProtocol.Session

open Call

variable {σ : Type} {s t : Session σ} {now : Moment} {since : Nat} {I : Inputs}

/-- The session wrote its logout at a time, and waits for that of the counterparty. -/
structure IsLeaving (since : Nat) (s : Session σ) : Prop where
  isOpen : s.terminated = false
  state : s.state = .logoutSent
  since_eq : s.since = since

/-- The last message that the session took is a logout of the counterparty. -/
def TookLogout (I : Inputs) (s : Session σ) : Prop :=
  ∃ n p, Genuine I s.config n p ∧ p.message.msgType = .logout ∧
    s.sequences.expectedIncoming = n + 1

/-- Within a call: the session still waits for a logout, or has ended with one. -/
inductive Lingers (I : Inputs) (s : Session σ) : Prop
  | waits (hopen : s.terminated = false) (hstate : s.state = .logoutSent) (hsound : Sound I s)
  | answered (hended : HasEnded s) (hlogout : TookLogout I s)

/-- A session that goes on in its state goes on waiting. -/
theorem Remains.lingers (h : Remains s t) (hopen : s.terminated = false)
    (hstate : s.state = .logoutSent) (hsound : Sound I t) : Lingers I t :=
  .waits (h.terminated.trans hopen) (h.state.trans hstate) hsound

/-- As long as the session goes on, it waits. -/
theorem Lingers.waiting (h : Lingers I s) (hopen : s.terminated = false) :
    s.state = .logoutSent ∧ Sound I s := by
  cases h with
  | waits _ hstate hsound => exact ⟨hstate, hsound⟩
  | answered hended _ =>
    rw [hended.terminated] at hopen
    cases hopen

variable [MessageStore σ] {n : SeqNum} {p : Parked}

/-! ## Messages in order -/

/-- A message that was counted ends the wait if it is a logout, and only then. -/
theorem ends_dispatch_lingers (hopen : s.terminated = false) (hstate : s.state = .logoutSent)
    (hsound : Sound I s) (hp : Genuine I s.config n p)
    (hn : s.sequences.expectedIncoming = n + 1) (replaying : Bool) (now : Moment) :
    Ends (dispatch p.message replaying now) s (fun _ t => Lingers I t) Anyhow := by
  by_cases htype : p.message.msgType = .logout
  · -- The logout is not confirmed, as it is the answer to one.
    refine ends_dispatch_logout htype (ends_onLogout (fun _ => ?_) fun hne => absurd hstate hne)
    exact .answered (hasEnded_terminate s now) ⟨n, p, hp, htype, hn⟩
  · refine (ends_dispatch_advances p.message replaying now).imp ?_
    rintro _ t (⟨hlogout, _⟩ | hadvances)
    · exact absurd hlogout htype
    · exact hadvances.lingers hopen hstate
        (hsound.of_recovery_eq hadvances.config hadvances.recovery)

theorem ends_accept_lingers (hopen : s.terminated = false) (hstate : s.state = .logoutSent)
    (hsound : Sound I s) (hp : Genuine I s.config n p)
    (hn : s.sequences.expectedIncoming = n + 1) (replaying : Bool) (now : Moment) :
    Ends (accept n p replaying now) s (fun _ t => Lingers I t) Anyhow :=
  ends_accept (fun store _ =>
    ends_dispatch_lingers (s := { s with store }) hopen hstate hsound hp hn replaying now)
    (fun _ _ _ => trivial)

/-! ## Messages from behind a gap -/

/-- The parked messages are taken up to the first logout. -/
theorem ends_replay_lingers (hs : Lingers I s) (now : Moment) (count : Nat) :
    Ends (replay now count) s (fun _ t => Lingers I t) Anyhow := by
  refine ends_replay_keeps (P := fun _ t => Lingers I t) ?_ ?_ hs count
  · intro _ t hopen ht
    obtain ⟨hstate, hsound⟩ := ht.waiting hopen
    exact .waits hopen hstate (hsound.move .release)
  · intro _ t p hopen ht hready
    obtain ⟨hstate, hsound⟩ := ht.waiting hopen
    have hp := hsound.find? hready
    have hreleased : Sound I t.released := hsound.move .release
    exact ends_observe_next hp.valid rfl (ends_accept_lingers
      (s := t.released.counted t.sequences.expectedIncoming) hopen hstate hreleased hp rfl true now)

theorem ends_requestResend_lingers (hopen : s.terminated = false) (hstate : s.state = .logoutSent)
    (hsound : Sound I s) {first last : SeqNum} (hle : first ≤ last) (now : Moment) :
    Ends (requestResend first last now) s (fun _ t => Lingers I t) Anyhow := by
  refine ((ends_requestResend_clocked first last now).and
    (does_requestResend (I := I) hle now)).anyhow ?_
  rintro r t ⟨⟨_, hclocked⟩, hmoves⟩
  exact hclocked.lingers hopen hstate (hsound.moves hmoves)

theorem ends_closeGap_lingers (hopen : s.terminated = false) (hstate : s.state = .logoutSent)
    (hsound : Sound I s) (now : Moment) :
    Ends (closeGap now) s (fun _ t => Lingers I t) Anyhow := by
  have hclosed : Sound I s.advanced := hsound.move .close
  exact ends_closeGap (fun _ => .waits hopen hstate hclosed) fun _ _ _ hlt =>
    ends_requestResend_lingers (s := s.advanced) hopen hstate hclosed (SeqNum.le_sub_one hlt) now

theorem ends_drain_lingers (hs : Lingers I s) (now : Moment) :
    Ends (drain now) s (fun _ t => Lingers I t) Anyhow := by
  refine ends_drain_keeps (P := fun _ t => Lingers I t) (ends_replay_lingers hs now _)
    fun hopen ht => ?_
  obtain ⟨hstate, hsound⟩ := ht.waiting hopen
  exact ends_closeGap_lingers hopen hstate hsound now

/-! ## Frames -/

theorem ends_onNumbered_lingers (hopen : s.terminated = false) (hstate : s.state = .logoutSent)
    (hsound : Sound I s) (hp : Genuine I s.config n p) (now : Moment) :
    Ends (onNumbered n p now) s (fun _ t => Lingers I t) Anyhow := by
  refine ends_onNumbered hp.valid (fun _ => .waits hopen hstate hsound) (fun _ => ?_)
    (fun hgt recovery hpark => ?_) fun _ _ _ => trivial
  · exact (ends_accept_lingers (s := s.counted n) hopen hstate hsound hp rfl false now).imp
      fun _ _ ht => ends_drain_lingers ht now
  · have hparked : Sound I { s with recovery } := hsound.move (.park hp hgt hpark)
    exact ⟨fun _ => .waits hopen hstate hparked, fun _ =>
      ends_requestResend_lingers (s := { s with recovery }) hopen hstate hparked
        (SeqNum.le_sub_one hgt) now⟩

/-- What a frame does to a session that waits, if the call does not fail. -/
theorem ends_process_leaving (hs : IsLeaving since s) (hsound : Sound I s) {frame : Bytes}
    (hframe : I.frame frame) (now : Moment) :
    Ends (process frame now) s (fun _ t => IsLeaving since t ∨ HasEnded t ∧ TookLogout I t)
      Anyhow := by
  have hestablished : s.state.isEstablished = true :=
    SessionState.isEstablished_iff.mpr (.inr hs.state)
  have hlate : ¬ s.state.isEstablished = false := ne_false_of_eq_true hestablished
  have htimely : Ends (process frame now) s (Timely now (s.heard now)) Anyhow :=
    ends_process hframe (fun _ _ _ _ _ => trivial) (fun _ hearly => absurd hearly hlate)
      (fun _ _ _ m _ _ => ends_reset_timely m now)
      (fun _ _ _ m hp _ => ends_onNumbered_timely hp.valid ⟨m, frame⟩ now)
  have hlingers : Ends (process frame now) s (fun _ t => Lingers I t) Anyhow := by
    refine ends_process hframe (fun _ _ _ _ _ => trivial) (fun _ hearly => absurd hearly hlate)
      (fun _ _ _ m _ _ => ?_) fun _ _ _ m hp _ =>
        ends_onNumbered_lingers (s := s.heard now) hs.isOpen hs.state hsound hp now
    refine (ends_applySequenceReset_advances m).imp fun _ t hadvances => ?_
    exact ends_drain_lingers (hadvances.lingers hs.isOpen hs.state
      (Sound.of_recovery_eq (s := s) hsound hadvances.config hadvances.recovery)) now
  refine (htimely.and hlingers).anyhow ?_
  rintro r t ⟨⟨_, htimely⟩, hlingers⟩
  cases hlingers with
  | answered hended hlogout => exact .inr ⟨hended, hlogout⟩
  | waits hopen hstate _ =>
    rcases htimely with hended | hclocked
    · rw [hended.terminated] at hopen
      cases hopen
    · exact .inl ⟨hopen, hstate, hclocked.since.trans hs.since_eq⟩

/-! ## Operations -/

/-- After a frame the session goes on waiting, unless the call fails or a logout was taken. -/
theorem IsLeaving.received (hs : IsLeaving since s) (hsound : Sound I s) {frame : Bytes}
    (hframe : I.frame frame) {r : Reaction}
    (h : s.step (.receive frame now) = (.reacted (.ok r), t)) :
    IsLeaving since t ∨ HasEnded t ∧ TookLogout I t := by
  have h : (Outcome.reacted (s.receive frame now).1, (s.receive frame now).2) =
    (.reacted (.ok r), t) := h
  unfold receive at h
  rcases settle_cases (ends_process_leaving hs hsound hframe now) now with
    ⟨_, u, hsettle, hu⟩ | ⟨e, u, hsettle⟩
  · rw [hsettle] at h
    cases h
    exact hu
  · rw [hsettle] at h
    cases h

/-- A session that has ended does not react to a frame. -/
theorem HasEnded.step_receive_ne (hs : HasEnded s) (frame : Bytes) (now : Moment) (r : Reaction) :
    s.step (.receive frame now) ≠ (.reacted (.ok r), t) := by
  intro hstep
  have hlasts : Lasts s s := ⟨hs.terminated, hs.state, rfl, rfl⟩
  have hfinal := (lasts_step hlasts (.receive frame now)).1
  rw [hstep] at hfinal
  cases hfinal

/-- The timer ends the wait when its time is up, and does nothing before. -/
theorem IsLeaving.timed (hs : IsLeaving since s) (now : Moment) :
    s.step (.timer now) = (.reacted (.ok .empty),
      if s.config.logoutTimeout ≤ now.elapsed - since then s.terminate now else s) := by
  have hends : Ends (tick now) s
      (fun r t => r = .empty ∧
        t = if s.config.logoutTimeout ≤ now.elapsed - since then s.terminate now else s)
      fun _ _ => False := by
    obtain ⟨hopen, hstate, rfl⟩ := hs
    refine ends_tick (fun hunhurried => ?_) (fun _ hsent => ?_) (fun _ _ hover => ?_)
      fun _ hon => ?_
    · cases hunhurried with
      | ended hended => cases hended.symm.trans hopen
      | disconnected hdisconnected => cases hdisconnected.symm.trans hstate
      | logonSent hsent _ => cases hsent.symm.trans hstate
      | logoutSent _ hearly => exact ⟨rfl, (if_neg (Nat.not_le.mpr hearly)).symm⟩
    · cases hsent.symm.trans hstate
    · exact ⟨rfl, (if_pos hover).symm⟩
    · cases hon.symm.trans hstate
  obtain ⟨_, _, hsettle, rfl, rfl⟩ := settle_of_ends hends now
  show (Outcome.reacted (s.onTimer now).1, (s.onTimer now).2) = _
  rw [onTimer, hsettle]

/-- What the application wants to send is refused, and changes nothing. -/
theorem IsLeaving.refuses (hs : IsLeaving since s) (type : MsgType) (fields : List Field)
    (now : Moment) : ∃ e, (send type fields now).run s = (.error e, s) := by
  have hends : Ends (send type fields now) s (fun _ _ => False) (fun _ t => t = s) := by
    refine ends_send (fun _ _ _ => rfl) fun _ hon => ?_
    cases hon.symm.trans hs.state
  rcases run_cases hends with ⟨_, _, _, hnever⟩ | ⟨e, _, hrun, rfl⟩
  · exact hnever.elim
  · exact ⟨e, hrun⟩

/-- The wait begins when the logout is written. -/
theorem isLeaving_of_logout {text : Option String} {frame : Bytes}
    (h : (logout text now).run s = (.ok frame, t)) :
    IsLeaving now.elapsed t ∧ Wire.isOf .logout frame = true := by
  rcases run_cases (ends_logout_emits (s := s) text now) with
    ⟨_, _, hrun, hopen, _, u, hemits, rfl⟩ | ⟨_, _, hrun, _⟩
  · rw [hrun] at h
    cases h
    refine ⟨⟨hemits.utters.terminated.trans hopen, rfl, rfl⟩, ?_⟩
    rw [← Bool.or_false (Wire.isOf _ _)]
    exact hemits.among .logout
  · rw [hrun] at h
    cases h

end FixProtocol.Session
