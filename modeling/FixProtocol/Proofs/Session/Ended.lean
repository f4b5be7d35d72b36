import FixProtocol.Proofs.Session.Calls

/-!
# Sessions that have ended

A session that has ended is disconnected and stays so. It ends in every call that fails.

- `Session.Steady`: what every operation keeps of a session, whatever its store does.
- `Session.Steady.terminated_of_failed`: a call that answers with a failure has ended the session.
- `Session.Steady.stands_of_refused`: a call that is refused leaves the session where it stands.
-/

namespace FixProtocol.Session

variable {σ : Type} [MessageStore σ] {I : Inputs} {s t : Session σ} {r : Reaction} {e : Error}

/-- A session that has ended is disconnected. -/
def EndsDisconnected (s : Session σ) : Prop :=
  s.terminated = true → s.state = .disconnected

theorem EndsDisconnected.move (hs : EndsDisconnected s) (h : Move I s r t) :
    EndsDisconnected t := by
  cases h with
  | enter now hopen hstate =>
    intro hended
    exact absurd hended (Bool.eq_false_iff.mp hopen)
  | terminate now => exact fun _ => rfl
  | _ => exact hs

theorem EndsDisconnected.fault (hs : EndsDisconnected s) (h : Fault I s e t) :
    EndsDisconnected t := by
  cases h with
  | refusal h => cases h <;> exact hs
  | _ => exact hs

theorem EndsDisconnected.stepped {o : Outcome} (hs : EndsDisconnected s) (h : Stepped I s o t) :
    EndsDisconnected t :=
  h.keeps (fun hmove hs => hs.move hmove) (fun hfault hs => hs.fault hfault) hs

/-- A refusal leaves the session where it stands. -/
theorem Refusal.stands (h : Refusal s e t) : t.state = s.state ∧ t.terminated = s.terminated := by
  cases h with
  | idle => exact ⟨rfl, rfl⟩
  | unkept => exact ⟨rfl, rfl⟩

/-- What every operation keeps of a session, whatever its store does. -/
structure Steady (s : Session σ) : Prop where
  sound : Sound .any s
  ended : EndsDisconnected s

theorem Steady.stepped (hs : Steady s) (op : Operation) {o : Outcome} (h : s.step op = (o, t)) :
    Stepped .any s o t := by
  have hstep := stepped_any hs.sound op
  rwa [h] at hstep

theorem Steady.step (hs : Steady s) (op : Operation) {o : Outcome} (h : s.step op = (o, t)) :
    Steady t where
  sound := hs.sound.stepped (hs.stepped op h)
  ended := hs.ended.stepped (hs.stepped op h)

/-- Every run keeps it. The induction is on the operations. -/
theorem Steady.run (hs : Steady s) (ops : List Operation) : Steady (s.run ops).2 := by
  induction ops generalizing s with
  | nil => exact hs
  | cons op ops ih => exact ih (hs.step op rfl)

theorem steady_of_open {config : SessionConfig} {store : σ} {now : Nat}
    (h : open? config store now = .ok s) : Steady s where
  sound := sound_of_open h
  ended := by
    obtain ⟨_, rfl⟩ := open?_eq_ok_iff.mp h
    exact nofun

/-! ## What ends a session -/

omit [MessageStore σ] in
theorem terminated_disconnect (s : Session σ) (now : Moment) :
    (s.disconnect now).terminated = true := by
  unfold Session.disconnect
  split
  · next hended => exact hended
  · rfl

/-- A call that answers with a failure has ended the session. -/
theorem Steady.terminated_of_failed (hs : Steady s) {op : Operation} {f : Failure}
    (h : s.step op = (.reacted (.error f), t)) : t.terminated = true := by
  cases hs.stepped op h with
  | failed h now => rfl

/-- A call that is refused leaves the session where it stands. -/
theorem Steady.stands_of_refused (hs : Steady s) {op : Operation}
    (h : s.step op = (.sent (.error e), t)) :
    t.state = s.state ∧ t.terminated = s.terminated := by
  cases hs.stepped op h with
  | refused h => exact h.stands

end FixProtocol.Session
