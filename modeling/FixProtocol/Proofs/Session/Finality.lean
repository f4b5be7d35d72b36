import FixProtocol.Proofs.Session.Ended
import FixProtocol.Proofs.Session.Turns

/-!
# The end of a session is final

Once a session has ended, by a failure, a logout, or a transport that is gone, nothing brings it
back. It puts out nothing, hands over nothing and reports nothing, and neither its numbering nor its
store changes. A call that fails on it ends it again, to no further effect.

- `Session.Operation.finalOutcome`: what an operation answers on a session that has ended.
- `Session.Lasts`: a session has ended, and is as it was where it counts.
- `Session.lasts_step`, `Session.lasts_run`: one operation, and a list of them, on such a session.
- `Session.run_final`: every session that has ended has done so for good, and every call that
  answers with a failure ends its session.
-/

namespace FixProtocol.Session

variable {σ : Type} {α : Type} {s t u : Session σ}

/-- What is said to a call on a session that has ended. -/
def notOpen : Error :=
  .session (.invalidState "open session" "terminated")

/-- What an operation answers on a session that has ended. -/
def Operation.finalOutcome : Operation → Outcome
  | .logon _ | .send _ _ _ | .logout _ _ => .sent (.error notOpen)
  | .receive _ _ => .reacted (.error ⟨notOpen, .disconnect⟩)
  | .timer _ => .reacted (.ok .empty)
  | .disconnect _ => .closed

/-- From `s` to `t` a session has ended, and its numbering and its store are as they were. -/
structure Lasts (s t : Session σ) : Prop where
  terminated : t.terminated = true
  state : t.state = .disconnected
  sequences : t.sequences = s.sequences
  store : t.store = s.store

theorem Lasts.trans (h : Lasts s t) (h' : Lasts t u) : Lasts s u where
  terminated := h'.terminated
  state := h'.state
  sequences := h'.sequences.trans h.sequences
  store := h'.store.trans h.store

/-- Ending a session once more changes nothing that counts. -/
theorem lasts_terminate (s : Session σ) (now : Moment) : Lasts s (s.terminate now) where
  terminated := rfl
  state := rfl
  sequences := rfl
  store := rfl

/-- Nothing is produced by an operation on a session that has ended. -/
theorem Operation.finalOutcome_silent (op : Operation) :
    op.finalOutcome.frames = [] ∧ op.finalOutcome.delivered = [] ∧
      op.finalOutcome.reported = [] := by
  cases op <;> exact ⟨rfl, rfl, rfl⟩

/-- A call that needs an open session does nothing else on one that has ended. -/
theorem ensureOpen_bind (h : s.terminated = true) (rest : Call σ α) :
    (do ensureOpen; rest : Call σ α) s = .error notOpen s := by
  have hends : Ends (do ensureOpen; rest : Call σ α) s (fun _ _ => False)
      (fun e t => e = notOpen ∧ t = s) := by
    refine ends_bind.mpr (ends_ensureOpen.mpr ⟨fun _ => ⟨rfl, rfl⟩, fun hopen => ?_⟩)
    rw [h] at hopen
    cases hopen
  unfold Ends at hends
  split at hends
  · exact hends.elim
  · next heq => rw [heq, hends.1, hends.2]

section
variable [MessageStore σ]

/-- An operation on a session that has ended gives its final outcome and changes nothing. -/
theorem lasts_step (h : Lasts s s) (op : Operation) :
    (s.step op).1 = op.finalOutcome ∧ Lasts s (s.step op).2 := by
  -- What the owner asks for is refused before anything else is looked at.
  have hsent (rest : Call σ Bytes) :
      (do ensureOpen; rest : Call σ Bytes).run s = (.error notOpen, s) := by
    rw [Call.run, ensureOpen_bind h.terminated]
  have hreceived (rest : Call σ Reaction) (now : Moment) :
      (do ensureOpen; rest : Call σ Reaction).settle s now =
        (.error ⟨notOpen, .disconnect⟩, s.terminate now) := by
    rw [Call.settle, ensureOpen_bind h.terminated]
  cases op with
  | logon now =>
    rw [Session.step, logon, hsent]
    exact ⟨rfl, h⟩
  | send type fields now =>
    rw [Session.step, send, hsent]
    exact ⟨rfl, h⟩
  | logout text now =>
    rw [Session.step, logout, hsent]
    exact ⟨rfl, h⟩
  | receive frame now =>
    rw [Session.step, receive, process, hreceived]
    exact ⟨rfl, lasts_terminate s now⟩
  | timer now =>
    obtain ⟨r, t, hsettle, rfl, rfl⟩ := settle_of_ends (ends_tick_of_ended h.terminated now) now
    rw [Session.step, onTimer, hsettle]
    exact ⟨rfl, h⟩
  | disconnect now =>
    rw [Session.step, Session.disconnect, if_pos h.terminated]
    exact ⟨rfl, h⟩

/-- So does a list of operations. The induction is on the operations. -/
theorem lasts_run (h : Lasts s s) (ops : List Operation) :
    (s.run ops).1 = ops.map Operation.finalOutcome ∧ Lasts s (s.run ops).2 := by
  induction ops generalizing s with
  | nil => exact ⟨rfl, h⟩
  | cons op ops ih =>
    obtain ⟨houtcome, hstep⟩ := lasts_step h op
    have hself : Lasts (s.step op).2 (s.step op).2 := ⟨hstep.terminated, hstep.state, rfl, rfl⟩
    obtain ⟨houtcomes, hrun⟩ := ih hself
    constructor
    · rw [List.map_cons, ← houtcome, ← houtcomes]
      rfl
    · exact hstep.trans hrun

omit [MessageStore σ] in
theorem Steady.lasts (hs : Steady s) (hended : s.terminated = true) : Lasts s s where
  terminated := hended
  state := hs.ended hended
  sequences := rfl
  store := rfl

/-- In every state that a new session can reach, whatever its store: if it has ended there, every
further operation gives its final outcome, nothing is put out, handed over or reported, and the
session stays disconnected with its numbering and its store as they are. And every call that answers
with a failure has ended the session. -/
theorem run_final {config : SessionConfig} {store : σ} {start : Nat} {s₀ : Session σ}
    (h : open? config store start = .ok s₀) (before : List Operation) :
    ((s₀.run before).2.terminated = true → ∀ ops : List Operation,
      ((s₀.run before).2.run ops).1 = ops.map Operation.finalOutcome ∧
      (∀ o ∈ ((s₀.run before).2.run ops).1,
        o.frames = [] ∧ o.delivered = [] ∧ o.reported = []) ∧
      Lasts (s₀.run before).2 ((s₀.run before).2.run ops).2) ∧
    ∀ op failure t, (s₀.run before).2.step op = (.reacted (.error failure), t) →
      t.terminated = true := by
  have hsteady : Steady (s₀.run before).2 := (steady_of_open h).run before
  constructor
  · intro hended ops
    obtain ⟨houtcomes, hlasts⟩ := lasts_run (hsteady.lasts hended) ops
    refine ⟨houtcomes, ?_, hlasts⟩
    intro o ho
    rw [houtcomes] at ho
    obtain ⟨op, _, rfl⟩ := List.mem_map.mp ho
    exact op.finalOutcome_silent
  · intro op failure t hfailed
    exact hsteady.terminated_of_failed hfailed

end

/-- A session fails while it takes a message that was parked, and has counted that message. After
this it is logged on to, sent to, written to and disconnected, to no effect. -/
theorem run_final_acceptor :
    let s₀ : Session MemoryStore := .fresh Sample.acceptor .empty 0
    let before : List Operation := [.receive (Sample.logon Sample.initiator) Sample.moment,
      .receive (Sample.frame Sample.initiator .resendRequest 3 []) Sample.moment]
    let order : Operation :=
      .receive (Sample.frame Sample.initiator .newOrderSingle 2 []) Sample.moment
    let more : List Operation := [.receive (Sample.logon Sample.initiator) Sample.moment,
      .send .newOrderSingle [] Sample.moment, .logout none Sample.moment, .timer Sample.moment,
      .disconnect Sample.moment]
    let s := (s₀.run (before ++ [order])).2
    open? Sample.acceptor MemoryStore.empty 0 = .ok s₀ ∧
      (∃ failure t, (s₀.run before).2.step order = (.reacted (.error failure), t) ∧
        t.terminated = true) ∧
      s.terminated = true ∧ s.sequences.expectedIncoming = 4 ∧
      (s.run more).1 = [.reacted (.error ⟨notOpen, .disconnect⟩), .sent (.error notOpen),
        .sent (.error notOpen), .reacted (.ok .empty), .closed] ∧
      (s.run more).2.state = .disconnected ∧ (s.run more).2.sequences.expectedIncoming = 4 := by
  intro s₀ before order more s
  have hended : s.terminated = true := by decide +kernel
  have hcounted : s.sequences.expectedIncoming = 4 := by decide +kernel
  obtain ⟨hfinal, _⟩ := run_final Sample.open_acceptor (before ++ [order])
  obtain ⟨houtcomes, _, hlasts⟩ := hfinal hended more
  obtain ⟨_, hfailed⟩ := run_final Sample.open_acceptor before
  refine ⟨Sample.open_acceptor, ?_, hended, hcounted, houtcomes, hlasts.state, ?_⟩
  · have hfailure : ((s₀.run before).2.step order).1.failure?.isSome = true := by decide +kernel
    cases hstep : (s₀.run before).2.step order with
    | mk o t =>
      rw [hstep] at hfailure
      cases o with
      | reacted answer =>
        cases answer with
        | ok r => cases hfailure
        | error failure => exact ⟨failure, t, rfl, hfailed order failure t hstep⟩
      | _ => cases hfailure
  · rw [hlasts.sequences]
    exact hcounted

end FixProtocol.Session
