import FixProtocol.Proofs.Ends
import FixProtocol.Session.Operation

/-!
# How calls end

The rules for what only calls on a session do: they go on with a computation that does not touch the
session, and call the store.
-/

namespace FixProtocol

namespace Session.Call

variable {σ α : Type}

section
variable {s : Session σ} {Q : α → Session σ → Prop} {E : Error → Session σ → Prop}

@[simp] theorem ends_ofExcept {ε : Type} {wrap : ε → Error} {x : Except ε α} :
    Ends (ofExcept wrap x) s Q E ↔
      (∀ a, x = .ok a → Q a s) ∧ ∀ e, x = .error e → E (wrap e) s := by
  cases x with
  | ok a => simp [ofExcept]
  | error e => simp [ofExcept]

/-- A computation that is known to succeed goes on with its answer. -/
theorem ends_ofExcept_ok {ε : Type} {wrap : ε → Error} {x : Except ε α} {a : α} (h : x = .ok a) :
    Ends (ofExcept wrap x) s Q E ↔ Q a s := by
  rw [h]
  exact Iff.rfl

@[simp] theorem ends_onStore {f : σ → Except StoreError α × σ} :
    Ends (onStore f) s Q E ↔
      (∀ a store, f s.store = (.ok a, store) → Q a { s with store }) ∧
        ∀ e store, f s.store = (.error e, store) → E (.store e) { s with store } := by
  unfold Ends onStore
  rcases hf : f s.store with ⟨_ | _, store⟩
  · simp
  · simp

end

end Session.Call

/-- The answer of a call that cannot go wrong, and what it leaves behind. -/
theorem Session.run_of_ends {σ α : Type} {s : Session σ} {call : Call σ α}
    {Q : α → Session σ → Prop} (h : Ends call s Q fun _ _ => False) :
    ∃ x t, call.run s = (.ok x, t) ∧ Q x t := by
  unfold Ends at h
  unfold Call.run
  cases heq : call s with
  | ok x t =>
    rw [heq] at h
    exact ⟨x, t, rfl, h⟩
  | error e t =>
    rw [heq] at h
    exact h.elim

/-- The answer of a call that ends the session when it fails, if it cannot fail. -/
theorem Session.settle_of_ends {σ : Type} {s : Session σ} {call : Call σ Reaction}
    {Q : Reaction → Session σ → Prop} (h : Ends call s Q fun _ _ => False) (now : Moment) :
    ∃ r t, call.settle s now = (.ok r, t) ∧ Q r t := by
  unfold Ends at h
  unfold Call.settle
  cases heq : call s with
  | ok r t =>
    rw [heq] at h
    exact ⟨r, t, rfl, h⟩
  | error e t =>
    rw [heq] at h
    exact h.elim

/-- How a call fails that ends the session then, if it cannot succeed. -/
theorem Session.settle_of_fails {σ : Type} {s : Session σ} {call : Call σ Reaction}
    {E : Error → Session σ → Prop} (h : Ends call s (fun _ _ => False) E) (now : Moment) :
    ∃ (e : Error) (t : Session σ),
      call.settle s now = (.error ⟨e, .disconnect⟩, t.terminate now) ∧ E e t := by
  unfold Ends at h
  unfold Call.settle
  cases heq : call s with
  | ok r t =>
    rw [heq] at h
    exact h.elim
  | error e t =>
    rw [heq] at h
    exact ⟨e, t, rfl, h⟩

/-- What a call answers, or how it fails. -/
theorem Session.run_cases {σ α : Type} {s : Session σ} {call : Call σ α}
    {Q : α → Session σ → Prop} {E : Error → Session σ → Prop} (h : Ends call s Q E) :
    (∃ x t, call.run s = (.ok x, t) ∧ Q x t) ∨ ∃ e t, call.run s = (.error e, t) ∧ E e t := by
  unfold Ends at h
  unfold Call.run
  cases heq : call s with
  | ok x t =>
    rw [heq] at h
    exact .inl ⟨x, t, rfl, h⟩
  | error e t =>
    rw [heq] at h
    exact .inr ⟨e, t, rfl, h⟩

/-- What a call answers that ends the session when it fails. -/
theorem Session.settle_cases {σ : Type} {s : Session σ} {call : Call σ Reaction}
    {Q : Reaction → Session σ → Prop} {E : Error → Session σ → Prop} (h : Ends call s Q E)
    (now : Moment) :
    (∃ r t, call.settle s now = (.ok r, t) ∧ Q r t) ∨
      ∃ (e : Error) (t : Session σ),
        call.settle s now = (.error ⟨e, .disconnect⟩, t.terminate now) := by
  unfold Ends at h
  unfold Call.settle
  cases heq : call s with
  | ok r t =>
    rw [heq] at h
    exact .inl ⟨r, t, rfl, h⟩
  | error e t => exact .inr ⟨e, t, rfl⟩

/-- How a call failed that ends the session when it fails. -/
theorem Session.error_of_settle {σ : Type} {s : Session σ} {call : Call σ Reaction}
    {Q : Reaction → Session σ → Prop} {E : Error → Session σ → Prop} (h : Ends call s Q E)
    {now : Moment} {failure : Failure} (hfailed : (call.settle s now).1 = .error failure) :
    ∃ t, E failure.error t := by
  unfold Ends at h
  unfold Call.settle at hfailed
  cases heq : call s with
  | ok r t =>
    rw [heq] at hfailed
    cases hfailed
  | error e t =>
    rw [heq] at h hfailed
    cases hfailed
    exact ⟨t, h⟩

end FixProtocol
