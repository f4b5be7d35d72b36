/-!
# How computations end

A computation changes a state and answers, or changes it and fails. `Ends` says what is known in
either case. There is one rule for each way of putting computations together, so that what one does
can be read off its text; what is proved of a computation is used where it is made.
-/

namespace FixProtocol

variable {ε τ α β : Type}

/-- A computation ends with an answer and a state for which `Q` holds, or fails and leaves an error
and a state for which `E` holds. -/
def Ends (c : EStateM ε τ α) (s : τ) (Q : α → τ → Prop) (E : ε → τ → Prop) : Prop :=
  match c s with
  | .ok a s' => Q a s'
  | .error e s' => E e s'

section
variable {s : τ} {Q : α → τ → Prop} {E : ε → τ → Prop}

theorem Ends.mono {c : EStateM ε τ α} {Q' : α → τ → Prop} {E' : ε → τ → Prop}
    (h : Ends c s Q E) (hQ : ∀ a t, Q a t → Q' a t) (hE : ∀ e t, E e t → E' e t) :
    Ends c s Q' E' := by
  unfold Ends at h ⊢
  split at h
  · exact hQ _ _ h
  · exact hE _ _ h

/-- What follows from the answer is known where nothing more is said of failures. -/
theorem Ends.imp {c : EStateM ε τ α} {Q' : α → τ → Prop} (h : Ends c s Q E)
    (hQ : ∀ a t, Q a t → Q' a t) : Ends c s Q' E :=
  h.mono hQ (fun _ _ he => he)

/-- What is known of the end of a computation in two ways is known together. -/
theorem Ends.and {c : EStateM ε τ α} {Q' : α → τ → Prop} {E' : ε → τ → Prop}
    (h : Ends c s Q E) (h' : Ends c s Q' E') :
    Ends c s (fun a t => Q a t ∧ Q' a t) (fun e t => E e t ∧ E' e t) := by
  unfold Ends at h h' ⊢
  cases heq : c s with
  | ok a t =>
    rw [heq] at h h'
    exact ⟨h, h'⟩
  | error e t =>
    rw [heq] at h h'
    exact ⟨h, h'⟩

@[simp] theorem ends_pure {a : α} : Ends (pure a : EStateM ε τ α) s Q E ↔ Q a s := Iff.rfl

@[simp] theorem ends_throw {e : ε} : Ends (throw e : EStateM ε τ α) s Q E ↔ E e s := Iff.rfl

@[simp] theorem ends_bind {c : EStateM ε τ β} {f : β → EStateM ε τ α} :
    Ends (c >>= f) s Q E ↔ Ends c s (fun b t => Ends (f b) t Q E) E := by
  unfold Ends
  show (match EStateM.bind c f s with | .ok a s' => Q a s' | .error e s' => E e s') ↔ _
  unfold EStateM.bind
  cases c s <;> rfl

@[simp] theorem ends_map {c : EStateM ε τ β} {f : β → α} :
    Ends (f <$> c) s Q E ↔ Ends c s (fun b t => Q (f b) t) E := by
  unfold Ends
  show (match EStateM.map f c s with | .ok a s' => Q a s' | .error e s' => E e s') ↔ _
  unfold EStateM.map
  cases c s <;> rfl

end

section
variable {s : τ} {E : ε → τ → Prop}

@[simp] theorem ends_get {Q : τ → τ → Prop} : Ends (get : EStateM ε τ τ) s Q E ↔ Q s s := Iff.rfl

@[simp] theorem ends_set {t : τ} {Q : PUnit → τ → Prop} :
    Ends (set t : EStateM ε τ PUnit) s Q E ↔ Q ⟨⟩ t := Iff.rfl

@[simp] theorem ends_modify {f : τ → τ} {Q : PUnit → τ → Prop} :
    Ends (modify f : EStateM ε τ PUnit) s Q E ↔ Q ⟨⟩ (f s) := Iff.rfl

@[simp] theorem ends_modifyGet {f : τ → α × τ} {Q : α → τ → Prop} :
    Ends (modifyGet f : EStateM ε τ α) s Q E ↔ Q (f s).1 (f s).2 := Iff.rfl

end

end FixProtocol
