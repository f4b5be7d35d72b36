import FixProtocol.Proofs.Session.Finality
import FixProtocol.Proofs.Session.States

/-!
# What a session has to tell

Over any store, what a session hands over ascends in number and lies between the numbers that it
expected before and after. What it reports does not end it, and what ends it is a failure of another
kind. Before it is logged on it has nothing to tell.

- `Session.Ascends`: messages with ascending numbers between two bounds.
- `Session.Stepped.ascends`: what an operation hands over.
- `Session.Steady.not_fatal`, `Session.Steady.fatal_of_failed`: what an operation reports, and how
  it fails.
- `Session.Settled.logs_on`: the first operation with something to tell logs the session on.
-/

namespace FixProtocol.Session

variable {σ : Type}

/-- The messages have numbers that ascend, from `first` on and below `next`. -/
structure Ascends (first : SeqNum) (ms : List Message) (next : SeqNum) : Prop where
  le : first ≤ next
  numbers : ∃ ns : List SeqNum, ms.map Message.seqNum? = ns.map some ∧ ns.Pairwise (· < ·) ∧
    ∀ n ∈ ns, first ≤ n ∧ n < next

theorem Ascends.nothing {first next : SeqNum} (h : first ≤ next) : Ascends first [] next :=
  ⟨h, [], rfl, .nil, nofun⟩

theorem Ascends.trans {first middle next : SeqNum} {ms ms' : List Message}
    (h : Ascends first ms middle) (h' : Ascends middle ms' next) :
    Ascends first (ms ++ ms') next := by
  obtain ⟨hle, ns, hms, hascending, hbetween⟩ := h
  obtain ⟨hle', ns', hms', hascending', hbetween'⟩ := h'
  refine ⟨UInt64.le_trans hle hle', ns ++ ns', ?_, ?_, ?_⟩
  · rw [List.map_append, List.map_append, hms, hms']
  · refine List.pairwise_append.mpr ⟨hascending, hascending', fun n hn n' hn' => ?_⟩
    exact UInt64.lt_of_lt_of_le (hbetween n hn).2 (hbetween' n' hn').1
  · intro n hn
    rcases List.mem_append.mp hn with hn | hn
    · exact ⟨(hbetween n hn).1, UInt64.lt_of_lt_of_le (hbetween n hn).2 hle'⟩
    · exact ⟨UInt64.le_trans hle (hbetween' n hn).1, (hbetween' n hn).2⟩

variable [MessageStore σ] {I : Inputs} {s t : Session σ} {r : Reaction} {o : Outcome} {e : Error}
  {op : Operation}

/-! ## What is handed over -/

/-- A move hands over at most the message that it counts. -/
theorem Move.ascends (h : Move I s r t) :
    Ascends s.sequences.expectedIncoming r.delivered t.sequences.expectedIncoming := by
  cases h with
  | @take n p store hp hn _ =>
    subst hn
    show Ascends _ (handedOver p.message) (s.sequences.expectedIncoming + 1)
    unfold handedOver
    split
    · exact .nothing (SeqNum.le_succ_of_isValid hp.valid)
    · refine ⟨SeqNum.le_succ_of_isValid hp.valid, [s.sequences.expectedIncoming], ?_,
        List.pairwise_singleton .., fun n hn => ?_⟩
      · rw [List.map_singleton, hp.numbered, List.map_singleton]
      · rw [List.mem_singleton.mp hn]
        exact ⟨UInt64.le_refl _, SeqNum.lt_succ_of_isValid hp.valid⟩
  | countLogon hp _ hn =>
    subst hn
    exact .nothing (SeqNum.le_succ_of_isValid hp.valid)
  | advance _ _ _ _ hle => exact .nothing hle
  | _ => exact .nothing (UInt64.le_refl _)

theorem Moves.ascends (h : Moves I s r t) :
    Ascends s.sequences.expectedIncoming r.delivered t.sequences.expectedIncoming := by
  induction h with
  | refl => exact .nothing (UInt64.le_refl _)
  | cons head _ ih => exact head.ascends.trans ih

/-- The expected number does not fall when a call fails. -/
theorem Fault.le_expected (h : Fault I s e t) :
    s.sequences.expectedIncoming ≤ t.sequences.expectedIncoming := by
  cases h with
  | refusal h =>
    rw [h.utters.expected]
    exact UInt64.le_refl _
  | missed hp hn _ =>
    subst hn
    exact SeqNum.le_succ_of_isValid hp.valid
  | _ => exact UInt64.le_refl _

/-- What an operation hands over has numbers from the one that was expected up to the one that is
expected next. -/
theorem Stepped.ascends (h : Stepped I s o t) :
    Ascends s.sequences.expectedIncoming o.delivered t.sequences.expectedIncoming := by
  cases h with
  | sent h => exact .nothing h.ascends.le
  | refused h => exact .nothing (Fault.refusal (I := I) h).le_expected
  | reacted h => exact h.ascends
  | failed h now =>
    obtain ⟨_, _, hmoves, hfault⟩ := h
    exact .nothing (UInt64.le_trans hmoves.ascends.le hfault.le_expected)
  | closed h => exact .nothing h.ascends.le

/-! ## What is reported -/

theorem Move.not_fatal (h : Move I s r t) : ∀ f ∈ r.reported, f.isFatal = false := by
  cases h with
  | start first last now hle =>
    intro f hf
    rw [List.mem_singleton.mp hf]
    rfl
  | duplicate hlt =>
    intro f hf
    rw [List.mem_singleton.mp hf]
    rfl
  | _ => exact nofun

theorem Moves.not_fatal (h : Moves I s r t) : ∀ f ∈ r.reported, f.isFatal = false := by
  induction h with
  | refl => exact nofun
  | cons head _ ih =>
    rintro f hf
    rcases List.mem_append.mp hf with hf | hf
    · exact head.not_fatal f hf
    · exact ih f hf

/-- What is reported does not end the session. -/
theorem Steady.not_fatal (hs : Steady s) (h : s.step op = (.reacted (.ok r), t)) :
    ∀ f ∈ r.reported, f.isFatal = false := by
  cases hs.stepped op h with
  | reacted hmoves => exact hmoves.not_fatal

/-- A failure that a call answers with is one that ends the session. -/
theorem Steady.fatal_of_failed (hs : Steady s) {f : Failure}
    (h : s.step op = (.reacted (.error f), t)) : f.isFatal = true := by
  cases hs.stepped op h with
  | failed h now => rfl

/-! ## Before logon -/

/-- Nothing is due before messages are exchanged but the end of the wait. -/
theorem ends_tick_early (hearly : s.state.isEstablished = false) (now : Moment) :
    Ends (tick now) s (fun r _ => r = .empty) Anyhow := by
  refine ends_tick (fun _ => rfl) (fun _ _ _ => trivial) (fun _ _ _ => rfl) fun _ hstate => ?_
  rw [hstate] at hearly
  cases hearly

/-- A reaction before messages are exchanged logs the session on, or there is nothing to tell. -/
theorem Settled.logs_on (hs : Settled s) (hearly : s.state.isEstablished = false)
    (h : s.step op = (.reacted (.ok r), t)) : t.state = .loggedOn ∨ r.reported = [] := by
  have houtcome : (s.step op).1 = .reacted (.ok r) := congrArg Prod.fst h
  cases hs with
  | ended hended =>
    have hlasts : Lasts s s := ⟨hended.terminated, hended.state, rfl, rfl⟩
    rw [(lasts_step hlasts op).1] at houtcome
    cases op with
    | timer now =>
      cases houtcome
      exact .inr rfl
    | _ => cases houtcome
  | idle hidles =>
    cases op with
    | receive frame now =>
      have h : (Outcome.reacted (s.receive frame now).1, (s.receive frame now).2) =
        (.reacted (.ok r), t) := h
      rcases settle_cases (ends_process_steps hidles frame now) now with
        ⟨r', t', hsettle, _, hlogon⟩ | ⟨e, t', hsettle⟩
      · rw [receive, hsettle] at h
        cases h
        exact .inl (hlogon hearly)
      · rw [receive, hsettle] at h
        cases h
    | timer now =>
      have h : (Outcome.reacted (s.onTimer now).1, (s.onTimer now).2) =
        (.reacted (.ok r), t) := h
      rcases settle_cases (ends_tick_early hearly now) now with
        ⟨r', t', hsettle, hempty⟩ | ⟨e, t', hsettle⟩
      · rw [onTimer, hsettle] at h
        cases h
        exact .inr (congrArg Reaction.reported hempty)
      · rw [onTimer, hsettle] at h
        cases h
    | _ => cases houtcome

/-- Nothing that is sent logs a session on. -/
theorem Settled.early_of_sent (hs : Settled s) (hearly : s.state.isEstablished = false)
    {answer : Except Error Bytes} (h : s.step op = (.sent answer, t)) :
    t.state.isEstablished = false := by
  have hsteps : Steps s op (s.step op).1 (s.step op).2 := hs.steps op
  have houtcome : (s.step op).1 = .sent answer := congrArg Prod.fst h
  rw [h] at hsteps
  refine hsteps.isEstablished_eq hearly fun hlogged => ?_
  rcases hsteps.passes with hsame | hpasses
  · rw [← hsame, hlogged] at hearly
    cases hearly
  · rw [hlogged] at hpasses
    generalize s.state = state at hpasses
    cases hpasses with
    | answered => cases houtcome
    | accepted => cases houtcome

end FixProtocol.Session
