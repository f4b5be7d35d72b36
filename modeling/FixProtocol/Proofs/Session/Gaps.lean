import FixProtocol.Proofs.Session.States

/-!
# Gap recovery

What is parked waits behind the expected number, and it waits for something: a request is open that
begins no later than the expected number and ends no earlier. Requests are repeated up to the limit,
and no more is parked than there is room for.

- `GapRecovery.length_insertAscending`, `GapRecovery.size_park_le`: parking stays within the room.
- `Moderate`: how much is parked and how often it was asked for; every move keeps it.
- `Recovers`: what gap recovery keeps between two calls.
- `run_recovers`: it keeps that over every run, and never asks for nothing.
-/

namespace FixProtocol

namespace GapRecovery

/-- An entry that takes the place of another adds nothing. -/
theorem length_insertAscending {ps : List (SeqNum × Parked)}
    (h : (ps.map Prod.fst).Pairwise (· < ·)) (n : SeqNum) (p : Parked) :
    (insertAscending n p ps).length =
      if (ps.lookup n).isSome then ps.length else ps.length + 1 := by
  induction ps with
  | nil => rfl
  | cons e ps ih =>
    obtain ⟨k, q⟩ := e
    rw [List.map_cons, List.pairwise_cons] at h
    unfold insertAscending
    by_cases hlt : n < k
    · have hnone : List.lookup n ((k, q) :: ps) = none := by
        refine lookup_eq_none_of_lt fun m hm => ?_
        rcases List.mem_cons.mp hm with rfl | hm
        · exact hlt
        · exact UInt64.lt_trans hlt (h.1 m hm)
      rw [if_pos hlt, hnone]
      rfl
    · by_cases heq : n = k
      · rw [if_neg hlt, if_pos heq, heq, List.lookup_cons_self]
        rfl
      · have hskip : List.lookup n ((k, q) :: ps) = List.lookup n ps := by
          rw [List.lookup_cons, beq_false_of_ne heq]
        rw [if_neg hlt, if_neg heq, hskip, List.length_cons, ih h.2]
        split
        · rfl
        · rfl

/-- A message is parked only if there is room for it. -/
theorem size_park_le {r r' : GapRecovery} {n : SeqNum} {p : Parked} (h : r.park n p = .ok r')
    (hsize : r.size ≤ r.maxBuffered) : r'.size ≤ r.maxBuffered := by
  obtain ⟨hroom, hparked, -⟩ := park_eq_ok_iff.mp h
  rw [size, hparked, length_insertAscending r.ascending]
  split
  · exact hsize
  · next hnew =>
    -- A message that replaces none is parked only below the bound.
    exact (hasRoom_iff.mp hroom).resolve_right hnew

theorem maxBuffered_onAdvanced (r : GapRecovery) (n : SeqNum) :
    (r.onAdvanced n).2.maxBuffered = r.maxBuffered := by
  unfold onAdvanced
  split
  · split <;> rfl
  · rfl

theorem maxBuffered_pollRetry (r : GapRecovery) (now : Nat) (n : SeqNum) (timeout limit : Nat) :
    (r.pollRetry now n timeout limit).2.maxBuffered = r.maxBuffered := by
  rcases r.pollRetry_cases now n timeout limit with
    ⟨heq, _⟩ | ⟨_, _, _, _, heq⟩ | ⟨_, _, _, _, heq⟩
  all_goals rw [heq]

/-- A request is repeated once more, and only below the limit. -/
theorem attempts_pollRetry {r : GapRecovery} {now : Nat} {n : SeqNum} {timeout limit : Nat}
    (h : ∀ range ∈ r.pending, 1 ≤ range.attempts ∧ range.attempts ≤ limit) :
    ∀ range ∈ (r.pollRetry now n timeout limit).2.pending,
      1 ≤ range.attempts ∧ range.attempts ≤ limit := by
  rcases r.pollRetry_cases now n timeout limit with
    ⟨heq, _⟩ | ⟨_, _, _, _, heq⟩ | ⟨range, _, _, hleft, heq⟩
  · rw [heq]
    exact h
  · rw [heq]
    exact h
  · rw [heq]
    rintro _ ⟨⟩
    exact ⟨Nat.le_add_left 1 _, hleft⟩

end GapRecovery

namespace Session

variable {σ : Type} [MessageStore σ] {I : Inputs} {s t : Session σ} {r : Reaction}

/-! ## How much is parked -/

/-- No more is parked than there is room for, and no request was made more often than allowed. -/
structure Moderate (s : Session σ) : Prop where
  room : s.recovery.maxBuffered = s.config.maxBufferedMessages
  size : s.recovery.size ≤ s.config.maxBufferedMessages
  limit : 1 ≤ s.config.resendRetryLimit
  attempts : ∀ range ∈ s.recovery.pending,
    1 ≤ range.attempts ∧ range.attempts ≤ s.config.resendRetryLimit

theorem Moderate.move (hs : Moderate s) (h : Move I s r t) : Moderate t := by
  cases h with
  | park _ _ hpark =>
    refine ⟨(GapRecovery.maxBuffered_park hpark).trans hs.room, ?_, hs.limit, ?_⟩
    · have hsize : s.recovery.size ≤ s.recovery.maxBuffered := by
        rw [hs.room]
        exact hs.size
      exact Nat.le_trans (GapRecovery.size_park_le hpark hsize) (Nat.le_of_eq hs.room)
    · show ∀ range ∈ _, _
      rw [GapRecovery.pending_park hpark]
      exact hs.attempts
  | release =>
    refine ⟨hs.room, Nat.le_trans ?_ hs.size, hs.limit, hs.attempts⟩
    exact (List.dropWhile_sublist _).length_le
  | start first last now hle =>
    refine ⟨hs.room, hs.size, hs.limit, ?_⟩
    rintro _ ⟨⟩
    exact ⟨Nat.le_refl 1, hs.limit⟩
  | close =>
    refine ⟨(GapRecovery.maxBuffered_onAdvanced ..).trans hs.room, ?_, hs.limit, ?_⟩
    · rw [GapRecovery.size, parked_onAdvanced]
      exact hs.size
    · exact fun range h => hs.attempts range (GapRecovery.mem_pending_onAdvanced h).1
  | retry now =>
    refine ⟨(GapRecovery.maxBuffered_pollRetry ..).trans hs.room, ?_, hs.limit, ?_⟩
    · rw [GapRecovery.size, parked_pollRetry]
      exact hs.size
    · exact GapRecovery.attempts_pollRetry hs.attempts
  | terminate now => exact ⟨hs.room, Nat.zero_le _, hs.limit, nofun⟩
  | _ => exact ⟨hs.room, hs.size, hs.limit, hs.attempts⟩

theorem Moderate.fault {e : Error} (hs : Moderate s) (h : Fault I s e t) : Moderate t := by
  cases h with
  | refusal h => cases h <;> exact ⟨hs.room, hs.size, hs.limit, hs.attempts⟩
  | _ => exact ⟨hs.room, hs.size, hs.limit, hs.attempts⟩

theorem moderate_of_open {config : SessionConfig} {store : σ} {start : Nat}
    (h : open? config store start = .ok s) : Moderate s := by
  obtain ⟨hvalid, rfl⟩ := open?_eq_ok_iff.mp h
  obtain ⟨_, _, _, _, _, _, _, hlimit, _⟩ := SessionConfig.validate_eq_ok_iff.mp hvalid
  exact ⟨rfl, Nat.zero_le _, Nat.one_le_iff_ne_zero.mpr hlimit, nofun⟩

theorem moderate_run_of_open {config : SessionConfig} {store : σ} {start : Nat}
    (h : open? config store start = .ok s) (ops : List Operation) : Moderate (s.run ops).2 :=
  (ran_of_open h ops).keeps (fun hmove hs => hs.move hmove) (fun hfault hs => hs.fault hfault)
    (moderate_of_open h)

/-! ## Gap recovery -/

/-- What gap recovery keeps between two calls. -/
structure Recovers (c : SessionConfig) (s : Session σ) : Prop where
  behind : s.terminated = false →
    ∀ e ∈ s.recovery.parked, s.sequences.expectedIncoming < e.1
  asked : s.terminated = false → s.recovery.parked ≠ [] → s.recovery.isRequesting = true
  range : s.terminated = false → ∀ range ∈ s.recovery.pending,
    range.first ≤ s.sequences.expectedIncoming ∧ s.sequences.expectedIncoming ≤ range.last ∧
      1 ≤ range.attempts ∧ range.attempts ≤ c.resendRetryLimit
  room : s.recovery.parked.length ≤ c.maxBufferedMessages
  ended : s.terminated = true → s.recovery.parked = [] ∧ s.recovery.pending = none

omit [MessageStore σ] in
theorem Settled.recovers (hs : Settled s) (hmoderate : Moderate s) : Recovers s.config s := by
  cases hs with
  | ended h =>
    have hclosed : ¬ s.terminated = false := by
      rw [h.terminated]
      exact nofun
    exact ⟨fun hopen => absurd hopen hclosed, fun hopen => absurd hopen hclosed,
      fun hopen => absurd hopen hclosed, hmoderate.size, fun _ => ⟨h.parked, h.pending⟩⟩
  | idle h =>
    refine ⟨fun _ => h.waits.behind, fun _ => h.waits.asked, fun _ range hrange => ?_,
      hmoderate.size, fun hended => ?_⟩
    · obtain ⟨hfirst, hlast⟩ := h.waits.range range hrange
      exact ⟨hfirst, hlast, hmoderate.attempts range hrange⟩
    · rw [h.isOpen] at hended
      cases hended

/-- What is written when time passes asks for nothing, or for the expected message on. -/
theorem Settled.prompts (hs : Settled s) {now : Moment} (h : s.onTimer now = (.ok r, t)) :
    ∀ frame ∈ r.outbound, ∃ m, Prompts s frame m := by
  have hends : Ends (tick now) s (fun r _ => ∀ frame ∈ r.outbound, ∃ m, Prompts s frame m)
      Anyhow := by
    cases hs with
    | ended hs =>
      refine (ends_tick_of_ended hs.terminated now).imp ?_
      rintro _ _ ⟨rfl, rfl⟩
      exact List.forall_mem_nil _
    | idle hs => exact (ends_tick_steps hs now).imp fun _ _ h => h.2
  unfold onTimer at h
  rcases settle_cases hends now with ⟨_, _, hsettle, hprompts⟩ | ⟨_, _, hsettle⟩
  · rw [h] at hsettle
    cases hsettle
    exact hprompts
  · rw [h] at hsettle
    cases hsettle

/-- In every state that a new session can reach, whatever arrives: as long as it is open, all that
is parked waits behind the expected number, a request is open if anything is parked, and an open
request covers the expected number and was made once at least and no more often than allowed; no
more is parked than there is room for. Once it has ended, nothing is parked and nothing is
requested. A request that is repeated asks for the expected message at least. -/
theorem run_recovers {config : SessionConfig} {store : σ} {start : Nat} {s₀ : Session σ}
    (h : open? config store start = .ok s₀) (ops : List Operation) :
    let s := (s₀.run ops).2
    Recovers config s ∧ ∀ now r t, s.onTimer now = (.ok r, t) →
      ∀ frame ∈ r.outbound, ∃ m, Prompts s frame m := by
  intro s
  have hsettled : Settled s := settled_run_of_open h ops
  have hconfig : s.config = config := config_run_of_open h ops
  have hmoderate : Moderate s := (ran_of_open h ops).keeps (fun hmove hs => hs.move hmove)
    (fun hfault hs => hs.fault hfault) (moderate_of_open h)
  refine ⟨hconfig ▸ hsettled.recovers hmoderate, ?_⟩
  intro now r t htimer
  exact hsettled.prompts htimer

/-- An order arrives at an acceptor from behind a gap: it is parked, the one before it is asked for,
and asked for again when it has not come in time. -/
theorem run_recovers_acceptor :
    let s₀ : Session MemoryStore := .fresh Sample.acceptor .empty 0
    let ops : List Operation := [.receive (Sample.logon Sample.initiator) Sample.moment,
      .receive (Sample.frame Sample.initiator .newOrderSingle 3 []) Sample.moment]
    let s := (s₀.run ops).2
    let later : Moment := { Sample.moment with elapsed := 30000 }
    open? Sample.acceptor MemoryStore.empty 0 = .ok s₀ ∧
      s.recovery.parked.map Prod.fst = [3] ∧ s.recovery.pending = some ⟨2, 2, 1, 0⟩ ∧
      Recovers Sample.acceptor s ∧
      ∃ r t, s.onTimer later = (.ok r, t) ∧ r.outbound.length = 2 ∧
        ∀ frame ∈ r.outbound, ∃ m, Prompts s frame m := by
  intro s₀ ops s later
  obtain ⟨hrecovers, hprompts⟩ := run_recovers Sample.open_acceptor ops
  have hlength : (s.onTimer later).1.toOption.map (·.outbound.length) = some 2 := by
    decide +kernel
  refine ⟨Sample.open_acceptor, by decide +kernel, by decide +kernel, hrecovers, ?_⟩
  cases htimer : s.onTimer later with
  | mk answer t =>
    rw [htimer] at hlength
    cases answer with
    | error e => cases hlength
    | ok r => exact ⟨r, t, rfl, Option.some.inj hlength, hprompts later r t htimer⟩

end Session

end FixProtocol
