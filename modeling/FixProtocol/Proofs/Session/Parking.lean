import FixProtocol.Proofs.Session.Gaps
import Mathlib.Data.List.Induction

/-!
# Parked messages come out once

What waits behind a gap can be told from the calls on the gap recovery and from their answers. A
message waits from the call that parks it until another takes its place, its number or a later one
is taken, or all is forgotten; no other call touches it. So taking a number hands out what was parked
there last, and every message that comes out had been parked by a call of its own.

- `GapRecovery.call`, `GapRecovery.run`: one call, and a sequence of calls with its log.
- `GapRecovery.Held`: what the log says of a message that waits.
- `GapRecovery.find?_call`: what one call does to what is parked.
- `GapRecovery.Reflects`: the gap recovery is what the log says; kept by every call.
- `GapRecovery.run_hands_out_once`: all of it, for every sequence of calls on a new gap recovery.
-/

namespace FixProtocol.GapRecovery

/-- A call on a gap recovery. -/
inductive Call where
  | park (n : SeqNum) (p : Parked)
  | takeReady (n : SeqNum)
  | start (first last : SeqNum) (now : Nat)
  | onAdvanced (n : SeqNum)
  | pollRetry (now : Nat) (n : SeqNum) (timeout limit : Nat)
  | clear
deriving DecidableEq

/-- What a call answers. -/
inductive Answer where
  | done
  | parked
  | refused (e : SessionError)
  | taken (ready : Option Parked)
  | closed (b : Bool)
  | decided (d : Option RetryDecision)
deriving DecidableEq

/-- Makes a call: what it answers, and the gap recovery after it. -/
def call (r : GapRecovery) : Call → Answer × GapRecovery
  | .park n p =>
    match r.park n p with
    | .ok s => (.parked, s)
    | .error e => (.refused e, r)
  | .takeReady n => (.taken (r.takeReady n).1, (r.takeReady n).2)
  | .start first last now => (.done, r.start first last now)
  | .onAdvanced n => (.closed (r.onAdvanced n).1, (r.onAdvanced n).2)
  | .pollRetry now n timeout limit =>
    (.decided (r.pollRetry now n timeout limit).1, (r.pollRetry now n timeout limit).2)
  | .clear => (.done, r.clear)

/-- Calls in order, each with its answer. -/
abbrev Log := List (Call × Answer)

/-- Makes one more call, and notes it. -/
def note (t : Log × GapRecovery) (c : Call) : Log × GapRecovery :=
  (t.1 ++ [(c, (t.2.call c).1)], (t.2.call c).2)

/-- Makes calls one after the other. -/
def run (r : GapRecovery) (cs : List Call) : Log × GapRecovery :=
  cs.foldl note ([], r)

theorem run_concat (r : GapRecovery) (cs : List Call) (c : Call) :
    r.run (cs ++ [c]) = note (r.run cs) c :=
  List.foldl_concat ..

/-- The log has the calls in their order. -/
theorem map_fst_run (r : GapRecovery) (cs : List Call) : (r.run cs).1.map Prod.fst = cs := by
  induction cs using List.reverseRecOn with
  | nil => rfl
  | append_singleton cs c ih =>
    rw [run_concat, note, List.map_append, ih]
    rfl

/-! ## What a log says -/

/-- The number that a call takes. -/
def expected? : Call → Option SeqNum
  | .takeReady n => some n
  | _ => none

/-- The numbers that calls take never descend. -/
def Ascends (cs : List Call) : Prop :=
  (cs.filterMap expected?).Pairwise (· ≤ ·)

instance (cs : List Call) : Decidable (Ascends cs) :=
  inferInstanceAs (Decidable ((cs.filterMap expected?).Pairwise (· ≤ ·)))

/-- Does a call act on what is parked under a number itself? It puts another message there, takes
it, or forgets everything. -/
def touches (n : SeqNum) : Call × Answer → Bool
  | (.park m _, .parked) => m = n
  | (.takeReady m, _) => m = n
  | (.clear, _) => true
  | _ => false

/-- Does a call take a later number? What is parked under this one is then stale. -/
def overtakes (n : SeqNum) (e : Call × Answer) : Bool :=
  (expected? e.1).any (n < ·)

/-- Is what was parked under a number before a call no longer there after it? -/
def removes (n : SeqNum) (e : Call × Answer) : Bool :=
  touches n e || overtakes n e

/-- The `i`-th call has parked a message under a number, and no call since has put an end to it. -/
structure LastParked (ends : SeqNum → Call × Answer → Bool) (log : Log) (i : Nat) (n : SeqNum)
    (p : Parked) : Prop where
  parked : log[i]? = some (.park n p, .parked)
  since : ∀ e ∈ log.drop (i + 1), ends n e = false

/-- The message that the `i`-th call has parked still waits. -/
abbrev Held : Log → Nat → SeqNum → Parked → Prop :=
  LastParked removes

/-- The `k`-th call hands out the message that the `i`-th call has parked. -/
def HandsOut (log : Log) (k i : Nat) : Prop :=
  ∃ n p, log[k]? = some (.takeReady n, .taken (some p)) ∧ Held (log.take k) i n p

/-- The number under which a call hands a message out. -/
def handedOut? : Call × Answer → Option SeqNum
  | (.takeReady n, .taken (some _)) => some n
  | _ => none

section Log

variable {log : Log} {e : Call × Answer} {i j k l : Nat} {n : SeqNum} {p q : Parked}

/-- Taking a number removes what is parked up to it. -/
theorem removes_takeReady (n m : SeqNum) (a : Answer) :
    removes n (.takeReady m, a) = decide (n ≤ m) := by
  simp only [removes, touches, overtakes, expected?, Option.any_some]
  grind

theorem Held.lt_length (h : Held log i n p) : i < log.length :=
  (List.getElem?_eq_some_iff.mp h.parked).1

/-- What waits after one more call waited before and was not removed, or was parked by this call. -/
theorem held_concat_iff :
    Held (log ++ [e]) i n p ↔
      Held log i n p ∧ removes n e = false ∨ i = log.length ∧ e = (.park n p, .parked) := by
  rcases Nat.lt_trichotomy i log.length with hlt | rfl | hgt
  · have hget : (log ++ [e])[i]? = log[i]? := List.getElem?_append_left hlt
    have hdrop : (log ++ [e]).drop (i + 1) = log.drop (i + 1) ++ [e] :=
      List.drop_append_of_le_length hlt
    constructor
    · rintro ⟨hparked, hsince⟩
      rw [hget] at hparked
      rw [hdrop, List.forall_mem_append, List.forall_mem_singleton] at hsince
      exact .inl ⟨⟨hparked, hsince.1⟩, hsince.2⟩
    · rintro (⟨h, hkept⟩ | ⟨rfl, -⟩)
      · refine ⟨hget.trans h.parked, ?_⟩
        rw [hdrop, List.forall_mem_append, List.forall_mem_singleton]
        exact ⟨h.since, hkept⟩
      · exact absurd hlt (Nat.lt_irrefl _)
  · have hget : (log ++ [e])[log.length]? = some e := List.getElem?_concat_length
    constructor
    · rintro ⟨hparked, -⟩
      exact .inr ⟨rfl, Option.some.inj (hget.symm.trans hparked)⟩
    · rintro (⟨h, -⟩ | ⟨-, rfl⟩)
      · exact absurd h.lt_length (Nat.lt_irrefl _)
      · refine ⟨hget, ?_⟩
        rw [List.drop_of_length_le (by simp)]
        exact List.forall_mem_nil _
  · constructor
    · intro h
      have hlt := h.lt_length
      rw [List.length_append, List.length_singleton] at hlt
      omega
    · rintro (⟨h, -⟩ | ⟨rfl, -⟩)
      · exact absurd h.lt_length (by omega)
      · exact absurd hgt (Nat.lt_irrefl _)

theorem exists_held_concat_iff :
    (∃ i, Held (log ++ [e]) i n p) ↔
      (∃ i, Held log i n p) ∧ removes n e = false ∨ e = (.park n p, .parked) := by
  simp only [held_concat_iff, exists_or, exists_and_right, exists_eq, true_and]

/-- What has been handed out is not changed by one more call. -/
theorem handsOut_concat_iff (hk : k < log.length) :
    HandsOut (log ++ [e]) k i ↔ HandsOut log k i := by
  unfold HandsOut
  rw [List.getElem?_append_left hk, List.take_append_of_le_length (Nat.le_of_lt hk)]

/-- A message comes out once: the call that takes it puts an end to its wait. -/
theorem HandsOut.not_lt (hk : HandsOut log k i) (hl : HandsOut log l i) : ¬ k < l := by
  intro hlt
  obtain ⟨n, p, htaken, hheld⟩ := hk
  obtain ⟨m, q, -, hheld'⟩ := hl
  have hik : i < k := Nat.lt_of_lt_of_le hheld.lt_length (List.length_take_le ..)
  have hsame : m = n := by
    have hparked := hheld.parked
    have hparked' := hheld'.parked
    rw [List.getElem?_take_of_lt hik] at hparked
    rw [List.getElem?_take_of_lt (Nat.lt_trans hik hlt), hparked] at hparked'
    cases hparked'
    rfl
  -- The earlier call lies between the parking and the later call, and takes the same number.
  have hbetween : (.takeReady n, .taken (some p)) ∈ (log.take l).drop (i + 1) := by
    refine List.mem_of_getElem? (i := k - (i + 1)) ?_
    rw [List.getElem?_drop, Nat.add_sub_cancel' hik, List.getElem?_take_of_lt hlt, htaken]
  have hkept := hheld'.since _ hbetween
  rw [removes_takeReady, hsame, decide_eq_false_iff_not] at hkept
  exact hkept (UInt64.le_refl n)

theorem HandsOut.unique (hk : HandsOut log k i) (hl : HandsOut log l i) : l = k :=
  Nat.le_antisymm (Nat.not_lt.mp (hk.not_lt hl)) (Nat.not_lt.mp (hl.not_lt hk))

/-- As long as no later number was taken, only what acts on the number itself ends a wait there. -/
theorem held_iff_of_le (h : ∀ m ∈ (log.map Prod.fst).filterMap expected?, m ≤ n) :
    Held log i n p ↔ LastParked touches log i n p := by
  have hsame : ∀ e ∈ log, removes n e = touches n e := by
    intro e he
    have hstale : overtakes n e = false := by
      rw [overtakes, Option.any_eq_false_iff_get]
      intro hsome
      have hle := h _ (List.mem_filterMap.mpr
        ⟨e.1, List.mem_map_of_mem he, (Option.some_get hsome).symm⟩)
      simpa using hle
    rw [removes, hstale, Bool.or_false]
  constructor
  · rintro ⟨hparked, hsince⟩
    exact ⟨hparked, fun e he => (hsame e (List.mem_of_mem_drop he)) ▸ hsince e he⟩
  · rintro ⟨hparked, hsince⟩
    exact ⟨hparked, fun e he => (hsame e (List.mem_of_mem_drop he)).trans (hsince e he)⟩

/-- A message comes out under the number that is taken. -/
theorem filterMap_handedOut?_sublist :
    (log.filterMap handedOut?).Sublist ((log.map Prod.fst).filterMap expected?) := by
  induction log with
  | nil => exact List.Sublist.slnil
  | cons e log ih =>
    obtain ⟨c, a⟩ := e
    rw [List.map_cons, List.filterMap_cons, List.filterMap_cons]
    cases c with
    | takeReady n =>
      cases a with
      | taken ready =>
        cases ready with
        | none => exact ih.cons n
        | some p => exact ih.cons_cons n
      | _ => exact ih.cons n
    | _ => exact ih

end Log

/-! ## What a call does -/

/-- A message is parked, or there is no room for it and nothing changes. -/
theorem call_park_cases (r : GapRecovery) (n : SeqNum) (p : Parked) :
    (r.hasRoom n = true ∧ ∃ s, r.park n p = .ok s ∧ r.call (.park n p) = (.parked, s)) ∨
      r.hasRoom n = false ∧ r.call (.park n p) = (.refused (r.overflow n), r) := by
  cases hroom : r.hasRoom n with
  | true =>
    have hpark : r.park n p = .ok _ := if_pos hroom
    exact .inl ⟨rfl, _, hpark, by rw [call, hpark]⟩
  | false => exact .inr ⟨rfl, by rw [call, park_of_not_hasRoom hroom]⟩

theorem find?_congr {r s : GapRecovery} (h : s.parked = r.parked) (n : SeqNum) :
    s.find? n = r.find? n := by
  rw [find?, h, find?]

/-- What is parked after a call was parked before and not removed by it, or was parked by it. -/
theorem find?_call (r : GapRecovery) (c : Call) (n : SeqNum) (p : Parked) :
    (r.call c).2.find? n = some p ↔
      r.find? n = some p ∧ removes n (c, (r.call c).1) = false ∨
        (c, (r.call c).1) = (.park n p, .parked) := by
  cases c with
  | park m q =>
    obtain ⟨-, s, hs, hcall⟩ | ⟨-, hcall⟩ := r.call_park_cases m q
    · rw [hcall, find?_park hs]
      by_cases hn : n = m
      · simp [removes, touches, hn]
      · simp [removes, touches, overtakes, expected?, hn, Ne.symm hn]
    · rw [hcall]
      simp [removes, touches, overtakes, expected?]
  | takeReady m =>
    show (r.takeReady m).2.find? n = some p ↔ _
    rw [find?_takeReady, removes_takeReady]
    by_cases hn : n ≤ m
    · simp [hn]
    · simp [hn]
  | start first last now =>
    show r.find? n = some p ↔ _
    simp [removes, touches, overtakes, expected?]
  | onAdvanced m =>
    show (r.onAdvanced m).2.find? n = some p ↔ _
    rw [find?_congr (Session.parked_onAdvanced r m)]
    simp [removes, touches, overtakes, expected?]
  | pollRetry now m timeout limit =>
    show (r.pollRetry now m timeout limit).2.find? n = some p ↔ _
    rw [find?_congr (Session.parked_pollRetry r now m timeout limit)]
    simp [removes, touches, overtakes, expected?]
  | clear =>
    show none = some p ↔ _
    simp [removes, touches]

theorem maxBuffered_call (r : GapRecovery) (c : Call) :
    (r.call c).2.maxBuffered = r.maxBuffered := by
  cases c with
  | park n p =>
    obtain ⟨-, s, hs, hcall⟩ | ⟨-, hcall⟩ := r.call_park_cases n p
    · rw [hcall]
      exact maxBuffered_park hs
    · rw [hcall]
  | onAdvanced n => exact r.maxBuffered_onAdvanced n
  | pollRetry now n timeout limit => exact r.maxBuffered_pollRetry now n timeout limit
  | _ => rfl

theorem size_call_le {r : GapRecovery} (h : r.size ≤ r.maxBuffered) (c : Call) :
    (r.call c).2.size ≤ r.maxBuffered := by
  cases c with
  | park n p =>
    obtain ⟨-, s, hs, hcall⟩ | ⟨-, hcall⟩ := r.call_park_cases n p
    · rw [hcall]
      exact size_park_le hs h
    · rw [hcall]
      exact h
  | takeReady n => exact Nat.le_trans (List.dropWhile_sublist _).length_le h
  | start first last now => exact h
  | onAdvanced n =>
    show (r.onAdvanced n).2.parked.length ≤ r.maxBuffered
    rw [Session.parked_onAdvanced]
    exact h
  | pollRetry now n timeout limit =>
    show (r.pollRetry now n timeout limit).2.parked.length ≤ r.maxBuffered
    rw [Session.parked_pollRetry]
    exact h
  | clear => exact Nat.zero_le _

/-! ## What a sequence of calls does -/

/-- A gap recovery is what a log says, and the log knows where each message came from. -/
structure Reflects (log : Log) (r : GapRecovery) : Prop where
  find?_iff : ∀ n p, r.find? n = some p ↔ ∃ i, Held log i n p
  handsOut : ∀ k n p, log[k]? = some (.takeReady n, .taken (some p)) → ∃ i, HandsOut log k i

/-- A gap recovery stays what the log says when the log takes up one more call. -/
theorem Reflects.call {log : Log} {r : GapRecovery} (h : Reflects log r) (c : Call) :
    Reflects (log ++ [(c, (r.call c).1)]) (r.call c).2 where
  find?_iff n p := by rw [find?_call, h.find?_iff, exists_held_concat_iff]
  handsOut k n p htaken := by
    rcases Nat.lt_trichotomy k log.length with hlt | rfl | hgt
    · rw [List.getElem?_append_left hlt] at htaken
      obtain ⟨i, hi⟩ := h.handsOut k n p htaken
      exact ⟨i, (handsOut_concat_iff hlt).mpr hi⟩
    · -- The last call hands out what was found, and the log says where that is from.
      have hlast := Option.some.inj (List.getElem?_concat_length.symm.trans htaken)
      obtain ⟨rfl, hanswer⟩ := Prod.mk.inj hlast
      have hfound : r.find? n = some p := Answer.taken.inj hanswer
      obtain ⟨i, hi⟩ := (h.find?_iff n p).mp hfound
      refine ⟨i, n, p, htaken, ?_⟩
      rw [List.take_left]
      exact hi
    · rw [List.getElem?_eq_none (by rw [List.length_append]; exact hgt)] at htaken
      cases htaken

theorem reflects_run (maxBuffered : Nat) (cs : List Call) :
    Reflects ((empty maxBuffered).run cs).1 ((empty maxBuffered).run cs).2 := by
  induction cs using List.reverseRecOn with
  | nil =>
    constructor
    · exact fun n p => iff_of_false nofun fun ⟨i, hi⟩ => absurd hi.lt_length (Nat.not_lt_zero i)
    · exact nofun
  | append_singleton cs c ih =>
    rw [run_concat]
    exact ih.call c

theorem size_run_le (maxBuffered : Nat) (cs : List Call) :
    ((empty maxBuffered).run cs).2.maxBuffered = maxBuffered ∧
      ((empty maxBuffered).run cs).2.size ≤ maxBuffered := by
  induction cs using List.reverseRecOn with
  | nil => exact ⟨rfl, Nat.zero_le _⟩
  | append_singleton cs c ih =>
    obtain ⟨hmax, hsize⟩ := ih
    rw [run_concat]
    refine ⟨(maxBuffered_call ..).trans hmax, ?_⟩
    have hnext := size_call_le (by rw [hmax]; exact hsize) c
    rwa [hmax] at hnext

/-- What a gap recovery holds, and what it answers next, in terms of the log. -/
structure Accounts (maxBuffered : Nat) (log : Log) (r : GapRecovery) : Prop where
  /-- Under each number waits what was parked there last, unless it was removed since. -/
  find?_iff (n : SeqNum) (p : Parked) : r.find? n = some p ↔ ∃ i, Held log i n p
  size_le : r.size ≤ maxBuffered
  /-- Taking a number hands out what waits there. What is above it stays as it is, and nothing else
  does. -/
  takeReady (n : SeqNum) :
    ∃ ready s, r.call (.takeReady n) = (.taken ready, s) ∧
      (∀ p, ready = some p ↔ ∃ i, Held log i n p) ∧
      ∀ m, s.find? m = if m ≤ n then none else r.find? m
  /-- A message for which there is room is parked, and the others stay. -/
  park (n : SeqNum) (p : Parked) :
    r.size < maxBuffered ∨ (r.find? n).isSome →
      ∃ s, r.call (.park n p) = (.parked, s) ∧
        ∀ m, s.find? m = if m = n then some p else r.find? m
  /-- Any other is refused, on account of the open request if there is one, and nothing changes. -/
  park_refused (n : SeqNum) (p : Parked) :
    r.size = maxBuffered → r.find? n = none →
      ∃ e, r.call (.park n p) = (.refused e, r) ∧
        (∀ range ∈ r.pending, e = .resendExhausted range.first range.last range.attempts) ∧
        (r.pending = none → e = .resendExhausted n n 0)

theorem Reflects.accounts {maxBuffered : Nat} {log : Log} {r : GapRecovery} (h : Reflects log r)
    (hmax : r.maxBuffered = maxBuffered) (hsize : r.size ≤ maxBuffered) :
    Accounts maxBuffered log r where
  find?_iff := h.find?_iff
  size_le := hsize
  takeReady n := ⟨r.find? n, (r.takeReady n).2, rfl, h.find?_iff n, r.find?_takeReady n⟩
  park n p hroom := by
    obtain ⟨-, s, hs, hcall⟩ | ⟨hfull, -⟩ := r.call_park_cases n p
    · exact ⟨s, hcall, find?_park hs⟩
    · rw [← hmax, ← hasRoom_iff, hfull] at hroom
      cases hroom
  park_refused n p hfull hnew := by
    obtain ⟨hroom, -⟩ | ⟨-, hcall⟩ := r.call_park_cases n p
    · rw [hasRoom_iff, hmax, hnew, hfull] at hroom
      rcases hroom with hlt | hsome
      · exact absurd hlt (Nat.lt_irrefl _)
      · cases hsome
    · refine ⟨r.overflow n, hcall, ?_, ?_⟩
      · intro range hrange
        rw [overflow, Option.mem_def.mp hrange]
      · intro hnone
        rw [overflow, hnone]

/-- **Parked messages come out once and in order.** After any calls on a new gap recovery, what it
holds and answers is told by the log, and it never holds more than it may. Each message that came
out had been parked by a call of its own. If the numbers that were taken never descend, the messages
came out in ascending order; and as long as that goes on, no message is stale when its turn comes:
what comes out next is what was parked there last, unless it was taken already or all was
forgotten. -/
theorem run_hands_out_once (maxBuffered : Nat) (cs : List Call) :
    let log := ((empty maxBuffered).run cs).1
    let r := ((empty maxBuffered).run cs).2
    Accounts maxBuffered log r ∧
      (∀ k n p, log[k]? = some (.takeReady n, .taken (some p)) →
        ∃ i, HandsOut log k i ∧ ∀ l, HandsOut log l i → l = k) ∧
      (Ascends cs → (log.filterMap handedOut?).Pairwise (· ≤ ·)) ∧
      (∀ n, Ascends (cs ++ [.takeReady n]) → ∀ p,
        (r.call (.takeReady n)).1 = .taken (some p) ↔ ∃ i, LastParked touches log i n p) := by
  intro log r
  have hreflects : Reflects log r := reflects_run maxBuffered cs
  have hcalls : log.map Prod.fst = cs := map_fst_run (empty maxBuffered) cs
  obtain ⟨hmax, hsize⟩ := size_run_le maxBuffered cs
  refine ⟨hreflects.accounts hmax hsize, ?_, ?_, ?_⟩
  · intro k n p htaken
    obtain ⟨i, hi⟩ := hreflects.handsOut k n p htaken
    exact ⟨i, hi, fun l hl => hi.unique hl⟩
  · intro hascends
    rw [Ascends, ← hcalls] at hascends
    exact hascends.sublist filterMap_handedOut?_sublist
  · intro n hascends p
    have hle : ∀ m ∈ (log.map Prod.fst).filterMap expected?, m ≤ n := by
      rw [Ascends, List.filterMap_append, List.pairwise_append] at hascends
      intro m hm
      exact hascends.2.2 m (hcalls ▸ hm) n (List.mem_singleton_self n)
    have hanswer : (r.call (.takeReady n)).1 = .taken (some p) ↔ r.find? n = some p :=
      ⟨Answer.taken.inj, congrArg Answer.taken⟩
    rw [hanswer, hreflects.find?_iff]
    exact exists_congr fun i => held_iff_of_le hle

/-- Of two messages that were parked under one number the second comes out, once. A message that
was refused for want of room is forgotten, and the next one under its number is what comes out. -/
theorem run_hands_out_second :
    let old : Parked := ⟨⟨[]⟩, [0]⟩
    let new : Parked := ⟨⟨[]⟩, [1]⟩
    let cs : List Call := [.park 5 old, .park 8 old, .park 8 new, .park 9 old, .start 6 7 0,
      .takeReady 6, .takeReady 8, .onAdvanced 9, .park 9 new]
    let log := ((empty 2).run cs).1
    let r := ((empty 2).run cs).2
    log.map Prod.snd = [.parked, .parked, .parked, .refused (.resendExhausted 9 9 0), .done,
        .taken none, .taken (some new), .closed true, .parked] ∧
      (∃ i, HandsOut log 6 i ∧ ∀ l, HandsOut log l i → l = 6) ∧
      Ascends (cs ++ [.takeReady 9]) ∧ (log.filterMap handedOut?).Pairwise (· ≤ ·) ∧
      (r.call (.takeReady 9)).1 = .taken (some new) ∧ ∃ i, LastParked touches log i 9 new := by
  intro old new cs log r
  obtain ⟨-, honce, hordered, hnext⟩ := run_hands_out_once 2 cs
  have hascends : Ascends (cs ++ [.takeReady 9]) := by decide
  have hanswer : (r.call (.takeReady 9)).1 = .taken (some new) := by decide
  exact ⟨by decide, honce 6 8 new (by decide), hascends, hordered (by decide), hanswer,
    (hnext 9 hascends new).mp hanswer⟩

end FixProtocol.GapRecovery
