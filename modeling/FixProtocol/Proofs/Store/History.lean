import FixProtocol.Store.Memory
import Mathlib.Data.List.DropRight

/-!
# The history of a store in memory

What a store in memory holds can be told from the calls that were made on it and from their answers
alone. For each direction the messages are those whose appends were answered with success since the
last reset, and the number to go on with is the last one that was set, raised by those appends that
came after it.

- `MemoryStore.call`, `MemoryStore.run`: one call, and a sequence of calls with its log.
- `MemoryStore.kept`, `MemoryStore.counter`: what a log says of a direction.
- `MemoryStore.Reflects`: a journal is what a log says; kept by every call.
- `MemoryStore.run_filter`: a direction only sees its own calls and the resets.
- `MemoryStore.run_accounts`: all of it, for every sequence of calls on a new store.
-/

namespace FixProtocol.MemoryStore

/-- A call on a store. -/
inductive Call where
  | append (d : Direction) (n : SeqNum) (bs : Bytes)
  | setNextSeq (d : Direction) (n : SeqNum)
  | reset
  | range (d : Direction) (first last : SeqNum)
  | nextSeq (d : Direction)
  | size (d : Direction)
  | contains (d : Direction) (n : SeqNum)
deriving DecidableEq

/-- What a call answers. -/
inductive Answer where
  | done
  | refused (e : StoreError)
  | messages (found : List (SeqNum × Bytes))
  | number (n : SeqNum)
  | count (n : Nat)
  | truth (b : Bool)
deriving DecidableEq

/-- Makes a call: what it answers, and the store after it. -/
def call (s : MemoryStore) : Call → Answer × MemoryStore
  | .append d n bs =>
    match s.append d n bs with
    | (.ok (), s') => (.done, s')
    | (.error e, s') => (.refused e, s')
  | .setNextSeq d n => (.done, s.setNextSeq d n)
  | .reset => (.done, s.reset)
  | .range d first last => (.messages (s.range d first last), s)
  | .nextSeq d => (.number (s.nextSeq d), s)
  | .size d => (.count (s.size d), s)
  | .contains d n => (.truth (s.contains d n), s)

/-- Calls in order, each with its answer. -/
abbrev Log := List (Call × Answer)

/-- Makes calls one after the other. -/
def run (s : MemoryStore) : List Call → Log × MemoryStore
  | [] => ([], s)
  | c :: cs =>
    let (a, s') := s.call c
    let (log, s'') := run s' cs
    ((c, a) :: log, s'')

theorem run_concat (s : MemoryStore) (cs : List Call) (c : Call) :
    s.run (cs ++ [c]) =
      ((s.run cs).1 ++ [(c, ((s.run cs).2.call c).1)], ((s.run cs).2.call c).2) := by
  induction cs generalizing s with
  | nil => rfl
  | cons b cs ih =>
    show (let (log, t) := run (s.call b).2 (cs ++ [c]); ((b, (s.call b).1) :: log, t)) = _
    rw [ih]
    rfl

/-! ## What a call does -/

/-- An append keeps the message, or is refused and leaves the store as it is. -/
theorem call_append_cases (s : MemoryStore) (d : Direction) (n : SeqNum) (bs : Bytes) :
    (∃ j, (s.journal d).append n bs = .ok j ∧
      s.call (.append d n bs) = (.done, s.withJournal d j)) ∨
    n ≤ (s.journal d).last ∧
      s.call (.append d n bs) = (.refused (.notMonotonic n (s.journal d).last), s) := by
  cases h : (s.journal d).append n bs with
  | ok j => exact .inl ⟨j, rfl, by simp [call, append, h]⟩
  | error e =>
    obtain ⟨hle, rfl⟩ := Journal.append_eq_error_iff.mp h
    exact .inr ⟨hle, by simp [call, append, h]⟩

/-- Does a call act on a direction? A reset acts on both. -/
def Call.concerns (d : Direction) : Call → Bool
  | .append d' _ _ => d' = d
  | .setNextSeq d' _ => d' = d
  | .reset => true
  | .range d' _ _ => d' = d
  | .nextSeq d' => d' = d
  | .size d' => d' = d
  | .contains d' _ => d' = d

/-- A call on the other direction leaves a journal as it is. -/
theorem journal_call_of_not_concerns {d : Direction} {c : Call} (h : c.concerns d = false)
    (s : MemoryStore) : (s.call c).2.journal d = s.journal d := by
  cases c with
  | append d' n bs =>
    have hne : d ≠ d' := fun he => by simp [Call.concerns, he] at h
    obtain ⟨j, -, hcall⟩ | ⟨-, hcall⟩ := s.call_append_cases d' n bs
    · rw [hcall]
      exact journal_withJournal_other hne s j
    · rw [hcall]
  | setNextSeq d' n =>
    have hne : d ≠ d' := fun he => by simp [Call.concerns, he] at h
    exact journal_withJournal_other hne s _
  | reset => simp [Call.concerns] at h
  | range d' first last => rfl
  | nextSeq d' => rfl
  | size d' => rfl
  | contains d' n => rfl

/-- What a call on a direction answers and leaves there depends on the journal of this direction
only. -/
theorem call_of_concerns {d : Direction} {c : Call} (h : c.concerns d = true) {s t : MemoryStore}
    (hj : s.journal d = t.journal d) :
    (s.call c).1 = (t.call c).1 ∧ (s.call c).2.journal d = (t.call c).2.journal d := by
  cases c with
  | append d' n bs =>
    obtain rfl : d' = d := by simpa [Call.concerns] using h
    cases happend : (t.journal d').append n bs <;> simp [call, append, hj, happend]
  | reset => exact ⟨rfl, rfl⟩
  | setNextSeq d' n =>
    obtain rfl : d' = d := by simpa [Call.concerns] using h
    simp [call, setNextSeq, hj]
  | range d' first last =>
    obtain rfl : d' = d := by simpa [Call.concerns] using h
    simp [call, range, hj]
  | nextSeq d' =>
    obtain rfl : d' = d := by simpa [Call.concerns] using h
    simp [call, nextSeq, hj]
  | size d' =>
    obtain rfl : d' = d := by simpa [Call.concerns] using h
    simp [call, size, hj]
  | contains d' n =>
    obtain rfl : d' = d := by simpa [Call.concerns] using h
    simp [call, contains, hj]

/-- Without the calls on the other direction, the calls on a direction answer the same. -/
theorem run_filter (d : Direction) (cs : List Call) {s t : MemoryStore}
    (hj : s.journal d = t.journal d) :
    (t.run (cs.filter (·.concerns d))).1 = (s.run cs).1.filter (·.1.concerns d) := by
  induction cs generalizing s t with
  | nil => rfl
  | cons c cs ih =>
    cases hc : c.concerns d with
    | true =>
      obtain ⟨hanswer, hjournal⟩ := call_of_concerns hc hj
      simp only [List.filter_cons, hc, if_true, run, hanswer, ih hjournal]
    | false =>
      have hjournal := (journal_call_of_not_concerns hc s).trans hj
      simp [hc, run, ih hjournal]

/-! ## What a log says -/

/-- The message that a call has kept for a direction. -/
def kept? (d : Direction) : Call × Answer → Option (SeqNum × Bytes)
  | (.append d' n bs, .done) => if d' = d then some (n, bs) else none
  | _ => none

/-- The messages kept for a direction since the last reset. -/
def kept (d : Direction) (log : Log) : List (SeqNum × Bytes) :=
  (log.rtakeWhile (·.1 ≠ .reset)).filterMap (kept? d)

/-- The number of the last message kept for a direction since the last reset, or zero. -/
def lastKept (d : Direction) (log : Log) : SeqNum :=
  ((kept d log).getLast?.map Prod.fst).getD 0

/-- The number to which a call sets what a direction goes on with. -/
def sets? (d : Direction) : Call → Option SeqNum
  | .setNextSeq d' n => if d' = d then some n else none
  | .reset => some .first
  | _ => none

/-- The number to which a direction was last set, given the one it started with. -/
def lastSet (d : Direction) (start : SeqNum) (log : Log) : SeqNum :=
  (log.filterMap fun e => sets? d e.1).getLast?.getD start

/-- The messages kept for a direction since it was last set. -/
def keptSinceSet (d : Direction) (log : Log) : List (SeqNum × Bytes) :=
  (log.rtakeWhile fun e => (sets? d e.1).isNone).filterMap (kept? d)

/-- What a direction goes on with: the number it was last set to, raised above each message kept
since. -/
def counter (d : Direction) (start : SeqNum) (log : Log) : SeqNum :=
  (keptSinceSet d log).foldl (fun m e => max m e.1.next) (lastSet d start log)

/-- A journal of a direction is what a log says of it. -/
structure Reflects (d : Direction) (start : SeqNum) (log : Log) (j : Journal) : Prop where
  entries : j.entries = kept d log
  nextSeq : j.nextSeq = counter d start log

theorem Reflects.last {d : Direction} {start : SeqNum} {log : Log} {j : Journal}
    (h : Reflects d start log j) : j.last = lastKept d log := by
  rw [lastKept, ← h.entries, Journal.last]
  cases hlast : j.entries.getLast? with
  | none =>
    have hnil : j.entries = [] := List.getLast?_eq_none_iff.mp hlast
    simp [hnil]
  | some e =>
    obtain ⟨es, hes⟩ := List.getLast?_eq_some_iff.mp hlast
    simp only [hes, List.map_append, List.map_cons, List.map_nil, ← List.cons_append,
      List.getLast_concat, Option.map_some, Option.getD_some]

/-! ## What one more call adds -/

section Concat

variable (d : Direction) (start : SeqNum) (log : Log)

theorem kept_concat_of_ne {e : Call × Answer} (h : e.1 ≠ .reset) :
    kept d (log ++ [e]) = kept d log ++ (kept? d e).toList := by
  rw [kept, List.rtakeWhile_concat_pos _ _ _ (by simpa using h), List.filterMap_append]
  cases hk : kept? d e <;> simp [kept, hk]

theorem kept_concat_reset (a : Answer) : kept d (log ++ [(.reset, a)]) = [] := by
  rw [kept, List.rtakeWhile_concat_neg _ _ _ (by simp)]
  rfl

/-- A call that does not set the number raises it, if it has kept a message. -/
theorem counter_concat_of_none {e : Call × Answer} (h : sets? d e.1 = none) :
    counter d start (log ++ [e]) =
      (kept? d e).elim (counter d start log) fun m => max (counter d start log) m.1.next := by
  rw [counter, keptSinceSet, lastSet, List.rtakeWhile_concat_pos _ _ _ (by simp [h])]
  cases hk : kept? d e <;>
    simp [counter, keptSinceSet, lastSet, List.filterMap_append, h, hk]

/-- A call that sets the number leaves it there. -/
theorem counter_concat_of_some {e : Call × Answer} {n : SeqNum} (h : sets? d e.1 = some n) :
    counter d start (log ++ [e]) = n := by
  rw [counter, keptSinceSet, lastSet, List.rtakeWhile_concat_neg _ _ _ (by simp [h])]
  simp [List.filterMap_append, h]

end Concat

/-- A call that neither keeps a message of a direction nor sets its number is not seen in it. -/
theorem Reflects.concat_of_none {d : Direction} {start : SeqNum} {log : Log} {j : Journal}
    (h : Reflects d start log j) {e : Call × Answer} (hk : kept? d e = none)
    (hs : sets? d e.1 = none) : Reflects d start (log ++ [e]) j := by
  have hreset : e.1 ≠ .reset := by
    intro he
    simp [he, sets?] at hs
  constructor
  · rw [kept_concat_of_ne d log hreset, hk, h.entries]
    simp
  · rw [counter_concat_of_none d start log hs, hk, h.nextSeq]
    rfl

/-- A journal stays what the log says when the log takes up one more call. -/
theorem Reflects.call {d : Direction} {start : SeqNum} {log : Log} {s : MemoryStore}
    (h : Reflects d start log (s.journal d)) (c : Call) :
    Reflects d start (log ++ [(c, (s.call c).1)]) ((s.call c).2.journal d) := by
  cases c with
  | append d' n bs =>
    obtain ⟨j, hj, hcall⟩ | ⟨-, hcall⟩ := s.call_append_cases d' n bs
    · rw [hcall]
      by_cases hd : d' = d
      · subst hd
        rw [journal_withJournal_self]
        constructor
        · rw [kept_concat_of_ne d' log (by simp), Journal.entries_append hj, h.entries]
          simp [kept?]
        · rw [counter_concat_of_none d' start log rfl, Journal.nextSeq_append hj, h.nextSeq]
          simp [kept?]
      · rw [journal_withJournal_other (Ne.symm hd)]
        exact h.concat_of_none (by simp [kept?, hd]) rfl
    · rw [hcall]
      exact h.concat_of_none rfl rfl
  | setNextSeq d' n =>
    by_cases hd : d' = d
    · subst hd
      constructor
      · rw [kept_concat_of_ne d' log (by simp), ← h.entries]
        simp [MemoryStore.call, setNextSeq, Journal.setNextSeq, kept?]
      · rw [counter_concat_of_some d' start log (n := n) (by simp [sets?])]
        simp [MemoryStore.call, setNextSeq, Journal.setNextSeq]
    · have hjournal := journal_call_of_not_concerns (d := d) (c := .setNextSeq d' n)
        (by simp [Call.concerns, hd]) s
      rw [hjournal]
      exact h.concat_of_none rfl (by simp [sets?, hd])
  | reset =>
    constructor
    · rw [kept_concat_reset]
      cases d <;> rfl
    · rw [counter_concat_of_some d start log (n := .first) rfl]
      cases d <;> rfl
  | range d' first last => exact h.concat_of_none rfl rfl
  | nextSeq d' => exact h.concat_of_none rfl rfl
  | size d' => exact h.concat_of_none rfl rfl
  | contains d' n => exact h.concat_of_none rfl rfl

/-- The number that a direction starts with. -/
def startOf (outbound inbound : SeqNum) : Direction → SeqNum
  | .inbound => inbound
  | .outbound => outbound

/-- After any calls on a new store, each journal is what the log says. -/
theorem reflects_run (outbound inbound : SeqNum) (cs : List Call) (d : Direction) :
    Reflects d (startOf outbound inbound d) ((startingAt outbound inbound).run cs).1
      (((startingAt outbound inbound).run cs).2.journal d) := by
  induction cs using List.reverseRecOn with
  | nil => cases d <;> exact ⟨rfl, rfl⟩
  | append_singleton cs c ih =>
    rw [run_concat]
    exact ih.call c

/-! ## The store as an append-only journal -/

/-- What a store holds for a direction, and what it answers next, in terms of the log. -/
structure Accounts (d : Direction) (start : SeqNum) (log : Log) (s : MemoryStore) : Prop where
  /-- The messages are those that were kept since the last reset, in the order of the calls. -/
  entries : (s.journal d).entries = kept d log
  /-- Their numbers ascend. -/
  ascending : ((kept d log).map Prod.fst).Pairwise (· < ·)
  /-- An append above the last number succeeds. -/
  append (n : SeqNum) (bs : Bytes) :
    lastKept d log < n → (s.call (.append d n bs)).1 = .done
  /-- Any other is refused and changes nothing, in either direction. -/
  append_refused (n : SeqNum) (bs : Bytes) :
    n ≤ lastKept d log →
      s.call (.append d n bs) = (.refused (.notMonotonic n (lastKept d log)), s)
  /-- A range is what was kept from its first to its last number, in ascending order. -/
  range (first last : SeqNum) :
    ∃ found, s.call (.range d first last) = (.messages found, s) ∧
      (found.map Prod.fst).Pairwise (· < ·) ∧
      (∀ e, e ∈ found ↔ e ∈ kept d log ∧ first ≤ e.1 ∧ e.1 ≤ last) ∧
      (last < first → found = [])
  /-- The direction goes on with the number it was last set to, raised by the appends since. -/
  nextSeq : s.call (.nextSeq d) = (.number (counter d start log), s)
  size : s.call (.size d) = (.count (kept d log).length, s)
  contains (n : SeqNum) :
    ∃ b, s.call (.contains d n) = (.truth b, s) ∧ (b = true ↔ ∃ bs, (n, bs) ∈ kept d log)

theorem Reflects.accounts {d : Direction} {start : SeqNum} {log : Log} {s : MemoryStore}
    (h : Reflects d start log (s.journal d)) : Accounts d start log s where
  entries := h.entries
  ascending := by
    rw [← h.entries]
    exact (List.pairwise_cons.mp (s.journal d).ascending).2
  append n bs hn := by
    obtain ⟨j, -, hcall⟩ | ⟨hle, -⟩ := s.call_append_cases d n bs
    · rw [hcall]
    · rw [h.last] at hle
      exact absurd hle (UInt64.not_le.mpr hn)
  append_refused n bs hn := by
    obtain ⟨j, hj, -⟩ | ⟨-, hcall⟩ := s.call_append_cases d n bs
    · have hlt := (Journal.last_append hj).1
      rw [h.last] at hlt
      exact absurd hn (UInt64.not_le.mpr hlt)
    · rw [hcall, h.last]
  range first last := by
    refine ⟨(s.journal d).range first last, rfl, Journal.ascending_range .., fun e => ?_, ?_⟩
    · rw [Journal.mem_range_iff, h.entries]
    · intro hlt
      rw [List.eq_nil_iff_forall_not_mem]
      intro e he
      obtain ⟨-, hfirst, hlast⟩ := Journal.mem_range_iff.mp he
      exact UInt64.not_le.mpr hlt (UInt64.le_trans hfirst hlast)
  nextSeq := by
    show (Answer.number (s.journal d).nextSeq, s) = _
    rw [h.nextSeq]
  size := by
    show (Answer.count (s.journal d).entries.length, s) = _
    rw [h.entries]
  contains n := by
    refine ⟨(s.journal d).contains n, rfl, ?_⟩
    simp [Journal.contains, h.entries]

/-- **A store in memory is an append-only journal for each direction.** After any calls on a store
that starts with any numbers, what it holds and answers for a direction is told by the log, and it
is the same when the calls on the other direction are left out. -/
theorem run_accounts (outbound inbound : SeqNum) (cs : List Call) (d : Direction) :
    Accounts d (startOf outbound inbound d) ((startingAt outbound inbound).run cs).1
        ((startingAt outbound inbound).run cs).2 ∧
      (∀ c : Call, c.concerns d = false →
        (((startingAt outbound inbound).run cs).2.call c).2.journal d =
          ((startingAt outbound inbound).run cs).2.journal d) ∧
      ((startingAt outbound inbound).run (cs.filter (·.concerns d))).1 =
        ((startingAt outbound inbound).run cs).1.filter (·.1.concerns d) :=
  ⟨(reflects_run outbound inbound cs d).accounts,
    fun _ hc => journal_call_of_not_concerns hc _, run_filter d cs rfl⟩

/-- A hole in the numbers stays a hole, and a counter that was set back is raised again. -/
example :
    ((startingAt 5 1).run
      [.append .outbound 5 [], .setNextSeq .outbound 3, .append .outbound 7 [],
        .append .outbound 6 [], .range .outbound 6 9, .nextSeq .outbound]).1.map Prod.snd =
      [.done, .done, .done, .refused (.notMonotonic 6 7), .messages [(7, [])], .number 8] := by
  decide

end FixProtocol.MemoryStore
