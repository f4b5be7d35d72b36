import FixProtocol.Message

/-!
# Gap recovery

While a resend request is open, messages from behind the gap are parked under their numbers, and
come out when the expected number reaches them.

- `GapRecovery.park`: parks a message, unless too many are parked.
- `GapRecovery.takeReady`: the message with the expected number; all older ones are dropped.
- `GapRecovery.pollRetry`: whether the request must be repeated or given up.
- `GapRecovery.park_eq_ok_iff`, `GapRecovery.park_of_not_hasRoom`: when a message is parked.
- `GapRecovery.find?_park`, `GapRecovery.find?_takeReady`: what is found under each number after a
  step.
-/

namespace FixProtocol

/-- A message that waits, and the frame that it came in. -/
structure Parked where
  message : Message
  frame : Bytes
deriving DecidableEq

/-- The messages that were requested, how often, and when last. -/
structure ResendRange where
  first : SeqNum
  last : SeqNum
  attempts : Nat
  requestedAt : Nat
deriving DecidableEq, Repr

/-- What to do about an open request. -/
inductive RetryDecision where
  | reissue (first last : SeqNum)
  | exhausted (error : SessionError)
deriving DecidableEq, Repr

/-- The parked messages in ascending order, and the open request. -/
structure GapRecovery where
  parked : List (SeqNum × Parked)
  pending : Option ResendRange
  maxBuffered : Nat
  ascending : (parked.map Prod.fst).Pairwise (· < ·)

namespace GapRecovery

/-- Nothing is parked and nothing requested. -/
def empty (maxBuffered : Nat) : GapRecovery :=
  ⟨[], none, maxBuffered, by simp⟩

/-- Is a request open? -/
def isRequesting (r : GapRecovery) : Bool :=
  r.pending.isSome

/-- How many messages are parked. -/
def size (r : GapRecovery) : Nat :=
  r.parked.length

/-- The lowest parked number. -/
def first? (r : GapRecovery) : Option SeqNum :=
  (r.parked.head?).map Prod.fst

/-- The message that is parked under a number. -/
def find? (r : GapRecovery) (n : SeqNum) : Option Parked :=
  r.parked.lookup n

/-- Puts an entry into an ascending list, in the place of one with the same number. -/
def insertAscending (n : SeqNum) (p : Parked) : List (SeqNum × Parked) → List (SeqNum × Parked)
  | [] => [(n, p)]
  | (m, q) :: rest =>
    if n < m then (n, p) :: (m, q) :: rest
    else if n = m then (n, p) :: rest
    else (m, q) :: insertAscending n p rest

theorem mem_keys_insertAscending {n m : SeqNum} {p : Parked} {ps : List (SeqNum × Parked)} :
    m ∈ (insertAscending n p ps).map Prod.fst ↔ m = n ∨ m ∈ ps.map Prod.fst := by
  induction ps with
  | nil => simp [insertAscending]
  | cons e ps ih =>
    obtain ⟨k, q⟩ := e
    simp only [insertAscending]
    split
    · simp
    · split
      · next h => simp [h]
      · simp only [List.map_cons, List.mem_cons, ih]
        grind

theorem ascending_insertAscending {n : SeqNum} {p : Parked} {ps : List (SeqNum × Parked)}
    (h : (ps.map Prod.fst).Pairwise (· < ·)) :
    ((insertAscending n p ps).map Prod.fst).Pairwise (· < ·) := by
  induction ps with
  | nil => simp [insertAscending]
  | cons e ps ih =>
    obtain ⟨k, q⟩ := e
    simp only [List.map_cons, List.pairwise_cons] at h
    simp only [insertAscending]
    split
    · next hlt =>
      simp only [List.map_cons, List.pairwise_cons]
      refine ⟨?_, h⟩
      intro m hm
      rcases List.mem_cons.mp hm with rfl | hm
      · exact hlt
      · have := h.1 m hm
        grind
    · split
      · next heq =>
        simp only [List.map_cons, List.pairwise_cons]
        exact ⟨heq ▸ h.1, h.2⟩
      · simp only [List.map_cons, List.pairwise_cons]
        refine ⟨?_, ih h.2⟩
        intro m hm
        rcases mem_keys_insertAscending.mp hm with rfl | hm
        · grind
        · exact h.1 m hm

/-- Is there room for a message with this number? One that replaces another needs none. -/
def hasRoom (r : GapRecovery) (n : SeqNum) : Bool :=
  r.size < r.maxBuffered || (r.find? n).isSome

/-- What is said when there is no room: the open request is to blame, or the message itself. -/
def overflow (r : GapRecovery) (n : SeqNum) : SessionError :=
  match r.pending with
  | some range => .resendExhausted range.first range.last range.attempts
  | none => .resendExhausted n n 0

/-- Parks a message under its number, in the place of one that is there already. -/
def park (r : GapRecovery) (n : SeqNum) (p : Parked) : Except SessionError GapRecovery :=
  if r.hasRoom n then
    .ok { r with
      parked := insertAscending n p r.parked
      ascending := ascending_insertAscending r.ascending }
  else .error (r.overflow n)

theorem hasRoom_iff {r : GapRecovery} {n : SeqNum} :
    r.hasRoom n = true ↔ r.size < r.maxBuffered ∨ (r.find? n).isSome = true := by
  rw [hasRoom, Bool.or_eq_true, decide_eq_true_iff]

/-- A message is parked if there is room for it, and nothing else changes. -/
theorem park_eq_ok_iff {r s : GapRecovery} {n : SeqNum} {p : Parked} :
    r.park n p = .ok s ↔ r.hasRoom n = true ∧ s.parked = insertAscending n p r.parked ∧
      s.pending = r.pending ∧ s.maxBuffered = r.maxBuffered := by
  unfold park
  split
  · next hroom =>
    constructor
    · intro h
      rw [← Except.ok.inj h]
      exact ⟨hroom, rfl, rfl, rfl⟩
    · obtain ⟨parked, pending, maxBuffered, ascending⟩ := s
      rintro ⟨-, rfl, rfl, rfl⟩
      rfl
  · next hfull => exact iff_of_false nofun fun h => hfull h.1

/-- A message for which there is no room is refused. -/
theorem park_of_not_hasRoom {r : GapRecovery} {n : SeqNum} (h : r.hasRoom n = false)
    (p : Parked) : r.park n p = .error (r.overflow n) :=
  if_neg (Bool.not_eq_true _ ▸ h)

/-- A request for the given range was made. -/
def start (r : GapRecovery) (first last : SeqNum) (now : Nat) : GapRecovery :=
  { r with pending := some ⟨first, last, 1, now⟩ }

/-- The parked messages without those at the front that `drops` names. -/
def dropWhile (r : GapRecovery) (drops : SeqNum → Bool) : GapRecovery :=
  { r with
    parked := r.parked.dropWhile fun e => drops e.1
    ascending := r.ascending.sublist ((List.dropWhile_sublist _).map _) }

/-- The message with the expected number, which is then no longer parked. Messages with lower
numbers are dropped. -/
def takeReady (r : GapRecovery) (expected : SeqNum) : Option Parked × GapRecovery :=
  (r.find? expected, r.dropWhile (· ≤ expected))

/-- The expected number has moved on; a request that it has passed is closed. -/
def onAdvanced (r : GapRecovery) (expected : SeqNum) : Bool × GapRecovery :=
  match r.pending with
  | some range => if range.last < expected then (true, { r with pending := none }) else (false, r)
  | none => (false, r)

/-- What to do about the open request: nothing before the time is up, then to ask again for what is
still missing, up to `limit` times in all. -/
def pollRetry (r : GapRecovery) (now : Nat) (expected : SeqNum) (timeout limit : Nat) :
    Option RetryDecision × GapRecovery :=
  match r.pending with
  | none => (none, r)
  | some range =>
    if now - range.requestedAt < timeout then (none, r)
    else if limit ≤ range.attempts then
      (some (.exhausted (.resendExhausted range.first range.last range.attempts)), r)
    else
      let first := max range.first expected
      (some (.reissue first range.last),
        { r with pending := some ⟨first, range.last, range.attempts + 1, now⟩ })

/-- Forgets everything. -/
def clear (r : GapRecovery) : GapRecovery :=
  { r with parked := [], pending := none, ascending := by simp }

/-! ## What is parked after each step -/

theorem lookup_insertAscending (n m : SeqNum) (p : Parked) (ps : List (SeqNum × Parked)) :
    (insertAscending n p ps).lookup m = if m = n then some p else ps.lookup m := by
  induction ps with
  | nil => simp only [insertAscending, List.lookup_cons, List.lookup_nil]; grind
  | cons e ps ih =>
    obtain ⟨k, q⟩ := e
    simp only [insertAscending]
    split
    · simp only [List.lookup_cons]; grind
    · split
      · next h => subst h; simp only [List.lookup_cons]; grind
      · next h => simp only [List.lookup_cons, ih]; grind

/-- Parking a message leaves the open request as it is. -/
theorem pending_park {r r' : GapRecovery} {n : SeqNum} {p : Parked} (h : r.park n p = .ok r') :
    r'.pending = r.pending :=
  (park_eq_ok_iff.mp h).2.2.1

theorem maxBuffered_park {r r' : GapRecovery} {n : SeqNum} {p : Parked}
    (h : r.park n p = .ok r') : r'.maxBuffered = r.maxBuffered :=
  (park_eq_ok_iff.mp h).2.2.2

/-- After parking, the message is found under its number, and all others as before. -/
theorem find?_park {r r' : GapRecovery} {n : SeqNum} {p : Parked} (h : r.park n p = .ok r')
    (m : SeqNum) : r'.find? m = if m = n then some p else r.find? m := by
  obtain ⟨-, hparked, -⟩ := park_eq_ok_iff.mp h
  rw [find?, hparked]
  exact lookup_insertAscending n m p r.parked

theorem lookup_eq_none_of_lt {ps : List (SeqNum × Parked)} {n : SeqNum}
    (h : ∀ k ∈ ps.map Prod.fst, n < k) : ps.lookup n = none := by
  rw [List.lookup_eq_none_iff]
  intro e he
  have := h e.1 (List.mem_map_of_mem he)
  grind

theorem lookup_dropWhile_le {ps : List (SeqNum × Parked)}
    (h : (ps.map Prod.fst).Pairwise (· < ·)) (n m : SeqNum) :
    (ps.dropWhile fun e => decide (e.1 ≤ n)).lookup m = if m ≤ n then none else ps.lookup m := by
  induction ps with
  | nil => simp
  | cons e ps ih =>
    obtain ⟨k, q⟩ := e
    rw [List.map_cons, List.pairwise_cons] at h
    by_cases hk : k ≤ n
    · rw [List.dropWhile_cons_of_pos (by simpa using hk), ih h.2, List.lookup_cons]
      grind
    · rw [List.dropWhile_cons_of_neg (by simpa using hk)]
      split
      · refine lookup_eq_none_of_lt fun i hi => ?_
        rcases List.mem_cons.mp hi with rfl | hi
        · grind
        · have := h.1 i hi
          grind
      · rfl

/-- Taking a number leaves what is parked above it, and nothing else. -/
theorem find?_takeReady (r : GapRecovery) (n m : SeqNum) :
    (r.takeReady n).2.find? m = if m ≤ n then none else r.find? m :=
  lookup_dropWhile_le r.ascending n m

end GapRecovery

end FixProtocol
