import FixProtocol.Error
import FixProtocol.Store.Basic

/-!
# Sequence tracking

- `SequenceTracker`: the next number to send and the next number to receive.
- `SequenceTracker.observe`: tells what a received number means and counts it if it is the
  expected one.
- `SequenceTracker.advanceTo`: moves the expected number on, never back.
-/

namespace FixProtocol

/-- What a received number means. -/
inductive SequenceOutcome where
  | inOrder
  | duplicate (expected received : SeqNum)
  | gap (expected received : SeqNum)
deriving DecidableEq, Repr

/-- The error that an outcome stands for; a number in order is none. -/
def SequenceOutcome.error? : SequenceOutcome → Option SequenceError
  | inOrder => none
  | duplicate expected received => some (.duplicate expected received)
  | gap expected received => some (.gap expected received)

/-- The next number to send and the next number to receive. -/
structure SequenceTracker where
  nextOutgoing : SeqNum
  expectedIncoming : SeqNum
deriving DecidableEq, Repr

namespace SequenceTracker

/-- A tracker that goes on with the given numbers; zero counts as one. -/
def startingAt (outgoing incoming : SeqNum) : SequenceTracker :=
  ⟨max outgoing .first, max incoming .first⟩

/-- A tracker that goes on where a store left off. -/
def resume {σ : Type} [MessageStore σ] (store : σ) : SequenceTracker :=
  startingAt (MessageStore.nextSeq store .outbound) (MessageStore.nextSeq store .inbound)

/-- Uses up the next number to send. -/
def allocate (t : SequenceTracker) : SequenceTracker :=
  { t with nextOutgoing := t.nextOutgoing.succWrapping }

/-- What a received number means. The greatest word is never in order: nothing could follow it. -/
def classify (t : SequenceTracker) (received : SeqNum) : SequenceOutcome :=
  if received = .top then .gap t.expectedIncoming received
  else if received = t.expectedIncoming then .inOrder
  else if received < t.expectedIncoming then .duplicate t.expectedIncoming received
  else .gap t.expectedIncoming received

/-- Tells what a received number means, and counts it if it is the expected one. -/
def observe (t : SequenceTracker) (received : SeqNum) : SequenceOutcome × SequenceTracker :=
  match t.classify received with
  | .inOrder => (.inOrder, { t with expectedIncoming := received + 1 })
  | outcome => (outcome, t)

theorem observe_of_eq {t : SequenceTracker} {n : SeqNum} (htop : n ≠ .top)
    (h : n = t.expectedIncoming) :
    t.observe n = (.inOrder, { t with expectedIncoming := n + 1 }) := by
  unfold observe classify
  rw [if_neg htop, if_pos h]

theorem observe_of_lt {t : SequenceTracker} {n : SeqNum} (h : n < t.expectedIncoming) :
    t.observe n = (.duplicate t.expectedIncoming n, t) := by
  have htop : n ≠ .top := by grind
  have hne : n ≠ t.expectedIncoming := by grind
  unfold observe classify
  rw [if_neg htop, if_neg hne, if_pos h]

theorem observe_of_gt {t : SequenceTracker} {n : SeqNum} (h : t.expectedIncoming < n) :
    t.observe n = (.gap t.expectedIncoming n, t) := by
  have hne : n ≠ t.expectedIncoming := by grind
  have hlt : ¬ n < t.expectedIncoming := by grind
  unfold observe classify
  rw [if_neg hne, if_neg hlt, ite_self]

/-- Moves the expected number on to `n`. A number below the expected one changes nothing, and the
answer is `false`. -/
def advanceTo (t : SequenceTracker) (n : SeqNum) : Bool × SequenceTracker :=
  if t.expectedIncoming ≤ n then (true, { t with expectedIncoming := n }) else (false, t)

end SequenceTracker

end FixProtocol
