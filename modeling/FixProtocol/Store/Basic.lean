import FixProtocol.Bytes
import FixProtocol.Error

/-!
# Message stores

A session keeps every message of both directions in a store, and next to them the number that each
direction goes on with.

- `MessageStore σ`: what a session asks of a store. A call may fail, and the store may change when
  it does: each call answers with the store it leaves behind.
-/

namespace FixProtocol

/-- The operations of a store with states in `σ`. -/
class MessageStore (σ : Type) where
  /-- Keeps a message under its number. -/
  append : σ → Direction → SeqNum → Bytes → Except StoreError Unit × σ
  /-- The kept messages with numbers from the first to the last given one, in ascending order. -/
  range : σ → Direction → SeqNum → SeqNum → Except StoreError (List (SeqNum × Bytes)) × σ
  /-- The number that a direction goes on with. -/
  nextSeq : σ → Direction → SeqNum
  /-- Sets the number that a direction goes on with. -/
  setNextSeq : σ → Direction → SeqNum → σ

end FixProtocol
