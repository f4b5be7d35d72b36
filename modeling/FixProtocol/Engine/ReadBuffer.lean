import FixProtocol.Bytes
import FixProtocol.SeqNum

/-!
# Read buffers

A task reads into a block of memory and cuts frames off the front of what it has read. A frame
stays in its block, so the block is neither moved nor grown while somebody still uses one of its
frames: then a new block takes over what was not cut off. How much one read can take depends on the
room that is left at the end of the block.

- `ReadBuffer.append`, `ReadBuffer.cut`: bytes are read, and a frame is cut off.
- `ReadBuffer.lend`: a message of the block stays in use.
- `ReadBuffer.grow`: makes room for more bytes.
- `ReadBuffer.le_room_grow`: after that there is as much room as was asked for.
-/

namespace FixProtocol

/-- A block and the bytes in it that were read and not cut off. -/
structure ReadBuffer where
  bytes : Bytes
  /-- How far from the front of the block the bytes start. -/
  start : Nat
  /-- The size of the block. -/
  size : Nat
  /-- The numbers of the messages that lie in the block and may still be used. -/
  lent : List SeqNum

namespace ReadBuffer

/-- The size of a first block, and the least size of one that takes over. -/
abbrev blockSize : Nat := 4096

/-- When a block is full, room for at least so many bytes is made. -/
abbrev leastRoom : Nat := 64

/-- A new block. -/
def empty : ReadBuffer :=
  ⟨[], 0, blockSize, []⟩

/-- How many bytes still fit. -/
def room (b : ReadBuffer) : Nat :=
  b.size - (b.start + b.bytes.length)

/-- Bytes are read. -/
def append (b : ReadBuffer) (bs : Bytes) : ReadBuffer :=
  { b with bytes := b.bytes ++ bs }

/-- A frame is cut off the front; `rest` follows it. -/
def cut (b : ReadBuffer) (frame rest : Bytes) : ReadBuffer :=
  { b with bytes := rest, start := b.start + frame.length }

/-- The message with this number lies in the block, and somebody goes on using it. -/
def lend (b : ReadBuffer) (n : SeqNum) : ReadBuffer :=
  { b with lent := n :: b.lent }

/-- Makes room for `count` more bytes. If a frame of the block is in use, a new block takes over.
Else the bytes go to the front if they fit there and do not overlap their old place, and if not the
block is at least doubled. -/
def grow (b : ReadBuffer) (inUse : Bool) (count : Nat) : ReadBuffer :=
  let needed := b.bytes.length + count
  if inUse then ⟨b.bytes, 0, max blockSize needed, []⟩
  else if needed ≤ b.size ∧ b.bytes.length ≤ b.start then ⟨b.bytes, 0, b.size, []⟩
  else ⟨b.bytes, b.start, max (2 * b.size) (b.start + needed), []⟩

@[simp] theorem bytes_grow (b : ReadBuffer) (inUse : Bool) (count : Nat) :
    (b.grow inUse count).bytes = b.bytes := by
  unfold grow
  dsimp only
  split
  · rfl
  · split <;> rfl

theorem le_room_grow (b : ReadBuffer) (inUse : Bool) (count : Nat) :
    count ≤ (b.grow inUse count).room := by
  unfold grow room
  dsimp only
  split
  · dsimp only
    omega
  · split <;> dsimp only <;> omega

end ReadBuffer

end FixProtocol
