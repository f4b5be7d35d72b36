import FixProtocol.CompId
import FixProtocol.Store.Basic
import FixProtocol.Store.Journal

/-!
# Stores in memory

- `MemoryStore`: one journal for each direction; the store for sessions that live as long as the
  process.
- `FaultyStore`: a memory store of which chosen calls fail, to see what a session makes of it.
- `StoreRegistry`: the memory stores of several sessions, each made when it is first asked for.
-/

namespace FixProtocol

/-- A journal for each direction. -/
structure MemoryStore where
  inbound : Journal
  outbound : Journal
deriving DecidableEq

namespace MemoryStore

/-- A store without messages that goes on with the given numbers. -/
def startingAt (outbound inbound : SeqNum) : MemoryStore :=
  ⟨.startingAt inbound, .startingAt outbound⟩

/-- A store without messages where both directions go on with the first number. -/
def empty : MemoryStore :=
  startingAt .first .first

/-- The journal of a direction. -/
def journal (s : MemoryStore) : Direction → Journal
  | .inbound => s.inbound
  | .outbound => s.outbound

/-- Puts another journal in the place of one direction. -/
def withJournal (s : MemoryStore) (d : Direction) (j : Journal) : MemoryStore :=
  match d with
  | .inbound => { s with inbound := j }
  | .outbound => { s with outbound := j }

@[simp] theorem journal_withJournal_self (s : MemoryStore) (d : Direction) (j : Journal) :
    (s.withJournal d j).journal d = j := by
  cases d <;> rfl

theorem journal_withJournal_other {d d' : Direction} (h : d' ≠ d) (s : MemoryStore) (j : Journal) :
    (s.withJournal d j).journal d' = s.journal d' := by
  cases d <;> cases d' <;> simp_all [withJournal, journal]

/-- Keeps a message, or refuses it and stays as it is. -/
def append (s : MemoryStore) (d : Direction) (n : SeqNum) (bs : Bytes) :
    Except StoreError Unit × MemoryStore :=
  match (s.journal d).append n bs with
  | .ok j => (.ok (), s.withJournal d j)
  | .error e => (.error e, s)

/-- The messages of a direction with numbers in a range. -/
def range (s : MemoryStore) (d : Direction) (first last : SeqNum) : List (SeqNum × Bytes) :=
  (s.journal d).range first last

/-- The number that a direction goes on with. -/
def nextSeq (s : MemoryStore) (d : Direction) : SeqNum :=
  (s.journal d).nextSeq

/-- Sets the number that a direction goes on with. -/
def setNextSeq (s : MemoryStore) (d : Direction) (n : SeqNum) : MemoryStore :=
  s.withJournal d ((s.journal d).setNextSeq n)

/-- Forgets all messages; both directions go on with the first number. -/
def reset (_ : MemoryStore) : MemoryStore :=
  empty

/-- How many messages of a direction there are. -/
def size (s : MemoryStore) (d : Direction) : Nat :=
  (s.journal d).size

/-- Is there a message of a direction with this number? -/
def contains (s : MemoryStore) (d : Direction) (n : SeqNum) : Bool :=
  (s.journal d).contains n

instance : MessageStore MemoryStore where
  append := append
  range s d first last := (.ok (s.range d first last), s)
  nextSeq := nextSeq
  setNextSeq := setNextSeq

end MemoryStore

/-- A memory store of which appends of one number, or all range calls, fail. -/
structure FaultyStore where
  memory : MemoryStore
  failAppend : Option (Direction × SeqNum)
  failRange : Bool
deriving DecidableEq

namespace FaultyStore

/-- A store none of whose calls fail. -/
def ofMemory (m : MemoryStore) : FaultyStore :=
  ⟨m, none, false⟩

instance : MessageStore FaultyStore where
  append s d n bs :=
    if s.failAppend = some (d, n) then
      (.error (.io ("append " ++ d.name ++ " " ++ toString n)), s)
    else
      let (result, memory) := s.memory.append d n bs
      (result, { s with memory })
  range s d first last :=
    if s.failRange then (.error (.rangeNotAvailable first last), s)
    else (.ok (s.memory.range d first last), s)
  nextSeq s := s.memory.nextSeq
  setNextSeq s d n := { s with memory := s.memory.setNextSeq d n }

end FaultyStore

/-- The memory stores of several sessions. -/
structure StoreRegistry where
  stores : List (SessionId × MemoryStore)

namespace StoreRegistry

/-- A registry without stores. -/
def empty : StoreRegistry :=
  ⟨[]⟩

/-- How many stores there are. -/
def size (r : StoreRegistry) : Nat :=
  r.stores.length

/-- The store of a session, if it has one. -/
def find? (r : StoreRegistry) (id : SessionId) : Option MemoryStore :=
  r.stores.lookup id

/-- Removes the store of a session. -/
def remove (r : StoreRegistry) (id : SessionId) : StoreRegistry :=
  ⟨r.stores.filter (·.1 ≠ id)⟩

/-- Does something with the store of a session, which is made if it is missing. -/
def modify {α : Type} (r : StoreRegistry) (id : SessionId) (f : MemoryStore → α × MemoryStore) :
    α × StoreRegistry :=
  let (result, store) := f ((r.find? id).getD .empty)
  (result, ⟨(id, store) :: (r.remove id).stores⟩)

end StoreRegistry

end FixProtocol
