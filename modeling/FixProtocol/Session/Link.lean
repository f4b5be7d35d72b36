import FixProtocol.Session.Operation

/-!
# Links

Two sessions and the wire between them, one queue of frames for each direction. What one side puts
out waits in the queue of the other until it is delivered; on its way it may be lost, doubled, or
overtaken.

- `Link`: two sessions and two queues.
- `Link.act`: an operation on one side.
- `Link.deliver`: hands queued frames to a side, one by one.
- `Link.drop`, `Link.duplicate`, `Link.rotate`, `Link.cut`: what can happen on the way.
-/

namespace FixProtocol

/-- One of the two sides of a link. -/
inductive Side where
  | a
  | b
deriving DecidableEq, Repr

/-- The opposite side. -/
def Side.other : Side → Side
  | a => b
  | b => a

/-- Two sessions, and the frames that wait for each. -/
structure Link (σ : Type) where
  a : Session σ
  b : Session σ
  toA : List Bytes
  toB : List Bytes

namespace Link

variable {σ : Type}

/-- The session of a side. -/
def session (l : Link σ) : Side → Session σ
  | .a => l.a
  | .b => l.b

/-- The frames that wait for a side. -/
def queue (l : Link σ) : Side → List Bytes
  | .a => l.toA
  | .b => l.toB

/-- Puts another session in the place of that of a side. -/
def withSession (l : Link σ) (side : Side) (s : Session σ) : Link σ :=
  match side with
  | .a => { l with a := s }
  | .b => { l with b := s }

/-- Puts another queue in the place of that of a side. -/
def withQueue (l : Link σ) (side : Side) (frames : List Bytes) : Link σ :=
  match side with
  | .a => { l with toA := frames }
  | .b => { l with toB := frames }

/-- Puts frames on the wire to a side. -/
def enqueue (l : Link σ) (side : Side) (frames : List Bytes) : Link σ :=
  l.withQueue side (l.queue side ++ frames)

/-- The frame at an index is lost. -/
def drop (l : Link σ) (side : Side) (i : Nat) : Link σ :=
  l.withQueue side ((l.queue side).eraseIdx i)

/-- The frame at an index arrives a second time, after all others. -/
def duplicate (l : Link σ) (side : Side) (i : Nat) : Link σ :=
  l.enqueue side (l.queue side)[i]?.toList

/-- The first frame is overtaken by all others. -/
def rotate (l : Link σ) (side : Side) : Link σ :=
  l.withQueue side ((l.queue side).rotateLeft 1)

/-- Everything on the wire is lost. -/
def cut (l : Link σ) : Link σ :=
  { l with toA := [], toB := [] }

end Link

/-- The frames that an operation puts out. -/
def Session.Outcome.frames : Session.Outcome → List Bytes
  | .sent (.ok frame) => [frame]
  | .reacted (.ok reaction) => reaction.outbound
  | _ => []

namespace Link

variable {σ : Type} [MessageStore σ]

/-- An operation on one side; what it puts out goes on the wire to the other. -/
def act (l : Link σ) (side : Side) (op : Session.Operation) : Session.Outcome × Link σ :=
  let (outcome, s) := (l.session side).step op
  (outcome, (l.withSession side s).enqueue side.other outcome.frames)

/-- Hands the first `count` queued frames to a side, one by one. What the side puts out goes on
the wire after the last of them. -/
def deliver (l : Link σ) (side : Side) (count : Nat) (now : Moment) :
    List Session.Outcome × Link σ :=
  let taken := (l.queue side).take count
  let (outcomes, s) := (l.session side).run (taken.map fun frame => .receive frame now)
  let l := (l.withQueue side ((l.queue side).drop count)).withSession side s
  (outcomes, l.enqueue side.other (outcomes.flatMap Session.Outcome.frames))

end Link

end FixProtocol
