import FixProtocol.Engine.Task

/-!
# Engines

An engine runs a task on a clock: besides what arrives, a timer ticks at regular intervals, first
when the task starts.

- `Engine.start?`: starts a session task over a store.
- `Engine.event`: something happens now.
- `Engine.arrive`: bytes arrive, and are read as the task has room for them.
- `Engine.wait`: time passes, and every tick that is due in it is dealt with at its time.
-/

namespace FixProtocol

/-- A task and its timer. -/
structure Engine (σ : Type) where
  task : SessionTask σ
  now : Moment
  /-- The time between two ticks, in milliseconds. -/
  period : Nat
  /-- When the next tick is due. -/
  nextTick : Nat

namespace Engine

variable {σ : Type} [MessageStore σ]

/-- Deals with the tick that is due now. -/
def tick (e : Engine σ) : Engine σ :=
  { e with
    task := (e.task.step .tick e.now).2
    nextTick := e.now.elapsed + e.period }

/-- Starts a session task in the given role, or says why it cannot start. -/
def start? (config : SessionConfig) (role : Role) (store : σ) (period capacity : Nat)
    (writeFault : Option (Nat × String)) (now : Moment) : Except SessionError (Engine σ) := do
  SessionConfig.demand (period ≠ 0 && capacity ≠ 0)
    "tick interval and command capacity must be positive"
  let session ← Session.open? { config with role } store now.elapsed
  let task := (SessionTask.ofSession session writeFault).begin now
  return ({ task, now, period, nextTick := now.elapsed : Engine σ }).tick

/-- Something happens now. -/
def event (e : Engine σ) (event : SessionTask.Event) : Except TaskError Unit × Engine σ :=
  let (answer, task) := e.task.step event e.now
  (answer, { e with task })

/-- Bytes arrive now. The task reads as many at a time as it has room for. -/
def arrive (e : Engine σ) (bs : Bytes) : Engine σ :=
  if bs = [] then e
  else
    let task := e.task.makeRoom
    let room := task.buffer.room
    (({ e with task }.event (.received (bs.take room))).2).arrive (bs.drop room)
termination_by bs.length
decreasing_by
  have := List.length_pos_iff.mpr ‹_›
  have := e.task.room_makeRoom_pos
  rw [List.length_drop]
  omega

/-- Deals with the next `count` ticks, each at its time, or with as many as the task lives
through. -/
def ticks (e : Engine σ) : Nat → Engine σ
  | 0 => e
  | count + 1 =>
    if e.task.isRunning then
      { e with now := e.now.later (e.nextTick - e.now.elapsed) }.tick.ticks count
    else e

/-- How many ticks are due up to a time. -/
def ticksDue (e : Engine σ) (time : Nat) : Nat :=
  if time < e.nextTick then 0 else (time - e.nextTick) / e.period + 1

/-- Time passes. -/
def wait (e : Engine σ) (ms : Nat) : Engine σ :=
  let time := e.now.elapsed + ms
  let e := e.ticks (e.ticksDue time)
  { e with now := e.now.later (time - e.now.elapsed) }

/-- Is the session logged on, as far as the handles see? `none` if that may still come. -/
def loggedOn? (e : Engine σ) : Option (Except TaskError Unit) :=
  if e.task.published = .loggedOn then some (.ok ())
  else if e.task.isRunning then none
  else some (.error .closed)

end Engine

end FixProtocol
