import FixProtocol.Proofs.Session.Calm
import FixProtocol.Proofs.Session.States

/-!
# Nothing is overdue after a timer call

Four clocks run beside a session: since its state was entered, since it last sent, since it last
received, and since it last asked for what is missing. A timer call does what is due and sets back
the clocks that this is about, so when the session is still open then, no clock has reached its
limit. A second call at the same time finds nothing to do.

- `HeartbeatMonitor.OnTime`, `GapRecovery.OnTime`, `OnTime`: no limit is reached.
- `Ticking`: what timers rely on: the limits are not zero. Every operation keeps it.
- `KeptAlive.onTime`, `Retried.onTime`: what a timer call leaves of a session that is logged on.
- `ends_tick_onTime`: after a timer call the session has ended or is on time.
- `onTimer_of_onTime`: a session that is on time has nothing to do.
-/

namespace FixProtocol

namespace HeartbeatMonitor

variable {m : HeartbeatMonitor} {now : Moment}

/-- No heartbeat is due and no test request; the one that waits, if any, waits within its grace. -/
structure OnTime (m : HeartbeatMonitor) (now : Nat) : Prop where
  sent : now - m.lastSent < m.interval
  heard : (∃ probe ∈ m.pending, now - probe.2 < m.grace) ∨
    m.pending = none ∧ now - m.lastReceived < m.interval

theorem poll_of_onTime (h : m.OnTime now.elapsed) : m.poll now = (none, m) := by
  rcases m.poll_cases now with
    ⟨probe, hpending, hover, _⟩ | ⟨hnone, hover, _⟩ | ⟨_, ⟨hdue, _⟩ | ⟨_, heq⟩⟩
  · rcases h.heard with ⟨probe', hpending', hearly⟩ | ⟨hnone, _⟩
    · cases hpending.symm.trans hpending'
      exact absurd hearly (Nat.not_lt.mpr hover)
    · cases hpending.symm.trans hnone
  · rcases h.heard with ⟨_, hpending, _⟩ | ⟨_, hearly⟩
    · cases hnone.symm.trans hpending
    · exact absurd hearly (Nat.not_lt.mpr hover)
  · exact absurd h.sent (Nat.not_lt.mpr hdue)
  · exact heq

/-- Sending sets its clock back. -/
theorem OnTime.onSent {time : Nat} (h : m.OnTime time) (hinterval : 0 < m.interval) :
    (m.onSent time).OnTime time where
  sent := by
    show time - time < m.interval
    rwa [Nat.sub_self]
  heard := h.heard

theorem grace_poll (m : HeartbeatMonitor) (now : Moment) : (m.poll now).2.grace = m.grace := by
  rcases m.poll_cases now with ⟨_, _, _, heq⟩ | ⟨_, _, heq⟩ | ⟨_, ⟨_, heq⟩ | ⟨_, heq⟩⟩
  all_goals rw [heq]

/-- A poll that finds nothing has found a monitor on time. -/
theorem onTime_of_poll (h : (m.poll now).1 = none) : (m.poll now).2.OnTime now.elapsed := by
  rcases m.poll_cases now with
    ⟨_, _, _, heq⟩ | ⟨_, _, heq⟩ | ⟨hheard, ⟨_, heq⟩ | ⟨hearly, heq⟩⟩
  all_goals
    rw [heq] at h ⊢
    cases h
  exact ⟨hearly, hheard⟩

/-- What a poll asks to send sets the clock back. -/
theorem onTime_onSent_poll (hinterval : 0 < m.interval) (hgrace : 0 < m.grace)
    (h : ∀ waited, (m.poll now).1 ≠ some (.timedOut waited)) :
    ((m.poll now).2.onSent now.elapsed).OnTime now.elapsed := by
  have hsent : now.elapsed - now.elapsed < m.interval := by rwa [Nat.sub_self]
  rcases m.poll_cases now with
    ⟨_, _, _, heq⟩ | ⟨_, _, heq⟩ | ⟨hheard, ⟨_, heq⟩ | ⟨_, heq⟩⟩
  · rw [heq] at h
    exact absurd rfl (h _)
  · rw [heq]
    refine ⟨hsent, .inl ⟨_, rfl, ?_⟩⟩
    show now.elapsed - now.elapsed < m.grace
    rwa [Nat.sub_self]
  · rw [heq]
    exact ⟨hsent, hheard⟩
  · rw [heq]
    exact ⟨hsent, hheard⟩

end HeartbeatMonitor

namespace GapRecovery

variable {r : GapRecovery} {now timeout limit : Nat} {n : SeqNum}

/-- The open request, if any, has not waited too long. -/
def OnTime (r : GapRecovery) (now timeout : Nat) : Prop :=
  ∀ range ∈ r.pending, now - range.requestedAt < timeout

theorem pollRetry_of_onTime (h : r.OnTime now timeout) :
    r.pollRetry now n timeout limit = (none, r) := by
  rcases r.pollRetry_cases now n timeout limit with
    ⟨heq, _⟩ | ⟨range, hrange, hlate, _⟩ | ⟨range, hrange, hlate, _⟩
  · exact heq
  · exact absurd (h range hrange) (Nat.not_lt.mpr hlate)
  · exact absurd (h range hrange) (Nat.not_lt.mpr hlate)

/-- A request that is not given up was made in time, or is made anew. -/
theorem onTime_pollRetry (htimeout : 0 < timeout)
    (h : ∀ e, (r.pollRetry now n timeout limit).1 ≠ some (.exhausted e)) :
    (r.pollRetry now n timeout limit).2.OnTime now timeout := by
  rcases r.pollRetry_cases now n timeout limit with
    ⟨heq, hearly⟩ | ⟨_, _, _, _, heq⟩ | ⟨_, _, _, _, heq⟩
  · rw [heq]
    exact hearly
  · rw [heq] at h
    exact absurd rfl (h _)
  · rw [heq]
    rintro _ ⟨⟩
    show now - now < timeout
    rwa [Nat.sub_self]

end GapRecovery

namespace Session

open Call

variable {σ : Type} {s t u : Session σ} {now : Moment}

/-- No limit is reached at a time: not that for the answer to a logon or to a logout, and when the
session is logged on, no other. -/
structure OnTime (s : Session σ) (now : Nat) : Prop where
  logon : s.state = .logonSent → now - s.since < s.config.logonTimeout
  logout : s.state = .logoutSent → now - s.since < s.config.logoutTimeout
  alive : s.state = .loggedOn → s.heartbeat.OnTime now
  asked : s.state = .loggedOn → s.recovery.OnTime now s.config.resendTimeout

/-- What timers rely on: the limits are not zero. -/
structure Ticking (s : Session σ) : Prop where
  valid : s.config.validate = .ok ()
  interval : 0 < s.heartbeat.interval
  grace : s.heartbeat.grace = s.config.testRequestGrace

theorem Ticking.grace_pos (h : Ticking s) : 0 < s.heartbeat.grace := by
  rw [h.grace]
  exact Nat.pos_of_ne_zero (SessionConfig.validate_eq_ok_iff.mp h.valid).2.2.2.2.2.1

/-- Before anything is sent nothing can be late. -/
theorem onTime_of_disconnected (h : s.state = .disconnected) (time : Nat) : s.OnTime time where
  logon := fun hstate => by rw [h] at hstate; cases hstate
  logout := fun hstate => by rw [h] at hstate; cases hstate
  alive := fun hstate => by rw [h] at hstate; cases hstate
  asked := fun hstate => by rw [h] at hstate; cases hstate

variable [MessageStore σ]

/-! ## What a timer call does to a session that is logged on -/

/-- Sending leaves the limits alone and sets back the clock of the last message. -/
theorem Emits.heartbeat {type : MsgType} {body : List Field} {frame : Bytes}
    (h : Emits s type body now frame t) : t.heartbeat = s.heartbeat.onSent now.elapsed := by
  obtain ⟨_, _, rfl⟩ := h.kept
  rfl

/-- A monitor that was kept alive is on time, and has the limits that it had. -/
theorem KeptAlive.onTime {r : Reaction} (h : KeptAlive s now r t) (hs : Ticking s) :
    t.heartbeat.OnTime now.elapsed ∧ t.heartbeat.interval = s.heartbeat.interval ∧
      t.heartbeat.grace = s.heartbeat.grace ∧ Utters s t := by
  have hinterval := HeartbeatMonitor.interval_poll s.heartbeat now
  have hgrace := HeartbeatMonitor.grace_poll s.heartbeat now
  -- Both messages are sent after a poll that did not give up.
  have hsent {type : MsgType} {body : List Field} {frame : Bytes}
      (hemits : Emits (s.polled now) type body now frame t)
      (hdue : ∀ waited, (s.heartbeat.poll now).1 ≠ some (.timedOut waited)) :
      t.heartbeat.OnTime now.elapsed ∧ t.heartbeat.interval = s.heartbeat.interval ∧
        t.heartbeat.grace = s.heartbeat.grace ∧ Utters s t := by
    have hutters := hemits.utters
    rw [hemits.heartbeat]
    exact ⟨HeartbeatMonitor.onTime_onSent_poll hs.interval hs.grace_pos hdue, hinterval, hgrace,
      ⟨hutters.config, hutters.terminated, hutters.recovery, hutters.expected⟩, hutters.state⟩
  cases h with
  | nothing hdue =>
    exact ⟨HeartbeatMonitor.onTime_of_poll hdue, hinterval, hgrace, ⟨rfl, rfl, rfl, rfl⟩, rfl⟩
  | heartbeat hdue hemits => exact hsent hemits (hdue ▸ nofun)
  | probe hdue hemits => exact hsent hemits (hdue ▸ nofun)

/-- A request that was looked at is on time, and so is a monitor that was. -/
theorem Retried.onTime {r : Reaction} (h : Retried s now r t) (hs : Ticking s)
    (halive : s.heartbeat.OnTime now.elapsed) :
    t.recovery.OnTime now.elapsed s.config.resendTimeout ∧ t.heartbeat.OnTime now.elapsed ∧
      Ticking t ∧ Remains s t := by
  have htimeout : 0 < s.config.resendTimeout :=
    Nat.pos_of_ne_zero (SessionConfig.validate_eq_ok_iff.mp hs.valid).2.2.2.2.2.2.1
  cases h with
  | nothing hdue =>
    exact ⟨GapRecovery.onTime_pollRetry htimeout (hdue ▸ nofun), halive,
      ⟨hs.valid, hs.interval, hs.grace⟩, ⟨rfl, rfl, rfl⟩⟩
  | again hdue hemits =>
    have hutters := hemits.utters
    have hconfig : t.config = s.config := hutters.config
    refine ⟨?_, ?_, ⟨?_, ?_, ?_⟩, ⟨hconfig, hutters.state, hutters.terminated⟩⟩
    · rw [hutters.recovery]
      exact GapRecovery.onTime_pollRetry htimeout (hdue ▸ nofun)
    · rw [hemits.heartbeat]
      exact halive.onSent hs.interval
    · rw [hconfig]
      exact hs.valid
    · rw [hemits.heartbeat]
      exact hs.interval
    · rw [hemits.heartbeat, hconfig]
      exact hs.grace

/-! ## Timer calls -/

/-- After a timer call the session has ended or is on time. -/
theorem ends_tick_onTime (hs : Ticking s) (now : Moment) :
    Ends (tick now) s
      (fun _ t => t.terminated = true ∨ Ticking t ∧ t.OnTime now.elapsed) Anyhow := by
  refine ends_tick (fun hunhurried => ?_) (fun _ _ _ => trivial) (fun _ _ _ => .inl rfl)
    fun _ hstate => ?_
  · cases hunhurried with
    | ended hended => exact .inl hended
    | disconnected hstate => exact .inr ⟨hs, onTime_of_disconnected hstate _⟩
    | logonSent hstate hearly =>
      refine .inr ⟨hs, fun _ => hearly, ?_, ?_, ?_⟩
      all_goals
        rw [hstate]
        rintro ⟨⟩
    | logoutSent hstate hearly =>
      refine .inr ⟨hs, ?_, fun _ => hearly, ?_, ?_⟩
      all_goals
        rw [hstate]
        rintro ⟨⟩
  · refine (ends_keepAlive_keptAlive now).imp ?_
    intro alive t halive
    obtain ⟨honTime, hinterval, hgrace, hutters⟩ := halive.onTime hs
    have ht : Ticking t := by
      refine ⟨?_, ?_, ?_⟩
      · rw [hutters.config]
        exact hs.valid
      · rw [hinterval]
        exact hs.interval
      · rw [hgrace, hutters.config]
        exact hs.grace
    refine (ends_retryResend_retried now).imp ?_
    intro retried u hretried
    obtain ⟨hasked, halive, hu, hremains⟩ := hretried.onTime ht honTime
    have hstate : u.state = .loggedOn := hremains.state.trans (hutters.state.trans hstate)
    refine .inr ⟨hu, ?_, ?_, fun _ => halive, fun _ => ?_⟩
    · rw [hstate]
      rintro ⟨⟩
    · rw [hstate]
      rintro ⟨⟩
    · rw [hremains.config]
      exact hasked

/-- A session that has ended or is on time has nothing to do. -/
theorem onTimer_of_onTime (h : s.terminated = true ∨ s.OnTime now.elapsed) :
    s.onTimer now = (.ok .empty, s) := by
  have hends : Ends (tick now) s (fun r t => r = .empty ∧ t = s) fun _ _ => False := by
    have honTime (hopen : s.terminated = false) : s.OnTime now.elapsed :=
      h.resolve_left (Bool.eq_false_iff.mp hopen)
    refine ends_tick (fun _ => ⟨rfl, rfl⟩) (fun hopen hstate hover => ?_)
      (fun hopen hstate hover => ?_) fun hopen hstate => ?_
    · exact absurd ((honTime hopen).logon hstate) (Nat.not_lt.mpr hover)
    · exact absurd ((honTime hopen).logout hstate) (Nat.not_lt.mpr hover)
    · refine (ends_keepAlive_of_none
        (HeartbeatMonitor.poll_of_onTime ((honTime hopen).alive hstate))).imp ?_
      rintro _ _ ⟨rfl, rfl⟩
      refine (ends_retryResend_of_none
        (GapRecovery.pollRetry_of_onTime ((honTime hopen).asked hstate))).imp ?_
      rintro _ _ ⟨rfl, rfl⟩
      exact ⟨rfl, rfl⟩
  obtain ⟨r, t, hsettle, rfl, rfl⟩ := settle_of_ends hends now
  exact hsettle

end Session

end FixProtocol
