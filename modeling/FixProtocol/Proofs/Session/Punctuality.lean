import FixProtocol.Proofs.Session.Clocked
import FixProtocol.Proofs.Session.Finality

/-!
# No wait outlives its limit

The times that matter to a timer can be told from what a session was asked and what it has put out.
What the session itself has noted is no different, so a timer call that leaves the session open has
found no time too long ago, and a second one at the same time finds nothing to do.

- `Times`: when a session entered its state, and when it last sent, received, probed and asked.
- `Session.times`: these times after a run, as an observer of the operations tells them.
- `InTime`: nothing is too long ago.
- `Punctual`: the clocks of a session show the times that an observer tells.
- `Settled.punctual_step`, `Settled.punctual_run`: they do so after an operation and after a run.
- `run_in_time`: no limit is reached after a timer call, test requests come one at a time, and a
  second timer call does nothing.
-/

namespace FixProtocol.Session

open Call

variable {σ : Type} {s t u : Session σ} {now : Moment}

/-- When an operation happens. -/
def Operation.moment : Operation → Moment
  | .logon now | .send _ _ now | .logout _ now => now
  | .receive _ now | .timer now | .disconnect now => now

/-- Does a frame arrive? -/
def Operation.isArrival : Operation → Bool
  | .receive _ _ => true
  | _ => false

/-- The frames that a session writes to answer a frame, or because of the time. -/
def Outcome.answers : Outcome → List Bytes
  | .reacted (.ok reaction) => reaction.outbound
  | _ => []

/-- When a session entered its state, and when it last did what its timers look at. -/
structure Times where
  entered : Nat
  /-- A logon that is complete counts as something sent. -/
  sent : Nat
  received : Nat
  probed : Nat
  asked : Nat

/-- Everything counts as done when the session begins. -/
def Times.startingAt (time : Nat) : Times :=
  ⟨time, time, time, time, time⟩

/-- The times after an operation with the given outcome, which leads from one state to another. -/
def Times.after (ts : Times) (op : Operation) (o : Outcome) (before after : SessionState) :
    Times :=
  let now := op.moment.elapsed
  { entered := if after = before then ts.entered else now
    sent := if o.frames ≠ [] ∨ after = .loggedOn ∧ before ≠ .loggedOn then now else ts.sent
    received := if op.isArrival then now else ts.received
    probed := if Wire.among .testRequest o.answers then now else ts.probed
    asked := if Wire.among .resendRequest o.answers then now else ts.asked }

/-- Nothing is too long ago. -/
structure InTime (c : SessionConfig) (ts : Times) (now : Nat) (s : Session σ) : Prop where
  logon : s.state = .logonSent → now - ts.entered < c.logonTimeout
  logout : s.state = .logoutSent → now - ts.entered < c.logoutTimeout
  sent : s.state = .loggedOn → now - ts.sent < s.heartbeat.interval
  heard : s.state = .loggedOn →
    s.heartbeat.pending.isSome = true ∧ now - ts.probed < c.testRequestGrace ∨
      now - ts.received < s.heartbeat.interval
  asked : s.state = .loggedOn → s.recovery.pending.isSome = true →
    now - ts.asked < c.resendTimeout

/-- The clocks of a session show the times that an observer tells. -/
structure Punctual (ts : Times) (s : Session σ) : Prop extends Ticking s where
  since : s.since = ts.entered
  sent : s.heartbeat.lastSent = ts.sent
  received : s.heartbeat.lastReceived = ts.received
  probed : ∀ time ∈ s.probedAt, time = ts.probed
  asked : ∀ time ∈ s.askedAt, time = ts.asked

/-- A punctual session that is on time is in time for an observer. -/
theorem Punctual.inTime {ts : Times} {time : Nat} (h : Punctual ts s) (hs : s.OnTime time) :
    InTime s.config ts time s where
  logon := h.since ▸ hs.logon
  logout := h.since ▸ hs.logout
  sent := fun hstate => h.sent ▸ (hs.alive hstate).sent
  heard := fun hstate => by
    rcases (hs.alive hstate).heard with ⟨probe, hpending, hgrace⟩ | ⟨_, hreceived⟩
    · refine .inl ⟨Option.isSome_of_mem hpending, ?_⟩
      rwa [← h.probed _ (Option.mem_map_of_mem _ hpending), ← h.grace]
    · rw [← h.received]
      exact .inr hreceived
  asked := fun hstate hpending => by
    obtain ⟨range, hrange⟩ := Option.isSome_iff_exists.mp hpending
    rw [← h.asked _ (Option.mem_map_of_mem _ hrange)]
    exact hs.asked hstate range hrange

theorem Dated.eq {sent : Bool} {time noted : Nat} {before after : Option Nat}
    (h : Dated time sent before after) (hbefore : ∀ t ∈ before, t = noted) :
    ∀ t ∈ after, t = if sent then time else noted := by
  intro t ht
  have hdated := h t ht
  cases sent with
  | true => exact hdated
  | false => exact hbefore t hdated

/-! ## Operations -/

variable {ts : Times} {op : Operation}

/-- A call within a state. -/
theorem Punctual.clocked {r : Reaction} (op : Operation) (h : Punctual ts s)
    (hclocked : Clocked op.moment s r.outbound t) (hop : op.isArrival = false) :
    Punctual (ts.after op (.reacted (.ok r)) s.state t.state) t where
  valid := hclocked.config ▸ h.valid
  interval := hclocked.interval ▸ h.interval
  grace := by rw [hclocked.grace, hclocked.config, h.grace]
  since := by
    show _ = if t.state = s.state then ts.entered else _
    rw [hclocked.since, if_pos hclocked.state, h.since]
  sent := by
    show _ = if r.outbound ≠ [] ∨ t.state = .loggedOn ∧ s.state ≠ .loggedOn then _ else _
    rw [hclocked.sent, hclocked.state, h.sent]
    by_cases hsilent : r.outbound = []
    · rw [if_pos hsilent, if_neg]
      rintro (hsome | ⟨hstate, hne⟩)
      · exact hsome hsilent
      · exact hne hstate
    · rw [if_neg hsilent, if_pos (.inl hsilent)]
  received := by
    show _ = if op.isArrival then _ else _
    rw [hclocked.received, hop, h.received]
    rfl
  probed := hclocked.probed.eq h.probed
  asked := hclocked.asked.eq h.asked

/-- The logon of the counterparty. -/
theorem Punctual.greeted {r : Reaction} (op : Operation) (h : Punctual ts s)
    (hgreeted : Greeted op.moment s r.outbound t) (hop : op.isArrival = true)
    (hstate : s.state ≠ .loggedOn) :
    Punctual (ts.after op (.reacted (.ok r)) s.state t.state) t where
  valid := hgreeted.config ▸ h.valid
  interval := hgreeted.interval
  grace := by rw [hgreeted.grace, hgreeted.config, h.grace]
  since := by
    show _ = if t.state = s.state then _ else _
    rw [if_neg (hgreeted.state ▸ hstate.symm), hgreeted.since]
  sent := by
    show _ = if r.outbound ≠ [] ∨ t.state = .loggedOn ∧ s.state ≠ .loggedOn then _ else _
    rw [if_pos (.inr ⟨hgreeted.state, hstate⟩), hgreeted.sent]
  received := by
    show _ = if op.isArrival then _ else _
    rw [hop, hgreeted.received]
    rfl
  probed := by
    rw [hgreeted.probed]
    exact fun _ htime => absurd htime (Option.not_mem_none _)
  asked := hgreeted.asked.eq h.asked

/-- What the owner asks for is no arrival and no answer; if it has sent something, then that is
noted, and the state that it may have entered. -/
theorem Times.after_sent {op : Operation} (hop : op.isArrival = false) (ts : Times)
    (frame : Bytes) (before after : SessionState) :
    ts.after op (.sent (.ok frame)) before after =
      { ts with
        entered := if after = before then ts.entered else op.moment.elapsed
        sent := op.moment.elapsed } := by
  simp [Times.after, Outcome.frames, Outcome.answers, Wire.among, hop]

/-- What is refused is not noted. -/
theorem Times.after_refused {op : Operation} (hop : op.isArrival = false) (ts : Times)
    (e : Error) (state : SessionState) : ts.after op (.sent (.error e)) state state = ts := by
  simp [Times.after, Outcome.frames, Outcome.answers, Wire.among, hop]

variable [MessageStore σ]

omit [MessageStore σ] in
theorem HasEnded.lasts (h : HasEnded s) : Lasts s s :=
  ⟨h.terminated, h.state, rfl, rfl⟩

/-- Sending notes its time. -/
theorem Punctual.emits {type : MsgType} {body : List Field} {frame : Bytes}
    (h : Punctual ts s) (hemits : Emits s type body now frame t) :
    Punctual { ts with sent := now.elapsed } t := by
  obtain ⟨_, _, rfl⟩ := hemits.kept
  exact { h with sent := rfl }

theorem Punctual.refused {e : Error} (h : Punctual ts s) (hrefusal : Refusal s e t) :
    Punctual ts t := by
  cases hrefusal with
  | idle => exact h
  | unkept _ => exact { h with }

omit [MessageStore σ] in
/-- Entering another state notes its time. -/
theorem Punctual.enter {state : SessionState} {entered : Nat} (h : Punctual ts s)
    (hentered : entered = now.elapsed) :
    Punctual { ts with entered } (s.enter state now) :=
  { h with since := hentered.symm }

/-- What a frame does, if the call does not fail. -/
theorem ends_process_punctual (h : Punctual ts s) (frame : Bytes) (now : Moment) :
    Ends (process frame now) s
      (fun r t => Wire.among .testRequest r.outbound = false ∧
        (t.terminated = false → Punctual
          (ts.after (.receive frame now) (.reacted (.ok r)) s.state t.state) t)) Anyhow := by
  have hheard : Punctual { ts with received := now.elapsed } (s.heard now) :=
    { h with received := rfl }
  have hnumbered {r : Reaction} {t : Session σ} (h : Timely now (s.heard now) r t) :
      Wire.among .testRequest r.outbound = false ∧ (t.terminated = false → Punctual
        (ts.after (.receive frame now) (.reacted (.ok r)) s.state t.state) t) :=
    ⟨h.1, fun hopen => hheard.clocked (.timer now) (h.clocked hopen) rfl⟩
  refine ends_process (I := .any) trivial ?refused ?early ?reset ?numbered
  case refused => exact fun _ _ _ _ _ => trivial
  case early =>
    intro _ hearly n m hp
    have hstate : s.state ≠ .loggedOn := by
      intro hstate
      rw [hstate] at hearly
      cases hearly
    refine (ends_onLogonPhase_greeted hheard.valid hp.valid ⟨m, frame⟩ now).imp ?_
    rintro r t ⟨hquiet, hgreeted⟩
    exact ⟨hquiet, fun _ => hheard.greeted (.receive frame now) hgreeted rfl hstate⟩
  case reset =>
    exact fun _ _ n m _ _ => (ends_reset_timely m now).imp fun _ _ h =>
      h.imp fun _ _ => hnumbered
  case numbered =>
    exact fun _ _ n m hp _ => (ends_onNumbered_timely hp.valid ⟨m, frame⟩ now).imp
      fun _ _ => hnumbered

/-- What a timer call does to an open session, if it does not fail. -/
theorem ends_tick_punctual (h : Punctual ts s) (now : Moment) :
    Ends (tick now) s
      (fun r t => t.terminated = false → Punctual
        (ts.after (.timer now) (.reacted (.ok r)) s.state t.state) t) Anyhow := by
  refine (ends_tick_clocked now).imp ?_
  rintro r t ⟨_, hended | hclocked⟩ hopen
  · rw [hended] at hopen
    cases hopen
  · exact h.clocked (.timer now) hclocked rfl

omit [MessageStore σ] in
/-- A call that fails leaves no open session. -/
theorem punctual_settle {call : Call σ Reaction}
    (h : Ends call s (fun r t => t.terminated = false →
      Punctual (ts.after op (.reacted (.ok r)) s.state t.state) t) Anyhow) (now : Moment)
    (hopen : (call.settle s now).2.terminated = false) :
    Punctual (ts.after op (.reacted (call.settle s now).1) s.state (call.settle s now).2.state)
      (call.settle s now).2 := by
  rcases settle_cases h now with ⟨r, t, hsettle, hpunctual⟩ | ⟨e, t, hsettle⟩
  · rw [hsettle] at hopen ⊢
    exact hpunctual hopen
  · rw [hsettle] at hopen
    cases hopen

/-- What the owner asks for is noted, or refused and not noted. -/
theorem punctual_call {call : Call σ Bytes} {Q : Bytes → Session σ → Prop}
    (hop : op.isArrival = false) (h : Punctual ts s) (hends : Ends call s Q (Refusal s))
    (hQ : ∀ frame t, Q frame t → Punctual (ts.after op (.sent (.ok frame)) s.state t.state) t) :
    Punctual (ts.after op (.sent (call.run s).1) s.state (call.run s).2.state) (call.run s).2 := by
  rcases run_cases hends with ⟨frame, t, hrun, hsent⟩ | ⟨e, t, hrun, hrefusal⟩
  · rw [hrun]
    exact hQ frame t hsent
  · rw [hrun]
    show Punctual (ts.after op (.sent (.error e)) s.state t.state) t
    rw [hrefusal.utters.state, Times.after_refused hop]
    exact h.refused hrefusal

/-- After an operation the clocks show the times that an observer tells. -/
theorem Settled.punctual_step (hs : Settled s) (h : s.terminated = false → Punctual ts s)
    (op : Operation) (hopen : (s.step op).2.terminated = false) :
    Punctual (ts.after op (s.step op).1 s.state (s.step op).2.state) (s.step op).2 := by
  cases hs with
  | ended hended =>
    rw [(lasts_step hended.lasts op).2.terminated] at hopen
    cases hopen
  | idle hidles =>
  have h : Punctual ts s := h hidles.isOpen
  cases op with
  | logon now =>
    refine punctual_call rfl h (ends_logon_emits now) ?_
    rintro frame _ ⟨_, _, hstate, u, hemits, rfl⟩
    rw [Times.after_sent rfl]
    refine (h.emits hemits).enter (if_neg ?_)
    rw [hstate]
    exact nofun
  | send type fields now =>
    refine punctual_call rfl h (ends_send_emits type fields now) ?_
    rintro frame t ⟨_, _, _, hemits⟩
    rw [Times.after_sent rfl, if_pos hemits.utters.state]
    exact h.emits hemits
  | logout text now =>
    refine punctual_call rfl h (ends_logout_emits text now) ?_
    rintro frame _ ⟨_, hstate, u, hemits, rfl⟩
    rw [Times.after_sent rfl]
    refine (h.emits hemits).enter (if_neg ?_)
    rw [hstate]
    exact nofun
  | receive frame now =>
    have hends := ends_process_punctual h frame now
    exact punctual_settle (hends.imp fun _ _ h => h.2) now hopen
  | timer now => exact punctual_settle (ends_tick_punctual h now) now hopen
  | disconnect now =>
    have hended : s.disconnect now = s.terminate now :=
      if_neg (Bool.eq_false_iff.mp hidles.isOpen)
    have hopen : (s.disconnect now).terminated = false := hopen
    rw [hended] at hopen
    cases hopen

/-! ## Runs -/

/-- The times after a run, as an observer of the operations tells them. -/
def times (s : Session σ) (ts : Times) : List Operation → Times
  | [] => ts
  | op :: ops => (s.step op).2.times (ts.after op (s.step op).1 s.state (s.step op).2.state) ops

theorem times_append (s : Session σ) (ts : Times) (ops more : List Operation) :
    s.times ts (ops ++ more) = (s.run ops).2.times (s.times ts ops) more := by
  induction ops generalizing s ts with
  | nil => rfl
  | cons op ops ih => exact ih (s.step op).2 _

/-- The induction is on the operations. -/
theorem Settled.punctual_run (hs : Settled s) (h : s.terminated = false → Punctual ts s)
    (ops : List Operation) (hopen : (s.run ops).2.terminated = false) :
    Punctual (s.times ts ops) (s.run ops).2 := by
  induction ops generalizing s ts with
  | nil => exact h hopen
  | cons op ops ih => exact ih (hs.steps op).settled (hs.punctual_step h op) hopen

theorem punctual_of_open {config : SessionConfig} {store : σ} {opened : Nat}
    (h : open? config store opened = .ok s) : Punctual (.startingAt opened) s := by
  obtain ⟨hvalid, rfl⟩ := open?_eq_ok_iff.mp h
  have hpos : 0 < config.heartbeatSeconds := (SessionConfig.validate_eq_ok_iff.mp hvalid).2.2.1.1
  exact ⟨⟨hvalid, Nat.pos_of_div_pos hpos, rfl⟩, rfl, rfl, rfl, nofun, nofun⟩

/-- Test requests come one at a time, unless the application sends one itself under another name. -/
theorem Settled.probes_step (hs : Settled s) (h : s.terminated = false → Punctual ts s)
    {op : Operation} (hop : op.Within ⟨fun _ => True, isAppCode⟩) :
    (s.step op).1.frames.countP (Wire.isOf .testRequest) ≤
      if s.heartbeat.pending.isSome then 0 else 1 := by
  have hquiet {frames : List Bytes} (hamong : Wire.among .testRequest frames = false) :
      frames.countP (Wire.isOf .testRequest) ≤ if s.heartbeat.pending.isSome then 0 else 1 :=
    (Wire.countP_of_among hamong).trans_le (Nat.zero_le _)
  have hcall {call : Call σ Bytes} {Q : Bytes → Session σ → Prop}
      (hends : Ends call s Q (Refusal s))
      (hQ : ∀ frame t, Q frame t → Wire.among .testRequest [frame] = false) :
      Wire.among .testRequest (Outcome.sent (call.run s).1).frames = false := by
    rcases run_cases hends with ⟨frame, t, hrun, hsent⟩ | ⟨e, t, hrun, _⟩
    · rw [hrun]
      exact hQ frame t hsent
    · rw [hrun]
      rfl
  cases hs with
  | ended hended =>
    rw [(lasts_step hended.lasts op).1, op.finalOutcome_silent.1]
    exact Nat.zero_le _
  | idle hidles =>
  cases op with
  | logon now =>
    refine hquiet (hcall (ends_logon_emits now) ?_)
    rintro frame _ ⟨_, _, _, u, hemits, rfl⟩
    exact hemits.among .testRequest
  | send type fields now =>
    refine hquiet (hcall (ends_send_emits type fields now) ?_)
    rintro frame _ ⟨_, _, _, hemits⟩
    rw [hemits.among]
    refine decide_eq_false fun htype => ?_
    have happ : (MsgType.ofCode type.code).isApp = true := hop
    rw [htype] at happ
    cases happ
  | logout text now =>
    refine hquiet (hcall (ends_logout_emits text now) ?_)
    rintro frame _ ⟨_, _, u, hemits, rfl⟩
    exact hemits.among .testRequest
  | receive frame now =>
    refine hquiet ?_
    show Wire.among .testRequest (Outcome.reacted ((process frame now).settle s now).1).frames = _
    rcases settle_cases (ends_process_punctual (h hidles.isOpen) frame now) now with
      ⟨r, t, hsettle, hnone, _⟩ | ⟨e, t, hsettle⟩
    · rw [hsettle]
      exact hnone
    · rw [hsettle]
      rfl
  | timer now =>
    show (Outcome.reacted ((tick now).settle s now).1).frames.countP _ ≤ _
    rcases settle_cases (ends_tick_clocked (s := s) now) now with
      ⟨r, t, hsettle, hprobes, _⟩ | ⟨e, t, hsettle⟩
    · rw [hsettle]
      exact hprobes
    · rw [hsettle]
      exact Nat.zero_le _
  | disconnect now => exact hquiet rfl

/-- After a timer call the session has ended, or it is on time. -/
theorem onTime_step_timer (hs : Settled s) (h : s.terminated = false → Punctual ts s)
    (now : Moment) :
    (s.step (.timer now)).2.terminated = true ∨ (s.step (.timer now)).2.OnTime now.elapsed := by
  cases hs with
  | ended hended => exact .inl (lasts_step hended.lasts _).2.terminated
  | idle hidles =>
    show ((tick now).settle s now).2.terminated = true ∨ ((tick now).settle s now).2.OnTime _
    rcases settle_cases (ends_tick_onTime (h hidles.isOpen).toTicking now) now with
      ⟨r, t, hsettle, honTime⟩ | ⟨e, t, hsettle⟩
    · rw [hsettle]
      exact honTime.imp_right And.right
    · rw [hsettle]
      exact .inl rfl

/-- Over every run of a new session, whatever its store and whichever way its clock runs: if the
session is open after a timer call, no wait has reached its limit, where a logon that is complete
counts as something sent. An operation puts out one test request at most, and none while one waits.
After a timer call a second one at the same time has nothing to do. -/
theorem run_in_time {config : SessionConfig} {store : σ} {opened : Nat} {s₀ : Session σ}
    (h : open? config store opened = .ok s₀) (ops : List Operation) (now : Moment) :
    let s := (s₀.run ops).2
    let t := (s.step (.timer now)).2
    (t.terminated = false →
      InTime config (s₀.times (.startingAt opened) (ops ++ [.timer now])) now.elapsed t) ∧
    (∀ op : Operation, op.Within ⟨fun _ => True, isAppCode⟩ →
      (s.step op).1.frames.countP (Wire.isOf .testRequest) ≤
        if s.heartbeat.pending.isSome then 0 else 1) ∧
    ∀ later : Moment, later.elapsed = now.elapsed →
      t.step (.timer later) = (.reacted (.ok .empty), t) := by
  intro s t
  have hsettled : Settled s := settled_run_of_open h ops
  have hpunctual : s.terminated = false → Punctual (s₀.times (.startingAt opened) ops) s :=
    (settled_of_open h).punctual_run (fun _ => punctual_of_open h) ops
  have honTime : t.terminated = true ∨ t.OnTime now.elapsed :=
    onTime_step_timer hsettled hpunctual now
  refine ⟨fun hopen => ?_, fun op hop => hsettled.probes_step hpunctual hop,
    fun later hlater => ?_⟩
  · have hconfig : t.config = config :=
      (stepped_any (sound_run_of_open h ops) (.timer now)).config_eq.trans
        (config_run_of_open h ops)
    rw [← hconfig, times_append]
    have hopen' : ¬ t.terminated = true := Bool.eq_false_iff.mp hopen
    exact (hsettled.punctual_step hpunctual _ hopen).inTime (honTime.resolve_left hopen')
  · rw [← hlater] at honTime
    show (Outcome.reacted (t.onTimer later).1, (t.onTimer later).2) = _
    rw [onTimer_of_onTime honTime]

open Sample

/-- The initiator logs on at the start, the answer comes after twenty seconds, and after forty
nothing is due: it is twenty seconds since the logon was complete. -/
theorem run_in_time_initiator :
    let s₀ : Session MemoryStore := .fresh initiator .empty 0
    let ops : List Operation :=
      [.logon moment, .receive (Sample.logon acceptor) (moment.later 20000)]
    let now := moment.later 40000
    let t := ((s₀.run ops).2.step (.timer now)).2
    t.terminated = false ∧ t.state = .loggedOn ∧
      (s₀.times (.startingAt 0) (ops ++ [.timer now])).sent = 20000 ∧
      40000 - 20000 < t.heartbeat.interval ∧
      t.step (.timer now) = (.reacted (.ok .empty), t) := by
  intro s₀ ops now t
  have hopen : t.terminated = false := by decide +kernel
  have hstate : t.state = .loggedOn := by decide +kernel
  have hsent : (s₀.times (.startingAt 0) (ops ++ [.timer now])).sent = 20000 := by decide +kernel
  obtain ⟨hinTime, _, hagain⟩ := run_in_time open_initiator ops now
  refine ⟨hopen, hstate, hsent, ?_, hagain now rfl⟩
  rw [← hsent]
  exact (hinTime hopen).sent hstate

/-- There the only frame that was sent went out at the start, forty seconds ago, and the interval is
thirty seconds. -/
theorem silent_beyond_interval :
    let s₀ : Session MemoryStore := .fresh initiator .empty 0
    let ops : List Operation :=
      [.logon moment, .receive (Sample.logon acceptor) (moment.later 20000)]
    let now := moment.later 40000
    let t := ((s₀.run ops).2.step (.timer now)).2
    open? initiator MemoryStore.empty 0 = .ok s₀ ∧
      (s₀.run (ops ++ [.timer now])).1.map Outcome.frames = [[Sample.logon initiator], [], []] ∧
      ((s₀.run (ops ++ [.timer now])).1.all fun o => o.failure?.isNone) = true ∧
      t.terminated = false ∧ t.state = .loggedOn ∧
      ¬ now.elapsed - moment.elapsed < t.heartbeat.interval := by
  refine ⟨open_initiator, ?_⟩
  decide +kernel

end FixProtocol.Session
