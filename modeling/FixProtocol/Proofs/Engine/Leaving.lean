import FixProtocol.Proofs.Engine.Output
import FixProtocol.Proofs.Session.Leaving

/-!
# The end of a shut down

A shut down of a session that is logged on has its logout written, and then the task waits for the
one of the counterparty. What the application sends does not end the wait, nor does a tick before its
time is up; of what is read only a logout does, or a failure. But a second shut down ends it at once,
as if the session were not logged on yet: nothing is written, and the logout of the counterparty is
not waited for any more.

- `SessionTask.ends_onReadable_changes`: what is read is handed to the session, and nothing else is
  asked of it.
- `SessionTask.step_send_of_leaving` and the lemmas after it: what each event does to the wait.
- `SessionTask.leaving_of_shutdown`: a shut down begins the wait, and it lasts as long as the task goes
  on.
- `SessionTask.run_ends_wait`: what ends it in any run.
-/

namespace FixProtocol.SessionTask

variable {σ α : Type} {t u : SessionTask σ} {now : Moment}

/-! ## Failures -/

/-- Work fails because the session does, or the transport. -/
def ByFailure (e : TaskError) (_ : SessionTask σ) : Prop :=
  ∃ failure, e = .failed failure

theorem ends_failTransport_byFailure (error : Error) (now : Moment)
    {Q : α → SessionTask σ → Prop} : Ends (failTransport error now) t Q ByFailure :=
  ends_failTransport.mpr ⟨_, rfl⟩

theorem isRunning_toldOf (t : SessionTask σ) (reaction : Reaction) :
    (t.toldOf reaction).isRunning = t.isRunning := by
  have hlogon : t.publish.tellLogon.isRunning = t.isRunning := by
    unfold tellLogon
    split <;> rfl
  have hreported : (reaction.reported.foldl (fun t f => t.tell (.failure f))
      t.publish.tellLogon).isRunning = t.isRunning :=
    List.foldlRecOn (motive := fun u : SessionTask σ => u.isRunning = t.isRunning) _ _ hlogon
      fun _ h _ _ => h
  exact List.foldlRecOn (motive := fun u : SessionTask σ => u.isRunning = t.isRunning) _ _
    hreported fun _ h _ _ => h

theorem session_toldOf (t : SessionTask σ) (reaction : Reaction) :
    (t.toldOf reaction).session = t.session :=
  (tells_toldOf t reaction).session.trans (tellLogon_same t.publish).1

variable [MessageStore σ] {A : Session.Operation → Prop}

theorem Change.isRunning_eq (h : Change A t u) : u.isRunning = t.isRunning := by
  cases h with
  | reacted => exact isRunning_toldOf _ _
  | _ => rfl

theorem Changes.isRunning_eq (h : Changes A t u) : u.isRunning = t.isRunning := by
  induction h with
  | refl => rfl
  | tail _ hchange ih => exact hchange.isRunning_eq.trans ih

/-! ## Reading -/

/-- The calls that hand a frame to the session. -/
def Receives (now : Moment) (op : Session.Operation) : Prop :=
  ∃ frame, op = .receive frame now

/-- A reaction is done, or fails. -/
theorem ends_settle_change {op : Session.Operation} {outcome : Except Failure Reaction}
    {s : Session σ} (h : t.session.step op = (.reacted outcome, s)) (hop : A op) (now : Moment) :
    Ends (settle outcome now) { t with session := s } (fun _ u => Change A t u) ByFailure := by
  cases outcome with
  | error failure => exact ends_failWith.mpr ⟨failure, rfl⟩
  | ok reaction =>
    rw [settle, ends_bind]
    refine (ends_writeAll reaction.outbound now).mono ?_ ?_
    · rintro _ _ ⟨hroom, rfl⟩
      exact .reacted h hop hroom
    · rintro e u ⟨_, _, _, _, _, _, rfl, _⟩
      exact ⟨_, rfl⟩

/-- What is read only has frames handed to the session. -/
theorem ends_onReadable_changes (bs : Bytes) (now : Moment) :
    Ends (onReadable bs now) t (fun _ u => Changes (Receives now) t u) ByFailure := by
  refine ends_onReadable (B := fun _ => ByFailure) (fun _ _ _ _ _ h => h) (fun _ _ => ⟨_, rfl⟩)
    (fun t frame => ?_) bs
  have hstep : t.session.step (.receive frame now) =
    (.reacted (t.session.receive frame now).1, (t.session.receive frame now).2) := rfl
  exact (ends_settle_change (A := Receives now) hstep ⟨frame, rfl⟩ now).mono
    (fun _ _ => .single) (fun _ _ h => h)

/-! ## The session of a task that waits -/

section
variable {config : SessionConfig} {store : σ} {opened since : Nat} {session : Session σ}
  {ops : List Session.Operation} (hopen : Session.open? config store opened = .ok session)
include hopen

/-- What waits in a session was received. -/
theorem sound_received (ops more : List Session.Operation) :
    Session.Sound (.received (ops ++ more)) (session.run ops).2 := by
  have hnew : Session.Sound (.received (ops ++ more)) session := Session.sound_of_open hopen
  exact hnew.ran (Session.ran hnew fun op hop =>
    Session.within_received op (List.mem_append_left more hop))

/-- The frames that are read leave the session waiting, unless it has ended with a logout. The
induction is on the changes. -/
theorem leaving_changes (hsession : t.session = (session.run ops).2)
    (hs : t.session.IsLeaving since) (hchanges : Changes (Receives now) t u) :
    ∃ more, (∀ op ∈ more, Receives now op) ∧ u.session = (session.run (ops ++ more)).2 ∧
      (u.session.IsLeaving since ∨
        u.session.HasEnded ∧ Session.TookLogout (.received (ops ++ more)) u.session) := by
  induction hchanges with
  | refl => exact ⟨[], List.forall_mem_nil _, (List.append_nil ops).symm ▸ hsession, .inl hs⟩
  | @tail v w _ hchange ih =>
    obtain ⟨more, hmore, hv, hwaits⟩ := ih
    cases hchange with
    | buffer => exact ⟨more, hmore, hv, hwaits⟩
    | publish => exact ⟨more, hmore, hv, hwaits⟩
    | refused hstep hop =>
      obtain ⟨frame, rfl⟩ := hop
      cases congrArg Prod.fst hstep
    | sent hstep hop =>
      obtain ⟨frame, rfl⟩ := hop
      cases congrArg Prod.fst hstep
    | disconnect now' hop =>
      obtain ⟨frame, hop⟩ := hop
      cases hop
    | @reacted op reaction s hstep hop hroom =>
      obtain ⟨frame, rfl⟩ := hop
      have hw : ((SessionTask.wrote { v with session := s } reaction.outbound).toldOf
        reaction).session = s := session_toldOf _ reaction
      refine ⟨more ++ [.receive frame now], List.forall_mem_append.mpr
        ⟨hmore, List.forall_mem_singleton.mpr ⟨frame, rfl⟩⟩, ?_⟩
      rw [hw, ← List.append_assoc]
      constructor
      · rw [Session.run_append, ← hv]
        show s = (v.session.step (.receive frame now)).2
        rw [hstep]
      · rcases hwaits with hwaits | ⟨hended, _⟩
        · have hsound := sound_received hopen (ops ++ more) [.receive frame now]
          rw [← hv] at hsound
          exact hwaits.received hsound
            ⟨now, List.mem_append_right _ (List.mem_singleton_self _)⟩ hstep
        · exact absurd hstep (hended.step_receive_ne frame now reaction)

end

/-! ## Events -/

/-- What becomes of a task in an event: it goes on, or it has ended; with its session, or because the
work failed. -/
theorem step_cases {event : Event} {Q : SessionTask σ → Prop} {E : TaskError → SessionTask σ → Prop}
    (hrunning : t.isRunning = true) (h : Ends (handle event now) t (fun _ u => Q u) E) :
    (∃ u, Q u ∧ u.session.terminated = false ∧ (t.step event now).2 = u) ∨
      (∃ u, Q u ∧ u.session.terminated = true ∧
        (t.step event now).2 = u.tellLogout.finish (.ok ())) ∨
      ∃ e u, E e u ∧ (t.step event now).2 = u.finish (.error e) := by
  rw [step, if_pos hrunning]
  unfold Ends at h
  unfold perform
  cases heq : handle event now t with
  | ok a u =>
    rw [heq] at h
    by_cases hended : u.session.terminated = true
    · exact .inr (.inl ⟨u, h, hended, if_pos hended⟩)
    · exact .inl ⟨u, h, Bool.eq_false_iff.mpr hended, if_neg hended⟩
  | error e u =>
    rw [heq] at h
    exact .inr (.inr ⟨e, u, h, rfl⟩)

/-- A task that goes on after a shut down of a session that was logged on has written its logout, and
waits. -/
theorem step_shutdown_of_loggedOn {text : Option String} (hrunning : t.isRunning = true)
    (hstate : t.session.state = .loggedOn)
    (hgoes : (t.step (.shutdown text) now).2.isRunning = true) :
    ∃ logout, (t.step (.shutdown text) now).2.written = t.written ++ [logout] ∧
      Wire.isOf .logout logout = true ∧
      (t.step (.shutdown text) now).2.session.IsLeaving now.elapsed := by
  have hends : Ends (handle (.shutdown text) now) t
      (fun _ u => ∃ frame s, (Session.logout text now).run t.session = (.ok frame, s) ∧
        u = (SessionTask.wrote { t with session := s } [frame]).publish) (fun _ _ => True) := by
    show Ends (onShutdown text now) t _ _
    unfold onShutdown
    rw [ends_bind, ends_get, if_pos hstate]
    refine ends_onSession_run fun answer s hrun => ?_
    cases answer with
    | error e => trivial
    | ok frame =>
      dsimp only
      rw [ends_bind]
      refine (ends_write frame now).mono ?_ (fun _ _ _ => trivial)
      rintro _ _ ⟨_, rfl⟩
      exact ⟨frame, s, hrun, rfl⟩
  rcases step_cases hrunning hends with
    ⟨_, ⟨frame, s, hrun, rfl⟩, _, hu⟩ | ⟨_, _, _, hu⟩ | ⟨_, _, _, hu⟩
  · obtain ⟨hleaving, hlogout⟩ := Session.isLeaving_of_logout hrun
    rw [hu]
    exact ⟨frame, rfl, hlogout, hleaving⟩
  · rw [hu] at hgoes
    cases hgoes
  · rw [hu] at hgoes
    cases hgoes

section
variable {since : Nat} (hrunning : t.isRunning = true) (hs : t.session.IsLeaving since)
include hrunning hs

/-- What the application sends is refused. -/
theorem step_send_of_leaving (type : MsgType) (fields : List Field) (now : Moment) :
    (t.step (.send type fields) now).2 = t := by
  obtain ⟨e, hrefused⟩ := hs.refuses type fields now
  have hends : Ends (handle (.send type fields) now) t (fun _ u => u = t) (fun _ _ => False) := by
    show Ends (onSend type fields now) t _ _
    refine ends_onSession_run fun answer s hrun => ?_
    rw [hrefused] at hrun
    cases hrun
    exact rfl
  rcases step_cases hrunning hends with ⟨_, rfl, _, hu⟩ | ⟨_, rfl, hended, _⟩ | ⟨_, _, hnever, _⟩
  · exact hu
  · rw [hs.isOpen] at hended
    cases hended
  · exact hnever.elim

/-- A tick ends the task when the time for the answer is up. -/
theorem step_tick_of_leaving (now : Moment) :
    if t.session.config.logoutTimeout ≤ now.elapsed - since then
      (t.step .tick now).2.result = some (.ok ())
    else (t.step .tick now).2.isRunning = true ∧ (t.step .tick now).2.session = t.session := by
  have htimed := hs.timed now
  have hends : Ends (handle .tick now) t
      (fun _ u => u.isRunning = true ∧ u.session =
        if t.session.config.logoutTimeout ≤ now.elapsed - since then t.session.terminate now
        else t.session) (fun _ _ => False) := by
    have hanswer : (t.session.onTimer now).1 = .ok .empty :=
      Session.Outcome.reacted.inj (congrArg Prod.fst htimed)
    simp only [handle, onTick, ends_bind, ends_onSession, hanswer, settle, Reaction.empty,
      writeAll, ends_pure, ends_modify]
    refine ⟨(isRunning_toldOf { t with session := (t.session.onTimer now).2 } .empty).trans hrunning,
      ?_⟩
    exact (session_toldOf { t with session := (t.session.onTimer now).2 } .empty).trans
      (congrArg Prod.snd htimed)
  have hopen := hs.isOpen
  rcases step_cases hrunning hends with
    ⟨_, ⟨hgoes, hsession⟩, hgoesOn, rfl⟩ | ⟨_, ⟨_, hsession⟩, hended, hu⟩ | ⟨_, _, hnever, _⟩
  · split at hsession
    · rw [hsession] at hgoesOn
      cases hgoesOn
    · next hearly =>
      rw [if_neg hearly]
      exact ⟨hgoes, hsession⟩
  · split at hsession
    · next hlate =>
      rw [if_pos hlate, hu]
      rfl
    · rw [hsession, hopen] at hended
      cases hended
  · exact hnever.elim

/-- A second shut down ends the task, whatever it waits for. -/
theorem step_shutdown_of_leaving (text : Option String) (now : Moment) :
    (t.step (.shutdown text) now).2.result = some (.ok ()) ∧
      (t.step (.shutdown text) now).2.session = t.session.terminate now ∧
      (t.step (.shutdown text) now).2.written = t.written := by
  have hstate : t.session.state ≠ .loggedOn := by
    rw [hs.state]
    exact nofun
  have hends : Ends (handle (.shutdown text) now) t
      (fun _ u => u = SessionTask.publish { t with session := t.session.disconnect now })
      (fun _ _ => False) := by
    show Ends (onShutdown text now) t _ _
    unfold onShutdown
    rw [ends_bind, ends_get, if_neg hstate]
    exact rfl
  have hdisconnect : t.session.disconnect now = t.session.terminate now :=
    if_neg (Bool.eq_false_iff.mp hs.isOpen)
  rw [hdisconnect] at hends
  rcases step_cases hrunning hends with ⟨_, rfl, hgoesOn, _⟩ | ⟨_, rfl, _, hu⟩ | ⟨_, _, hnever, _⟩
  · cases hgoesOn
  · rw [hu]
    obtain ⟨hsession, hwritten, _⟩ :=
      tellLogout_same (SessionTask.publish { t with session := t.session.terminate now })
    exact ⟨rfl, hsession, hwritten⟩
  · exact hnever.elim

omit hs in
/-- What ends the reading fails. -/
theorem step_failed {event : Event}
    (h : Ends (handle event now) t (fun _ _ => False) ByFailure) :
    ∃ failure, (t.step event now).2.result = some (.error (.failed failure)) := by
  rcases step_cases hrunning (Q := fun _ => False) h with
    ⟨_, hnever, _⟩ | ⟨_, hnever, _⟩ | ⟨_, _, ⟨failure, rfl⟩, hu⟩
  · exact hnever.elim
  · exact hnever.elim
  · rw [hu]
    exact ⟨failure, rfl⟩

omit hs in
theorem step_closed_failed (now : Moment) :
    ∃ failure, (t.step .closed now).2.result = some (.error (.failed failure)) := by
  refine step_failed hrunning ?_
  simp only [handle, onClosed, ends_bind, ends_get]
  exact ends_failTransport_byFailure _ now

omit hs in
theorem step_readFailed_failed (reason : String) (now : Moment) :
    ∃ failure, (t.step (.readFailed reason) now).2.result = some (.error (.failed failure)) := by
  refine step_failed hrunning ?_
  simp only [handle, ends_bind]
  exact ends_failTransport_byFailure _ now

/-- What is read ends the task by a failure, or with a logout of the counterparty. -/
theorem step_received_of_leaving {config : SessionConfig} {store : σ} {opened : Nat}
    {session : Session σ} {ops : List Session.Operation}
    (hopen : Session.open? config store opened = .ok session)
    (hsession : t.session = (session.run ops).2) (bytes : Bytes) (now : Moment) :
    let u := (t.step (.received bytes) now).2
    (∃ failure, u.result = some (.error (.failed failure))) ∨
      ∃ more, (∀ op ∈ more, Receives now op) ∧ u.session = (session.run (ops ++ more)).2 ∧
        (u.isRunning = true ∧ u.session.IsLeaving since ∨
          u.result = some (.ok ()) ∧
            Session.TookLogout (.received (ops ++ more)) u.session) := by
  intro u
  have hends : Ends (handle (.received bytes) now) t
      (fun _ u => Changes (Receives now) t u) ByFailure := by
    simp only [handle, ends_bind, ends_pure]
    exact ends_onReadable_changes bytes now
  rcases step_cases hrunning hends with
    ⟨v, hchanges, hgoesOn, hu⟩ | ⟨v, hchanges, hended, hu⟩ | ⟨_, _, ⟨failure, rfl⟩, hu⟩
  · obtain ⟨more, hmore, hv, hleaving | ⟨hended, _⟩⟩ := leaving_changes hopen hsession hs hchanges
    · rw [show u = v from hu]
      exact .inr ⟨more, hmore, hv, .inl ⟨hchanges.isRunning_eq.trans hrunning, hleaving⟩⟩
    · rw [hended.terminated] at hgoesOn
      cases hgoesOn
  · obtain ⟨more, hmore, hv, hleaving | ⟨_, hlogout⟩⟩ := leaving_changes hopen hsession hs hchanges
    · rw [hleaving.isOpen] at hended
      cases hended
    · have hsame : u.session = v.session := by
        rw [show u = _ from hu]
        exact (tellLogout_same v).1
      rw [hsame]
      refine .inr ⟨more, hmore, hv, .inr ⟨?_, hlogout⟩⟩
      rw [show u = _ from hu]
      rfl
  · rw [show u = _ from hu]
    exact .inl ⟨failure, rfl⟩

end

/-! ## Runs -/

theorem run_append (t : SessionTask σ) (events more : List (Event × Moment)) :
    t.run (events ++ more) = (t.run events).run more := by
  induction events generalizing t with
  | nil => rfl
  | cons entry events ih => exact ih _

theorem isRunning_of_run {events : List (Event × Moment)} (h : (t.run events).isRunning = true) :
    t.isRunning = true := by
  by_contra hended
  rw [run_of_ended (Bool.eq_false_iff.mpr hended)] at h
  exact hended h

section
variable {config : SessionConfig} {store : σ} {opened since : Nat} {session : Session σ}
  {ops : List Session.Operation} (hopen : Session.open? config store opened = .ok session)
include hopen

/-- A task that goes on after an event goes on waiting. -/
theorem leaving_step (hsession : t.session = (session.run ops).2)
    (hs : t.session.IsLeaving since) {event : Event}
    (hgoes : (t.step event now).2.isRunning = true) (hrunning : t.isRunning = true) :
    ∃ more, (t.step event now).2.session = (session.run (ops ++ more)).2 ∧
      (t.step event now).2.session.IsLeaving since := by
  have hsame (h : (t.step event now).2.session = t.session) :
      ∃ more, (t.step event now).2.session = (session.run (ops ++ more)).2 ∧
        (t.step event now).2.session.IsLeaving since := by
    rw [h]
    exact ⟨[], (List.append_nil ops).symm ▸ hsession, hs⟩
  have hended {result : Except TaskError Unit}
      (h : (t.step event now).2.result = some result) : False := by
    rw [isRunning, h] at hgoes
    cases hgoes
  cases event with
  | received bytes =>
    rcases step_received_of_leaving hrunning hs hopen hsession bytes now with
      ⟨_, hfailed⟩ | ⟨more, _, hmore, ⟨_, hleaving⟩ | ⟨hdone, _⟩⟩
    · exact (hended hfailed).elim
    · exact ⟨more, hmore, hleaving⟩
    · exact (hended hdone).elim
  | closed =>
    obtain ⟨_, hfailed⟩ := step_closed_failed hrunning now
    exact (hended hfailed).elim
  | readFailed reason =>
    obtain ⟨_, hfailed⟩ := step_readFailed_failed hrunning reason now
    exact (hended hfailed).elim
  | tick =>
    have htick := step_tick_of_leaving hrunning hs now
    split at htick
    · exact (hended htick).elim
    · exact hsame htick.2
  | send type fields =>
    exact hsame (congrArg SessionTask.session (step_send_of_leaving hrunning hs type fields now))
  | shutdown text => exact (hended (step_shutdown_of_leaving hrunning hs text now).1).elim

/-- As long as the task goes on it waits. The induction is on the events. -/
theorem leaving_run (hsession : t.session = (session.run ops).2)
    (hs : t.session.IsLeaving since) {events : List (Event × Moment)}
    (hgoes : (t.run events).isRunning = true) : (t.run events).session.IsLeaving since := by
  induction events generalizing t ops with
  | nil => exact hs
  | cons entry events ih =>
    obtain ⟨event, now⟩ := entry
    have hrunning : t.isRunning = true := isRunning_of_run hgoes
    have hstep : (t.step event now).2.isRunning = true := isRunning_of_run hgoes
    obtain ⟨more, hmore, hleaving⟩ := leaving_step hopen hsession hs hstep hrunning
    exact ih hmore hleaving hgoes

/-- A shut down of a session that is logged on has its logout written, and as long as the task goes on
it waits. -/
theorem leaving_of_shutdown (fault : Option (Nat × String)) (start : Moment)
    (before : List (Event × Moment)) (text : Option String) (asked : Moment)
    (after : List (Event × Moment)) :
    let begun := (ofSession session fault).begin start
    let task := begun.run (before ++ (.shutdown text, asked) :: after)
    (begun.run before).session.state = .loggedOn → task.isRunning = true →
      (∃ logout, (begun.run (before ++ [(.shutdown text, asked)])).written =
        (begun.run before).written ++ [logout] ∧ Wire.isOf .logout logout = true) ∧
      task.session.IsLeaving asked.elapsed := by
  intro begun task hstate hrunning
  let asks := begun.run before
  have htask : task = (asks.step (.shutdown text) asked).2.run after := run_append begun before _
  rw [htask] at hrunning ⊢
  have hleft : (asks.step (.shutdown text) asked).2.isRunning = true := isRunning_of_run hrunning
  have hasked : (asks.run [(.shutdown text, asked)]).isRunning = true := hleft
  obtain ⟨logout, hwritten, hlogout, hleaving⟩ :=
    step_shutdown_of_loggedOn (isRunning_of_run hasked) hstate hleft
  have hstep : begun.run (before ++ [(.shutdown text, asked)]) =
      (asks.step (.shutdown text) asked).2 := run_append begun before _
  obtain ⟨_, _, _, _, hconcludes⟩ :=
    begun_concludes session fault start (before ++ [(.shutdown text, asked)])
  exact ⟨⟨logout, hstep ▸ hwritten, hlogout⟩,
    leaving_run hopen (hstep ▸ hconcludes.session_eq) hleaving hrunning⟩

/-- Over every session and store, and for every run of a task. The owner shuts down a session that is
logged on, and the task goes on: then it has written its logout, and waits for that of the
counterparty as long as it goes on. What the application sends does not end the wait, a tick does
when the time for the answer is up, and the transport does when it breaks. What is read ends it by a
failure, or when a logout that was received is taken. But a second shut down ends it as well, at any
time, without a failure and without another word to the counterparty. -/
theorem run_ends_wait (fault : Option (Nat × String)) (start : Moment)
    (before : List (Event × Moment)) (text : Option String) (asked : Moment)
    (after : List (Event × Moment)) (event : Event) (now : Moment) :
    let begun := (ofSession session fault).begin start
    let events := before ++ (.shutdown text, asked) :: after
    let task := begun.run events
    let ended := (task.step event now).2
    (begun.run before).session.state = .loggedOn → task.isRunning = true →
      (∃ logout, (begun.run (before ++ [(.shutdown text, asked)])).written =
        (begun.run before).written ++ [logout] ∧ Wire.isOf .logout logout = true) ∧
      task.session.state = .logoutSent ∧
      match event with
      | .send .. => ended = task
      | .tick =>
        if config.logoutTimeout ≤ now.elapsed - asked.elapsed then ended.result = some (.ok ())
        else ended.isRunning = true
      | .closed | .readFailed _ => ∃ failure, ended.result = some (.error (.failed failure))
      | .received _ =>
        ended.isRunning = true ∨ (∃ failure, ended.result = some (.error (.failed failure))) ∨
          ended.result = some (.ok ()) ∧ ∃ opening calls, (∀ op ∈ opening, Begins start op) ∧
            AskedBy (events ++ [(event, now)]) calls ∧
            let ops := opening ++ calls.flatten
            ended.session = (session.run ops).2 ∧
            Session.TookLogout (.received ops) ended.session
      | .shutdown _ => ended.result = some (.ok ()) ∧ ended.written = task.written := by
  intro begun events task ended hstate hrunning
  obtain ⟨hwritten, hwaits⟩ :=
    leaving_of_shutdown hopen fault start before text asked after hstate hrunning
  obtain ⟨opening, calls, hopening, hcalls, hconcludes⟩ :=
    begun_concludes session fault start events
  have hconfig : task.session.config = config := by
    rw [hconcludes.session_eq]
    exact Session.config_run_of_open hopen _
  refine ⟨hwritten, hwaits.state, ?_⟩
  cases event with
  | send type fields => exact step_send_of_leaving hrunning hwaits type fields now
  | tick =>
    have htick := step_tick_of_leaving hrunning hwaits now
    rw [hconfig] at htick
    dsimp only
    split at htick
    · next hlate => exact if_pos hlate ▸ htick
    · next hearly => exact if_neg hearly ▸ htick.1
  | closed => exact step_closed_failed hrunning now
  | readFailed reason => exact step_readFailed_failed hrunning reason now
  | shutdown text' =>
    obtain ⟨hdone, _, hsilent⟩ := step_shutdown_of_leaving hrunning hwaits text' now
    exact ⟨hdone, hsilent⟩
  | received bytes =>
    rcases step_received_of_leaving hrunning hwaits hopen hconcludes.session_eq bytes now with
      hfailed | ⟨more, hmore, hsession, ⟨hgoes, _⟩ | ⟨hdone, htook⟩⟩
    · exact .inr (.inl hfailed)
    · exact .inl hgoes
    · refine .inr (.inr ⟨hdone, opening, calls ++ [more], hopening, ?_, ?_⟩)
      · refine List.rel_append hcalls (.cons ?_ .nil)
        intro op hop
        obtain ⟨frame, rfl⟩ := hmore op hop
        exact rfl
      · have hops : opening ++ (calls ++ [more]).flatten = (opening ++ calls.flatten) ++ more := by
          rw [List.flatten_append, List.flatten_singleton, List.append_assoc]
        rw [hops]
        exact ⟨hsession, htook⟩

end

/-- An acceptor that was logged on is shut down. A tick leaves it waiting, the logout of the
counterparty ends it, and so does a second shut down at the same moment, without that logout. -/
theorem run_ends_wait_twice :
    let session : Session MemoryStore := .fresh Sample.acceptor .empty 0
    let begun := (ofSession session none).begin Sample.moment
    let logon : Event × Moment := (.received (Sample.logon Sample.initiator), Sample.moment)
    let task := begun.run [logon, (.shutdown (some "bye"), Sample.moment)]
    let ended (event : Event) := (task.step event Sample.moment).2
    Session.open? Sample.acceptor MemoryStore.empty 0 = .ok session ∧
      (begun.run [logon]).session.state = .loggedOn ∧ task.isRunning = true ∧
      (ended .tick).isRunning = true ∧
      (ended (.received (Sample.frame Sample.initiator .logout 2 []))).result = some (.ok ()) ∧
      (ended (.shutdown none)).result = some (.ok ()) ∧
      (ended (.shutdown none)).written = task.written ∧
      (ended (.shutdown none)).session.sequences.expectedIncoming = 2 := by
  intro session begun logon task ended
  have hstate : (begun.run [logon]).session.state = .loggedOn := by decide +kernel
  have hruns : task.isRunning = true ∧
      (ended (.received (Sample.frame Sample.initiator .logout 2 []))).result = some (.ok ()) ∧
      (ended (.shutdown none)).session.sequences.expectedIncoming = 2 := by decide +kernel
  obtain ⟨_, _, htick⟩ := run_ends_wait Sample.open_acceptor none Sample.moment [logon] (some "bye")
    Sample.moment [] .tick Sample.moment hstate hruns.1
  obtain ⟨_, _, hdone, hsilent⟩ := run_ends_wait Sample.open_acceptor none Sample.moment [logon]
    (some "bye") Sample.moment [] (.shutdown none) Sample.moment hstate hruns.1
  have hearly : ¬ Sample.acceptor.logoutTimeout ≤ Sample.moment.elapsed - Sample.moment.elapsed := by
    decide
  exact ⟨Sample.open_acceptor, hstate, hruns.1, (if_neg hearly ▸ htick :), hruns.2.1, hdone, hsilent,
    hruns.2.2⟩

end FixProtocol.SessionTask
