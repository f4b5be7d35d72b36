import FixProtocol.Proofs.Engine.Changes
import FixProtocol.Proofs.Session.Delivery
import FixProtocol.Proofs.Session.Ended

/-!
# The last word to the application

An application that was told of a logon is told once of the logout, however the session ends: the
closing sequence is run by every failure and after the session has ended. The one way around it is a
shut down whose logout the session refuses, because its text cannot be written or the store does not
keep it: then the task ends at once, the application is not told, and the handles go on seeing a
session that is logged on.

- `SessionTask.Open`: what is known of a task until it ends; every change keeps it.
- `SessionTask.Closed`, `SessionTask.Abandoned`: the two ways in which a task ends.
- `SessionTask.RefusesLogout`: a run in which the logout of a shut down is refused.
- `SessionTask.run_closes_iff`: the application gets its last word exactly in all other runs.
-/

namespace FixProtocol.SessionTask

variable {σ : Type} {t u : SessionTask σ} {e : TaskError}
  {A : Session.Operation → Prop}

/-- A task that has not ended: the application was told of the logon once if it knows of it, and of
no logout. -/
structure Open (t : SessionTask σ) : Prop where
  running : t.isRunning = true
  steady : t.session.Steady
  logons : t.callbacks.count .logon = t.loggedOn.toNat
  logouts : t.callbacks.count .logout = 0

/-- A task that has run its closing sequence: each logon was followed by a logout, and the handles
see a session that is disconnected. -/
structure Closed (t : SessionTask σ) : Prop where
  ended : t.isRunning = false
  logouts : t.callbacks.count .logout = t.callbacks.count .logon
  logons : t.callbacks.count .logon ≤ 1
  published : t.published = .disconnected

/-- A task that has ended without a word: there was no logout, and the handles see a session that is
logged on. -/
structure Abandoned (t : SessionTask σ) : Prop where
  ended : t.isRunning = false
  logouts : t.callbacks.count .logout = 0
  published : t.published = .loggedOn

/-! ## Until the end -/

theorem count_concat_of_ne {c d : Callback} (h : c ≠ d) (cs : List Callback) :
    (cs ++ [c]).count d = cs.count d := by
  rw [List.count_append, List.count_eq_zero.mpr fun hmem => h (List.mem_singleton.mp hmem).symm]
  rfl

theorem count_concat_self (c : Callback) (cs : List Callback) :
    (cs ++ [c]).count c = cs.count c + 1 := by
  rw [List.count_append, List.count_singleton_self]

/-- The application may be told of everything but a logon or a logout. -/
theorem Open.tell (h : Open t) {c : Callback} (hlogon : c ≠ .logon) (hlogout : c ≠ .logout) :
    Open (t.tell c) where
  running := h.running
  steady := h.steady
  logons := (count_concat_of_ne hlogon _).trans h.logons
  logouts := (count_concat_of_ne hlogout _).trans h.logouts

theorem Open.deliver (h : Open t) (m : Message) : Open (t.deliver m) :=
  Open.tell (t := { t with kept := m.seqNum?.toList ++ t.kept })
    ⟨h.running, h.steady, h.logons, h.logouts⟩ nofun nofun

theorem Open.publish (h : Open t) : Open t.publish :=
  ⟨h.running, h.steady, h.logons, h.logouts⟩

theorem Open.wrote (h : Open t) (frames : List Bytes) : Open (t.wrote frames) :=
  ⟨h.running, h.steady, h.logons, h.logouts⟩

/-- The application is told of a logon when it does not know of one. -/
theorem Open.tellLogon (h : Open t) : Open t.tellLogon := by
  unfold SessionTask.tellLogon
  split
  · next hnew =>
    have hunknown : t.loggedOn = false := by
      rw [Bool.and_eq_true, Bool.not_eq_true'] at hnew
      exact hnew.1
    refine ⟨h.running, h.steady, ?_, ?_⟩
    · show (t.callbacks ++ [Callback.logon]).count .logon = 1
      rw [count_concat_self, h.logons, hunknown]
      rfl
    · exact (count_concat_of_ne (c := .logon) (d := .logout) nofun _).trans h.logouts
  · exact h

theorem Open.toldOf (h : Open t) (reaction : Reaction) : Open (t.toldOf reaction) := by
  have hreported : Open (reaction.reported.foldl (fun t f => t.tell (.failure f))
      t.publish.tellLogon) :=
    List.foldlRecOn _ _ h.publish.tellLogon fun _ h _ _ => h.tell nofun nofun
  exact List.foldlRecOn _ _ hreported fun _ h m _ => h.deliver m

/-- What a task tells after its session has ended does not change the session. -/
theorem session_tellLogout (t : SessionTask σ) : t.tellLogout.session = t.session := by
  unfold tellLogout
  split <;> rfl

/-- A task whose session has ended closes: the application is told of the logout if it knows of the
logon. -/
theorem Open.closed (h : Open t) (hended : t.session.terminated = true)
    (result : Except TaskError Unit) : Closed (t.tellLogout.finish result) := by
  have hstate : t.tellLogout.session.state = .disconnected := by
    rw [session_tellLogout]
    exact h.steady.ended hended
  have hlogouts : t.tellLogout.callbacks.count .logout = t.loggedOn.toNat := by
    unfold tellLogout
    split
    · next hknown =>
      show (t.callbacks ++ [Callback.logout]).count .logout = _
      rw [count_concat_self, h.logouts, hknown]
      rfl
    · next hunknown => rw [h.logouts, Bool.eq_false_iff.mpr hunknown, Bool.toNat_false]
  have hlogons : t.tellLogout.callbacks.count .logon = t.loggedOn.toNat := by
    unfold tellLogout
    split
    · exact (count_concat_of_ne (c := .logout) (d := .logon) nofun _).trans h.logons
    · exact h.logons
  refine ⟨rfl, hlogouts.trans hlogons.symm, ?_, hstate⟩
  exact hlogons ▸ Bool.toNat_le t.loggedOn

/-- Whatever a task tells of its failure is told before the logout. -/
theorem Open.closed_of_failure (h : Open t) (hended : t.session.terminated = true)
    (failure : Failure) (result : Except TaskError Unit) :
    Closed ((t.toldFailure failure).finish result) :=
  (h.publish.tell nofun nofun : Open (t.publish.tell (.failure failure))).closed hended result

variable [MessageStore σ]

/-- A call on the session tells the application nothing. -/
theorem Open.call (h : Open t) (op : Session.Operation) {o : Session.Outcome} {s : Session σ}
    (hstep : t.session.step op = (o, s)) : Open { t with session := s } :=
  ⟨h.running, h.steady.step op hstep, h.logons, h.logouts⟩

theorem Open.disconnect (h : Open t) (now : Moment) :
    Open { t with session := t.session.disconnect now } :=
  h.call (.disconnect now) rfl

theorem Open.change (h : Open t) (hchange : Change A t u) : Open u := by
  cases hchange with
  | buffer buffer => exact ⟨h.running, h.steady, h.logons, h.logouts⟩
  | refused hstep => exact h.call _ hstep
  | sent hstep => exact (h.call _ hstep).wrote _
  | reacted hstep => exact ((h.call _ hstep).wrote _).toldOf _
  | disconnect now => exact h.disconnect now
  | publish => exact h.publish

theorem Open.changes (h : Open t) (hchanges : Changes A t u) : Open u := by
  induction hchanges with
  | refl => exact h
  | tail _ hchange ih => exact ih.change hchange

/-! ## The end -/

theorem Open.closed_of_cutOff (h : Open t) (error : Error) (now : Moment)
    (result : Except TaskError Unit) : Closed ((t.cutOff error now).finish result) :=
  (h.disconnect now).closed_of_failure (Session.terminated_disconnect t.session now) _ result

/-- Every failure closes a task. -/
theorem Open.closed_of_breaks (h : Open t) (hbreaks : Breaks A t e u)
    (result : Except TaskError Unit) : Closed (u.finish result) := by
  obtain ⟨v, hchanges, hbreak⟩ := hbreaks
  have h := h.changes hchanges
  cases hbreak with
  | session hstep =>
    exact (h.call _ hstep).closed_of_failure (h.steady.terminated_of_failed hstep) _ result
  | write now hstep hframes hrest => exact ((h.call _ hstep).wrote _).closed_of_cutOff _ now result
  | read error now => exact h.closed_of_cutOff error now result

/-- Work leaves a task open, or closes it, unless the session refuses. -/
theorem Open.performed {R : Error → Session σ → Prop} (h : Open t) (hperformed : Performed A t R u) :
    (Open u ∨ Closed u) ∨
      ∃ e s, R e s ∧ u = { t with session := s }.finish (.error (.refused e)) := by
  cases hperformed with
  | goesOn hchanges => exact .inl (.inl (h.changes hchanges))
  | ends hchanges hended => exact .inl (.inr ((h.changes hchanges).closed hended _))
  | breaks hbreaks => exact .inl (.inr (h.closed_of_breaks hbreaks _))
  | refused hrefused => exact .inr ⟨_, _, hrefused, rfl⟩

/-- A task whose session refuses the logout of a shut down is abandoned. -/
theorem Open.abandoned (h : Open t) {event : Event} {now : Moment} {e : Error} {s : Session σ}
    (hrefuses : t.Refuses now event e s) : Abandoned (t.step event now).2 := by
  rw [step_of_refuses h.running hrefuses]
  cases event with
  | shutdown text =>
    obtain ⟨hstate, hrun⟩ := hrefuses
    have hstep : t.session.step (.logout text now) = (.sent (.error e), s) := by
      rw [Session.step, hrun]
    exact ⟨rfl, h.logouts, (h.steady.stands_of_refused hstep).1.trans hstate⟩
  | _ => exact hrefuses.elim

/-! ## Runs -/

/-- In the run the session refuses the logout of a shut down, for the given reason. -/
def RefusesLogout (t : SessionTask σ) (events : List (Event × Moment)) (e : Error) : Prop :=
  ∃ before text now after s, events = before ++ (.shutdown text, now) :: after ∧
    (t.run before).isRunning = true ∧ (t.run before).Refuses now (.shutdown text) e s

theorem not_refusesLogout_of_ended (hended : t.isRunning = false) (events : List (Event × Moment))
    (e : Error) : ¬ RefusesLogout t events e := by
  rintro ⟨before, text, now, after, s, _, hrunning, _⟩
  rw [run_of_ended hended, hended] at hrunning
  cases hrunning

theorem refusesLogout_cons {event : Event} {now : Moment} {events : List (Event × Moment)}
    {e : Error} :
    RefusesLogout t ((event, now) :: events) e ↔
      (t.isRunning = true ∧ ∃ s, t.Refuses now event e s) ∨
        RefusesLogout (t.step event now).2 events e := by
  constructor
  · rintro ⟨before, text, at_, after, s, hsplit, hrunning, hrefuses⟩
    cases before with
    | nil =>
      obtain ⟨hentry, rfl⟩ := List.cons.inj hsplit
      obtain ⟨rfl, rfl⟩ := Prod.mk.inj hentry
      exact .inl ⟨hrunning, s, hrefuses⟩
    | cons entry before =>
      obtain ⟨rfl, rfl⟩ := List.cons.inj hsplit
      exact .inr ⟨before, text, at_, after, s, rfl, hrunning, hrefuses⟩
  · rintro (⟨hrunning, s, hrefuses⟩ | ⟨before, text, at_, after, s, rfl, hrunning, hrefuses⟩)
    · cases event with
      | shutdown text => exact ⟨[], text, now, events, s, rfl, hrunning, hrefuses⟩
      | _ => exact hrefuses.elim
    · exact ⟨(event, now) :: before, text, at_, after, s, rfl, hrunning, hrefuses⟩

/-- What becomes of an open task. The induction is on the events. -/
theorem Open.run (h : Open t) (events : List (Event × Moment)) :
    (Open (t.run events) ∨ Closed (t.run events)) ∧ (∀ e, ¬ RefusesLogout t events e) ∨
      Abandoned (t.run events) ∧ ∃ e, RefusesLogout t events e := by
  induction events generalizing t with
  | nil => exact .inl ⟨.inl h, fun e ⟨before, _, _, _, _, hsplit, _⟩ => by simp at hsplit⟩
  | cons entry events ih =>
    obtain ⟨event, now⟩ := entry
    by_cases hrefuses : ∃ e s, t.Refuses now event e s
    · obtain ⟨e, s, hrefuses⟩ := hrefuses
      have habandoned := h.abandoned hrefuses
      rw [SessionTask.run, run_of_ended habandoned.ended]
      exact .inr ⟨habandoned, e, refusesLogout_cons.mpr (.inl ⟨h.running, s, hrefuses⟩)⟩
    · have hcons (e : Error) : RefusesLogout t ((event, now) :: events) e ↔
          RefusesLogout (t.step event now).2 events e := by
        rw [refusesLogout_cons, or_iff_right]
        rintro ⟨_, s, hs⟩
        exact hrefuses ⟨e, s, hs⟩
      simp only [hcons]
      rcases h.performed (stepped h.running event now) with
        (hopen | hclosed) | ⟨e, s, hs, _⟩
      · exact ih hopen
      · rw [SessionTask.run, run_of_ended hclosed.ended]
        exact .inl ⟨.inr hclosed, not_refusesLogout_of_ended hclosed.ended events⟩
      · exact absurd ⟨e, s, hs⟩ hrefuses

omit [MessageStore σ] in
theorem open_ofSession {session : Session σ} (h : session.Steady)
    (writeFault : Option (Nat × String)) : Open (ofSession session writeFault) :=
  ⟨rfl, h, rfl, rfl⟩

/-- Every run in which the application was told of the logon and that has ended: the application was
told of the logout once, and the handles see a session that is disconnected, unless the session
refused the logout of a shut down; then the application was told of none, and the handles see a
session that is logged on. -/
theorem run_closes_iff {config : SessionConfig} {store : σ} {opened : Nat} {session : Session σ}
    (hopen : Session.open? config store opened = .ok session) (writeFault : Option (Nat × String))
    (start : Moment) (events : List (Event × Moment)) :
    let begun := (ofSession session writeFault).begin start
    let ended := begun.run events
    .logon ∈ ended.callbacks → ended.isRunning = false →
      (ended.callbacks.count .logout = 1 ∧ ended.published = .disconnected ↔
        ∀ e, ¬ RefusesLogout begun events e) ∧
      (ended.callbacks.count .logout = 0 ∧ ended.published = .loggedOn ↔
        ∃ e, RefusesLogout begun events e) := by
  intro begun ended hlogon hended
  have hnew := open_ofSession (Session.steady_of_open hopen) writeFault
  -- The last word is the logout or its absence, never both.
  have hclosed (h : Closed ended) : ended.callbacks.count .logout = 1 := by
    have hpos : 0 < ended.callbacks.count .logon := List.count_pos_iff.mpr hlogon
    rw [h.logouts]
    exact Nat.le_antisymm h.logons hpos
  have hends : (Closed ended ∧ ∀ e, ¬ RefusesLogout begun events e) ∨
      (Abandoned ended ∧ ∃ e, RefusesLogout begun events e) := by
    rcases hnew.performed (SessionTask.begun _ start) with (h | h) | ⟨e, s, _, hrefused⟩
    · rcases h.run events with ⟨h | h, hnone⟩ | habandoned
      · exact absurd h.running (Bool.eq_false_iff.mp hended)
      · exact .inl ⟨h, hnone⟩
      · exact .inr habandoned
    · have hsame : ended = begun := run_of_ended h.ended events
      exact .inl ⟨hsame ▸ h, not_refusesLogout_of_ended h.ended events⟩
    · -- A task that is refused its logon ends before the application is told anything.
      have hbegun : begun.isRunning = false := by
        rw [show begun = _ from hrefused]
        rfl
      rw [show ended = begun from run_of_ended hbegun events,
        show begun = _ from hrefused] at hlogon
      cases hlogon
  rcases hends with ⟨h, hnone⟩ | ⟨h, hsome⟩
  · refine ⟨iff_of_true ⟨hclosed h, h.published⟩ hnone, iff_of_false ?_ ?_⟩
    · rintro ⟨hzero, _⟩
      rw [hclosed h] at hzero
      cases hzero
    · rintro ⟨e, he⟩
      exact hnone e he
  · refine ⟨iff_of_false ?_ ?_, iff_of_true ⟨h.logouts, h.published⟩ hsome⟩
    · rintro ⟨hone, _⟩
      rw [h.logouts] at hone
      cases hone
    · intro hnone
      obtain ⟨e, he⟩ := hsome
      exact hnone e he

/-- An acceptor that was logged on: the peer closes the connection, or the owner shuts the session
down with an empty text, which cannot be written. -/
theorem run_closes_iff_acceptor :
    let begun := (ofSession (.fresh Sample.acceptor MemoryStore.empty 0) none).begin Sample.moment
    let logon : Event × Moment := (.received (Sample.logon Sample.initiator), Sample.moment)
    let closed := begun.run [logon, (.closed, Sample.moment)]
    let abandoned := begun.run [logon, (.shutdown (some ""), Sample.moment)]
    (.logon ∈ closed.callbacks ∧ closed.isRunning = false ∧
        closed.callbacks.count .logout = 1 ∧ closed.published = .disconnected ∧
        ∀ e, ¬ RefusesLogout begun [logon, (.closed, Sample.moment)] e) ∧
      .logon ∈ abandoned.callbacks ∧ abandoned.isRunning = false ∧
        abandoned.callbacks.count .logout = 0 ∧ abandoned.published = .loggedOn ∧
        ∃ e, RefusesLogout begun [logon, (.shutdown (some ""), Sample.moment)] e := by
  intro begun logon closed abandoned
  have hclosed : .logon ∈ closed.callbacks ∧ closed.isRunning = false ∧
      closed.callbacks.count .logout = 1 ∧ closed.published = .disconnected := by decide +kernel
  have habandoned : .logon ∈ abandoned.callbacks ∧ abandoned.isRunning = false ∧
      abandoned.callbacks.count .logout = 0 ∧ abandoned.published = .loggedOn := by decide +kernel
  obtain ⟨hlogon, hended, hlast⟩ := hclosed
  obtain ⟨hlogon', hended', hlast'⟩ := habandoned
  have hnone := (run_closes_iff Sample.open_acceptor none Sample.moment
    [logon, (.closed, Sample.moment)] hlogon hended).1.mp hlast
  have hsome := (run_closes_iff Sample.open_acceptor none Sample.moment
    [logon, (.shutdown (some ""), Sample.moment)] hlogon' hended').2.mp hlast'
  exact ⟨⟨hlogon, hended, hlast.1, hlast.2, hnone⟩, hlogon', hended', hlast'.1, hlast'.2, hsome⟩

end FixProtocol.SessionTask
