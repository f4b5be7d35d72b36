import FixProtocol.Proofs.Engine.Closing
import FixProtocol.Proofs.Session.Telling

/-!
# The order in which the application is told

The application is told of the logon first, then of messages and of failures that do not end the
session, as they come, then perhaps of the failure that does, and of the logout last. If the session
ends before it is logged on, the failure is all that the application is told. The messages ascend in
number.

A task infers the logon from the state of its session after each reaction, and keeps a flag of its
own. That both agree is the invariant: until the application was told of the logon, the session is
in a state before messages are exchanged, and nothing is told.

- `SessionTask.Story`: what the application may be told in all.
- `SessionTask.Orderly`: what is known of a task between two events; every change keeps it.
- `SessionTask.InOrder`: what was told is the beginning of a story, with messages that ascend.
- `SessionTask.run_tells_in_order`: it is so at every moment of every run.
-/

namespace FixProtocol

namespace Callback

/-- May it come between the logon and the end: a message, or a failure that does not end the
session? -/
def isOrdinary : Callback → Bool
  | message _ => true
  | failure f => !f.isFatal
  | _ => false

/-- The message that the application is given. -/
def message? : Callback → Option Message
  | message m => some m
  | _ => none

end Callback

namespace SessionTask

/-- What the application may be told in all: the failure that ends a session which never was logged
on, or a logon, then anything ordinary, then at most one failure that ends the session, and then at
most one logout. -/
inductive Story : List Callback → Prop
  | failed {f : Failure} (hf : f.isFatal = true) : Story [.failure f]
  | session {ordinary failed left : List Callback} (hordinary : ∀ c ∈ ordinary, c.isOrdinary = true)
      (hfailed : failed = [] ∨ ∃ f : Failure, f.isFatal = true ∧ failed = [.failure f])
      (hleft : left = [] ∨ left = [.logout]) : Story (.logon :: (ordinary ++ failed ++ left))

/-- What was told is the beginning of a story, and its messages ascend. -/
structure InOrder (told : List Callback) : Prop where
  story : ∃ whole, Story whole ∧ told <+: whole
  ascending : ∃ ns : List SeqNum, ns.Pairwise (· < ·) ∧
    (told.filterMap Callback.message?).map Message.seqNum? = ns.map some

/-- What was told before that is in order as well. -/
theorem InOrder.before {told more : List Callback} (h : InOrder more) (hbefore : told <+: more) :
    InOrder told where
  story := by
    obtain ⟨whole, hwhole, hmore⟩ := h.story
    exact ⟨whole, hwhole, hbefore.trans hmore⟩
  ascending := by
    obtain ⟨rest, rfl⟩ := hbefore
    obtain ⟨ns, hascending, hnumbers⟩ := h.ascending
    rw [List.filterMap_append, List.map_append] at hnumbers
    obtain ⟨ms, ms', rfl, hms, _⟩ := List.append_eq_map_iff.mp hnumbers
    exact ⟨ms, (List.pairwise_append.mp hascending).1, hms.symm⟩

/-! ## What is told of a reaction -/

variable {σ : Type} {t u v : SessionTask σ} {e : TaskError}
  {A : Session.Operation → Prop}

/-- From `t` to `u` the application was told of `cs`, and the session and the flag are the same. -/
structure Tells (t : SessionTask σ) (cs : List Callback) (u : SessionTask σ) : Prop where
  callbacks : u.callbacks = t.callbacks ++ cs
  session : u.session = t.session
  loggedOn : u.loggedOn = t.loggedOn

theorem Tells.refl (t : SessionTask σ) : Tells t [] t :=
  ⟨(List.append_nil _).symm, rfl, rfl⟩

theorem Tells.trans {cs ds : List Callback} (h : Tells t cs u) (h' : Tells u ds v) :
    Tells t (cs ++ ds) v where
  callbacks := by rw [h'.callbacks, h.callbacks, List.append_assoc]
  session := h'.session.trans h.session
  loggedOn := h'.loggedOn.trans h.loggedOn

/-- What is told of one thing after the other is told in the same order. -/
theorem tells_foldl {α : Type} {f : SessionTask σ → α → SessionTask σ} {c : α → Callback}
    (h : ∀ t a, Tells t [c a] (f t a)) (as : List α) (t : SessionTask σ) :
    Tells t (as.map c) (as.foldl f t) := by
  induction as generalizing t with
  | nil => exact .refl t
  | cons a as ih => exact (h t a).trans (ih (f t a))

/-- Of a reaction the failures are told first and then the messages. -/
theorem tells_toldOf (t : SessionTask σ) (reaction : Reaction) :
    Tells t.publish.tellLogon
      (reaction.reported.map .failure ++ reaction.delivered.map .message) (t.toldOf reaction) := by
  have hfailure (t : SessionTask σ) (f : Failure) : Tells t [.failure f] (t.tell (.failure f)) :=
    ⟨rfl, rfl, rfl⟩
  have hmessage (t : SessionTask σ) (m : Message) : Tells t [.message m] (t.deliver m) :=
    ⟨rfl, rfl, rfl⟩
  exact (tells_foldl hfailure reaction.reported _).trans
    (tells_foldl hmessage reaction.delivered _)

theorem tellLogon_of_known (h : t.loggedOn = true) : t.tellLogon = t := by
  rw [tellLogon, h]
  rfl

theorem tellLogon_of_ne (h : t.session.state ≠ .loggedOn) : t.tellLogon = t := by
  rw [tellLogon, decide_eq_false h, Bool.and_false]
  rfl

theorem tellLogon_of_new (hunknown : t.loggedOn = false) (hlogon : t.session.state = .loggedOn) :
    t.tellLogon = { t with loggedOn := true }.tell .logon := by
  rw [tellLogon, hunknown, decide_eq_true hlogon]
  rfl

theorem callbacks_tellLogout (t : SessionTask σ) :
    ∃ left, t.tellLogout.callbacks = t.callbacks ++ left ∧
      (left = [] ∨ t.loggedOn = true ∧ left = [.logout]) := by
  unfold tellLogout
  split
  · next hknown => exact ⟨[.logout], rfl, .inr ⟨hknown, rfl⟩⟩
  · exact ⟨[], (List.append_nil _).symm, .inl rfl⟩

/-- The messages of a reaction are those that it hands over. -/
theorem messages_of_reaction (reaction : Reaction) :
    (reaction.reported.map Callback.failure ++
      reaction.delivered.map Callback.message).filterMap Callback.message? =
        reaction.delivered := by
  rw [List.filterMap_append, List.filterMap_map, List.filterMap_map]
  have hfailures : reaction.reported.filterMap (Callback.message? ∘ .failure) = [] :=
    List.filterMap_eq_nil_iff.mpr fun _ _ => rfl
  rw [hfailures, List.nil_append]
  exact List.filterMap_some

/-- What is told of a reaction is ordinary. -/
theorem ordinary_of_reaction {reaction : Reaction}
    (h : ∀ f ∈ reaction.reported, f.isFatal = false) :
    ∀ c ∈ reaction.reported.map Callback.failure ++ reaction.delivered.map Callback.message,
      c.isOrdinary = true := by
  refine List.forall_mem_append.mpr
    ⟨List.forall_mem_map.mpr fun f hf => ?_, List.forall_mem_map.mpr fun _ _ => rfl⟩
  rw [Callback.isOrdinary, h f hf]
  rfl

/-! ## Until the end -/

/-- A task between two events. The application was told of the logon or of nothing, and what came
after the logon is ordinary; a session in a state where messages are exchanged is one whose logon
was told. -/
structure Orderly (t : SessionTask σ) : Prop where
  steady : t.session.Steady
  settled : t.session.Settled
  silent : t.loggedOn = false → t.callbacks = []
  begun : t.loggedOn = true → ∃ ordinary, t.callbacks = .logon :: ordinary ∧
    ∀ c ∈ ordinary, c.isOrdinary = true
  early : t.loggedOn = false → t.session.state.isEstablished = false
  ascends : Session.Ascends 0 (t.callbacks.filterMap Callback.message?)
    t.session.sequences.expectedIncoming

/-- What was told is in order, also when the failure that ends the session and the logout follow. -/
theorem Orderly.inOrder_append (h : Orderly t) {failed left : List Callback}
    (hfailed : failed = [] ∨ ∃ f : Failure, f.isFatal = true ∧ failed = [.failure f])
    (hleft : left = [] ∨ t.loggedOn = true ∧ left = [.logout]) :
    InOrder (t.callbacks ++ failed ++ left) where
  story := by
    by_cases hknown : t.loggedOn = true
    · obtain ⟨ordinary, hcallbacks, hordinary⟩ := h.begun hknown
      refine ⟨_, .session hordinary hfailed (hleft.imp_right And.right), ?_⟩
      rw [hcallbacks]
      exact List.prefix_rfl
    · rw [h.silent (Bool.eq_false_iff.mpr hknown), hleft.resolve_right fun hl => hknown hl.1]
      rcases hfailed with rfl | ⟨f, hf, rfl⟩
      · exact ⟨_, .session (List.forall_mem_nil _) (.inl rfl) (.inl rfl), List.nil_prefix⟩
      · exact ⟨_, .failed hf, List.prefix_rfl⟩
  ascending := by
    obtain ⟨ns, hnumbers, hascending, _⟩ := h.ascends.numbers
    refine ⟨ns, hascending, ?_⟩
    have hlast : (failed ++ left).filterMap Callback.message? = [] := by
      rcases hfailed with rfl | ⟨f, _, rfl⟩ <;> rcases hleft with rfl | ⟨_, rfl⟩ <;> rfl
    rw [List.append_assoc, List.filterMap_append, hlast, List.append_nil, hnumbers]

theorem Orderly.inOrder (h : Orderly t) : InOrder t.callbacks := by
  have := h.inOrder_append (.inl rfl) (.inl rfl)
  rwa [List.append_nil, List.append_nil] at this

/-- An application that knows of the logon is told of ordinary things. -/
theorem Orderly.tells (h : Orderly t) (hknown : t.loggedOn = true) {cs : List Callback}
    (hordinary : ∀ c ∈ cs, c.isOrdinary = true) (htells : Tells t cs u)
    (hascends : Session.Ascends 0 (u.callbacks.filterMap Callback.message?)
      u.session.sequences.expectedIncoming) : Orderly u where
  steady := htells.session ▸ h.steady
  settled := htells.session ▸ h.settled
  silent := by
    rw [htells.loggedOn, hknown]
    exact nofun
  begun := by
    intro _
    obtain ⟨ordinary, hcallbacks, hbefore⟩ := h.begun hknown
    refine ⟨ordinary ++ cs, ?_, List.forall_mem_append.mpr ⟨hbefore, hordinary⟩⟩
    rw [htells.callbacks, hcallbacks, List.cons_append]
  early := by
    rw [htells.loggedOn, hknown]
    exact nofun
  ascends := hascends

/-- A session has just logged on: the logon is told first, and then what there is to report. -/
theorem orderly_of_logon {reaction : Reaction} (hsteady : t.session.Steady)
    (hsettled : t.session.Settled) (hunknown : t.loggedOn = false) (hsilent : t.callbacks = [])
    (hlogon : t.session.state = .loggedOn) (hreported : ∀ f ∈ reaction.reported, f.isFatal = false)
    (hdelivered : reaction.delivered = []) : Orderly (t.toldOf reaction) := by
  have hfirst : t.callbacks ++ [.logon] = [.logon] := by
    rw [hsilent]
    rfl
  have hgreeted : Orderly ({ t.publish with loggedOn := true }.tell .logon) :=
    { steady := hsteady
      settled := hsettled
      silent := nofun
      begun := fun _ => ⟨[], hfirst, List.forall_mem_nil _⟩
      early := nofun
      ascends := by
        show Session.Ascends 0 ((t.callbacks ++ [Callback.logon]).filterMap Callback.message?) _
        rw [hfirst]
        exact .nothing UInt64.zero_le }
  have htells := tells_toldOf t reaction
  rw [tellLogon_of_new (t := t.publish) hunknown hlogon] at htells
  refine hgreeted.tells rfl (ordinary_of_reaction hreported) htells ?_
  rw [htells.callbacks, htells.session, List.filterMap_append, messages_of_reaction, hdelivered,
    List.append_nil]
  exact hgreeted.ascends

theorem Orderly.wrote (h : Orderly t) (frames : List Bytes) : Orderly (t.wrote frames) :=
  ⟨h.steady, h.settled, h.silent, h.begun, h.early, h.ascends⟩

theorem Orderly.publish (h : Orderly t) : Orderly t.publish :=
  ⟨h.steady, h.settled, h.silent, h.begun, h.early, h.ascends⟩

variable [MessageStore σ]

/-- A call of the session of which nothing is told, as long as it does not log the session on
unnoticed. -/
theorem Orderly.call (h : Orderly t) {op : Session.Operation} {o : Session.Outcome} {s : Session σ}
    (hstep : t.session.step op = (o, s))
    (hearly : t.loggedOn = false → s.state.isEstablished = false) :
    Orderly { t with session := s } where
  steady := h.steady.step op hstep
  settled := by
    have hsteps := h.settled.steps op
    rw [hstep] at hsteps
    exact hsteps.settled
  silent := h.silent
  begun := h.begun
  early := hearly
  ascends := by
    have hmore := h.ascends.trans (.nothing (h.steady.stepped op hstep).ascends.le)
    rwa [List.append_nil] at hmore

theorem Orderly.sent (h : Orderly t) {op : Session.Operation} {answer : Except Error Bytes}
    {s : Session σ} (hstep : t.session.step op = (.sent answer, s)) :
    Orderly { t with session := s } :=
  h.call hstep fun hunknown => h.settled.early_of_sent (h.early hunknown) hstep

theorem Orderly.disconnect (h : Orderly t) (now : Moment) :
    Orderly { t with session := t.session.disconnect now } := by
  have hstep : t.session.step (.disconnect now) = (.closed, t.session.disconnect now) := rfl
  refine h.call hstep fun _ => ?_
  have hstate := (h.steady.step _ hstep).ended (Session.terminated_disconnect t.session now)
  rw [hstate]
  rfl

/-- A reaction that is told to an application that knows of the logon. -/
theorem Orderly.reacted_known (h : Orderly t) (hknown : t.loggedOn = true)
    {op : Session.Operation} {reaction : Reaction} {s : Session σ}
    (hstep : t.session.step op = (.reacted (.ok reaction), s)) :
    Orderly (({ t with session := s }.wrote reaction.outbound).toldOf reaction) := by
  have hcalled : Orderly { t with session := s } :=
    h.call hstep fun hunknown => absurd (hunknown.symm.trans hknown) Bool.false_ne_true
  have hsame : ({ t with session := s }.wrote reaction.outbound).publish.tellLogon =
      ({ t with session := s }.wrote reaction.outbound).publish := tellLogon_of_known hknown
  have htells := tells_toldOf ({ t with session := s }.wrote reaction.outbound) reaction
  rw [hsame] at htells
  refine (hcalled.wrote _).publish.tells hknown
    (ordinary_of_reaction (h.steady.not_fatal hstep)) htells ?_
  rw [htells.callbacks, htells.session, List.filterMap_append, messages_of_reaction]
  exact h.ascends.trans (h.steady.stepped op hstep).ascends

/-- A reaction that comes before the application knows of the logon logs the session on, and then
the logon is told first, or there is nothing to tell. -/
theorem Orderly.reacted_unknown (h : Orderly t) (hunknown : t.loggedOn = false)
    {op : Session.Operation} {reaction : Reaction} {s : Session σ}
    (hstep : t.session.step op = (.reacted (.ok reaction), s)) :
    Orderly (({ t with session := s }.wrote reaction.outbound).toldOf reaction) := by
  have hearly := h.early hunknown
  have hsteps := h.settled.steps op
  rw [hstep] at hsteps
  have hdelivered : reaction.delivered = [] := hsteps.early hearly
  by_cases hlogon : s.state = .loggedOn
  · exact orderly_of_logon (t := { t with session := s }.wrote reaction.outbound)
      (h.steady.step op hstep) hsteps.settled hunknown (h.silent hunknown) hlogon
      (h.steady.not_fatal hstep) hdelivered
  · have hreported : reaction.reported = [] :=
      (h.settled.logs_on hearly hstep).resolve_left hlogon
    have hsame : ({ t with session := s }.wrote reaction.outbound).toldOf reaction =
        ({ t with session := s }.wrote reaction.outbound).publish := by
      rw [toldOf, hdelivered, hreported]
      exact tellLogon_of_ne hlogon
    rw [hsame]
    exact ((h.call hstep fun _ => hsteps.isEstablished_eq hearly hlogon).wrote _).publish

theorem Orderly.reacted (h : Orderly t) {op : Session.Operation} {reaction : Reaction}
    {s : Session σ} (hstep : t.session.step op = (.reacted (.ok reaction), s)) :
    Orderly (({ t with session := s }.wrote reaction.outbound).toldOf reaction) := by
  by_cases hknown : t.loggedOn = true
  · exact h.reacted_known hknown hstep
  · exact h.reacted_unknown (Bool.eq_false_iff.mpr hknown) hstep

/-- Every change keeps a task orderly. -/
theorem Orderly.change (h : Orderly t) (hchange : Change A t u) : Orderly u := by
  cases hchange with
  | buffer buffer => exact ⟨h.steady, h.settled, h.silent, h.begun, h.early, h.ascends⟩
  | refused hstep => exact h.sent hstep
  | sent hstep => exact (h.sent hstep).wrote _
  | reacted hstep => exact h.reacted hstep
  | disconnect now => exact h.disconnect now
  | publish => exact h.publish

theorem Orderly.changes (h : Orderly t) (hchanges : Changes A t u) : Orderly u := by
  induction hchanges with
  | refl => exact h
  | tail _ hchange ih => exact ih.change hchange

/-! ## The end -/

omit [MessageStore σ] in
/-- The failure that ends a task is told after all else, and the logout after it. -/
theorem Orderly.inOrder_failure (h : Orderly t) (hcallbacks : u.callbacks = t.callbacks)
    (hloggedOn : u.loggedOn = t.loggedOn) {f : Failure} (hf : f.isFatal = true) :
    InOrder (u.toldFailure f).callbacks := by
  obtain ⟨left, htold, hleft⟩ := callbacks_tellLogout (u.publish.tell (.failure f))
  have htold : (u.toldFailure f).callbacks = t.callbacks ++ [.failure f] ++ left := by
    rw [toldFailure, htold, ← hcallbacks]
    rfl
  rw [htold]
  refine h.inOrder_append (.inr ⟨f, hf, rfl⟩) (hleft.imp_right fun hl => ?_)
  exact ⟨hloggedOn.symm.trans hl.1, hl.2⟩

omit [MessageStore σ] in
theorem Orderly.inOrder_cutOff (h : Orderly t) (hcallbacks : u.callbacks = t.callbacks)
    (hloggedOn : u.loggedOn = t.loggedOn) (error : Error) (now : Moment) :
    InOrder (u.cutOff error now).callbacks :=
  h.inOrder_failure (u := { u with session := u.session.disconnect now }) hcallbacks hloggedOn rfl

/-- A task that breaks off has told what it did in order. -/
theorem Orderly.inOrder_of_breaks (h : Orderly t) (hbreaks : Breaks A t e u) :
    InOrder u.callbacks := by
  obtain ⟨v, hchanges, hbreak⟩ := hbreaks
  have h := h.changes hchanges
  cases hbreak with
  | @session op failure s hstep =>
    exact h.inOrder_failure (u := { v with session := s }) rfl rfl
      (h.steady.fatal_of_failed hstep)
  | @write op outcome s frames rest reason now hstep hframes hrest =>
    exact h.inOrder_cutOff (u := { v with session := s }.wrote frames) rfl rfl _ now
  | read error now => exact h.inOrder_cutOff rfl rfl error now

/-- Work leaves a task orderly, or ends it with everything told in order. -/
theorem Orderly.performed {R : Error → Session σ → Prop} (h : Orderly t)
    (hperformed : Performed A t R u) : Orderly u ∨ u.isRunning = false ∧ InOrder u.callbacks := by
  cases hperformed with
  | goesOn hchanges => exact .inl (h.changes hchanges)
  | @ends v hchanges hended =>
    obtain ⟨left, htold, hleft⟩ := callbacks_tellLogout v
    have horder := (h.changes hchanges).inOrder_append (.inl rfl) hleft
    rw [List.append_nil, ← htold] at horder
    exact .inr ⟨rfl, horder⟩
  | breaks hbreaks =>
    have horder := h.inOrder_of_breaks hbreaks
    exact .inr ⟨rfl, horder⟩
  | refused => exact .inr ⟨rfl, h.inOrder⟩

/-! ## Runs -/

/-- What a task tells in a run. The induction is on the events. -/
theorem Orderly.run (h : Orderly t) (events : List (Event × Moment)) :
    Orderly (t.run events) ∨
      (t.run events).isRunning = false ∧ InOrder (t.run events).callbacks := by
  induction events generalizing t with
  | nil => exact .inl h
  | cons entry events ih =>
    obtain ⟨event, now⟩ := entry
    by_cases hrunning : t.isRunning = true
    · rcases h.performed (stepped hrunning event now) with horderly | ⟨hended, horder⟩
      · exact ih horderly
      · rw [SessionTask.run, run_of_ended hended]
        exact .inr ⟨hended, horder⟩
    · rw [run_of_ended (Bool.eq_false_iff.mpr hrunning)]
      exact .inl h

omit [MessageStore σ] in
theorem orderly_ofSession {session : Session σ} (hsteady : session.Steady)
    (hsettled : session.Settled) (hearly : session.state.isEstablished = false)
    (writeFault : Option (Nat × String)) : Orderly (ofSession session writeFault) :=
  ⟨hsteady, hsettled, fun _ => rfl, nofun, fun _ => hearly, .nothing UInt64.zero_le⟩

/-- Over every run of a task for a new session, whatever arrives or fails and whatever its store: at
every moment, what the application was told is the beginning of a story, and the messages that it
was given strictly ascend in number. As long as the task runs, the application knows of the logon of
a session that is logged on. -/
theorem run_tells_in_order {config : SessionConfig} {store : σ} {opened : Nat} {session : Session σ}
    (hopen : Session.open? config store opened = .ok session) (writeFault : Option (Nat × String))
    (start : Moment) (events : List (Event × Moment)) :
    let task := ((ofSession session writeFault).begin start).run events
    (∀ told, told <+: task.callbacks →
      (∃ whole, Story whole ∧ told <+: whole) ∧
      ∃ ns : List SeqNum, ns.Pairwise (· < ·) ∧
        (told.filterMap Callback.message?).map Message.seqNum? = ns.map some) ∧
    (task.isRunning = true → task.session.state = .loggedOn → .logon ∈ task.callbacks) := by
  intro task
  have hnew : Orderly (ofSession session writeFault) := by
    refine orderly_ofSession (Session.steady_of_open hopen) (Session.settled_of_open hopen) ?_ _
    obtain ⟨_, rfl⟩ := Session.open?_eq_ok_iff.mp hopen
    rfl
  have hrun : Orderly task ∨ task.isRunning = false ∧ InOrder task.callbacks := by
    rcases hnew.performed (begun _ start) with horderly | ⟨hended, horder⟩
    · exact horderly.run events
    · rw [show task = _ from run_of_ended hended events]
      exact .inr ⟨hended, horder⟩
  constructor
  · intro told hbefore
    have horder : InOrder task.callbacks := hrun.elim Orderly.inOrder And.right
    exact ⟨(horder.before hbefore).story, (horder.before hbefore).ascending⟩
  · intro hrunning hstate
    rcases hrun with horderly | ⟨hended, _⟩
    · have hknown : task.loggedOn = true := by
        by_contra hunknown
        have hearly := horderly.early (Bool.eq_false_iff.mpr hunknown)
        rw [hstate] at hearly
        cases hearly
      obtain ⟨ordinary, hcallbacks, _⟩ := horderly.begun hknown
      rw [hcallbacks]
      exact List.mem_cons_self
    · rw [hended] at hrunning
      cases hrunning

/-- An acceptor that was logged on is given two orders, one of them twice, before the peer closes the
connection. -/
theorem run_tells_in_order_acceptor :
    let order (n : SeqNum) : Event × Moment :=
      (.received (Sample.frame Sample.initiator .newOrderSingle n []), Sample.moment)
    let events := [(.received (Sample.logon Sample.initiator), Sample.moment), order 2, order 2,
      order 3]
    let begun := (ofSession (.fresh Sample.acceptor MemoryStore.empty 0) none).begin Sample.moment
    let running := begun.run events
    let ended := begun.run (events ++ [(.closed, Sample.moment)])
    running.isRunning = true ∧ running.session.state = .loggedOn ∧ .logon ∈ running.callbacks ∧
      ended.callbacks.map Callback.isOrdinary = [false, true, true, true, false, false] ∧
      ended.callbacks.getLast? = some .logout ∧
      (ended.callbacks.filterMap Callback.message?).map Message.seqNum? = [some 2, some 3] ∧
      (∃ whole, Story whole ∧ ended.callbacks <+: whole) ∧
      ∃ ns : List SeqNum, ns.Pairwise (· < ·) ∧
        (ended.callbacks.filterMap Callback.message?).map Message.seqNum? = ns.map some := by
  intro order events begun running ended
  have hrunning : running.isRunning = true ∧ running.session.state = .loggedOn := by
    decide +kernel
  have hended : ended.callbacks.map Callback.isOrdinary =
      [false, true, true, true, false, false] ∧ ended.callbacks.getLast? = some .logout ∧
        (ended.callbacks.filterMap Callback.message?).map Message.seqNum? = [some 2, some 3] := by
    decide +kernel
  obtain ⟨_, hlogon⟩ := run_tells_in_order Sample.open_acceptor none Sample.moment events
  obtain ⟨htold, _⟩ := run_tells_in_order Sample.open_acceptor none Sample.moment
    (events ++ [(.closed, Sample.moment)])
  obtain ⟨hstory, hascending⟩ := htold ended.callbacks List.prefix_rfl
  exact ⟨hrunning.1, hrunning.2, hlogon hrunning.1 hrunning.2, hended.1, hended.2.1, hended.2.2,
    hstory, hascending⟩

end SessionTask

end FixProtocol
