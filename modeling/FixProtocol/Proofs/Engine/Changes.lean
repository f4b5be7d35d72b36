import FixProtocol.Engine.Task
import FixProtocol.Proofs.Ends
import FixProtocol.Session.Link
import Mathlib.Logic.Relation

/-!
# What a task can do

Whatever happens to a task, it changes by a chain of small changes: bytes come to the buffer or
leave it, or the session is called and what it asks for is done. Each kind of change is said once,
and every invariant of tasks follows from a look at each kind.

- `SessionTask.Change`: one change, and which calls it may make. `SessionTask.Changes`: a chain of
  changes.
- `SessionTask.Event.Asks`: the calls that an event may make.
- `SessionTask.Break`: the failure that ends a task.
- `SessionTask.Does`: what all work of a task does.
- `SessionTask.begun`, `SessionTask.stepped`: what starting a task does, and what one event does.
-/

namespace FixProtocol

namespace SessionTask

variable {σ : Type}

/-! ## Tasks after they wrote and told -/

/-- The task after the transport took some frames. -/
def wrote (t : SessionTask σ) (frames : List Bytes) : SessionTask σ :=
  { t with
    written := t.written ++ frames
    writeFault := t.writeFault.map fun fault => (fault.1 - frames.length, fault.2) }

/-- Does the transport take so many frames before its writes fail? -/
def CanWrite (t : SessionTask σ) (frames : List Bytes) : Prop :=
  ∀ fault, t.writeFault = some fault → frames.length ≤ fault.1

/-- The task after it told the application what a reaction holds. -/
def toldOf (t : SessionTask σ) (reaction : Reaction) : SessionTask σ :=
  reaction.delivered.foldl deliver
    (reaction.reported.foldl (fun t f => t.tell (.failure f)) t.publish.tellLogon)

/-- The task after it told the application of the failure that ends it. -/
def toldFailure (t : SessionTask σ) (failure : Failure) : SessionTask σ :=
  (t.publish.tell (.failure failure)).tellLogout

/-- The task after its transport failed. -/
def cutOff (t : SessionTask σ) (error : Error) (now : Moment) : SessionTask σ :=
  { t with session := t.session.disconnect now }.toldFailure ⟨error, .disconnect⟩

theorem wrote_nil (t : SessionTask σ) : t.wrote [] = t := by
  unfold wrote
  rw [List.append_nil, List.length_nil]
  show { t with writeFault := t.writeFault.map id } = t
  rw [Option.map_id, id]

theorem wrote_append (t : SessionTask σ) (frames more : List Bytes) :
    (t.wrote frames).wrote more = t.wrote (frames ++ more) := by
  unfold wrote
  rw [List.append_assoc, Option.map_map, List.length_append]
  congr 2
  funext fault
  exact congrArg (·, fault.2) (Nat.sub_sub ..)

/-! ## Changes of the buffer alone -/

theorem exists_buffer_noteUse (t : SessionTask σ) (frame : Bytes) (delivered : List Message) :
    ∃ buffer, t.noteUse frame delivered = { t with buffer } := by
  unfold noteUse
  split
  · exact ⟨t.buffer, rfl⟩
  · split
    · exact ⟨t.buffer, rfl⟩
    · split
      · exact ⟨_, rfl⟩
      · exact ⟨t.buffer, rfl⟩

theorem exists_buffer_reserve (t : SessionTask σ) (count : Nat) :
    ∃ buffer, t.reserve count = { t with buffer } := by
  unfold reserve
  split
  · exact ⟨t.buffer, rfl⟩
  · exact ⟨_, rfl⟩

theorem exists_buffer_makeRoom (t : SessionTask σ) :
    ∃ buffer, t.makeRoom = { t with buffer } := by
  unfold makeRoom
  split
  · exact ⟨_, rfl⟩
  · exact ⟨t.buffer, rfl⟩

/-! ## How single steps end -/

variable {t u v : SessionTask σ} {α β : Type} {e : TaskError}

section
variable {Q : α → SessionTask σ → Prop} {E : TaskError → SessionTask σ → Prop}

theorem ends_onSession {f : Session σ → α × Session σ} :
    Ends (onSession f) t Q E ↔ Q (f t.session).1 { t with session := (f t.session).2 } :=
  Iff.rfl

/-- A call on the session goes on with its answer. -/
theorem ends_onSession_run {c : Session.Call σ β} {k : Except Error β → Work σ α}
    (h : ∀ answer s, c.run t.session = (answer, s) → Ends (k answer) { t with session := s } Q E) :
    Ends (onSession c.run >>= k) t Q E := by
  rw [ends_bind]
  exact h _ _ rfl

theorem ends_failWith {failure : Failure} :
    Ends (failWith failure) t Q E ↔ E (.failed failure) (t.toldFailure failure) :=
  Iff.rfl

theorem ends_failTransport {error : Error} {now : Moment} :
    Ends (failTransport error now) t Q E ↔
      E (.failed ⟨error, .disconnect⟩) (t.cutOff error now) :=
  Iff.rfl

end

/-- A frame is written, or nothing may be written any more. -/
theorem ends_write (frame : Bytes) (now : Moment) :
    Ends (write frame now) t (fun _ u => t.CanWrite [frame] ∧ u = t.wrote [frame])
      (fun e u => ∃ reason, t.writeFault = some (0, reason) ∧
        e = .failed ⟨.io reason, .disconnect⟩ ∧ u = t.cutOff (.io reason) now) := by
  unfold write
  rw [ends_bind, ends_get]
  split
  · next reason hfault => exact ends_failTransport.mpr ⟨reason, hfault, rfl, rfl⟩
  · next n reason hfault =>
    rw [ends_set, wrote, CanWrite, hfault]
    refine ⟨?_, rfl⟩
    rintro _ ⟨⟩
    exact Nat.le_add_left 1 n
  · next hfault =>
    rw [ends_set, wrote, CanWrite, hfault]
    exact ⟨nofun, rfl⟩

/-- What the transport takes after one frame it takes together with it. -/
theorem CanWrite.cons {frame : Bytes} {frames : List Bytes} (h : t.CanWrite [frame])
    (h' : (t.wrote [frame]).CanWrite frames) : t.CanWrite (frame :: frames) := by
  intro fault hfault
  have hone : 1 ≤ fault.1 := h fault hfault
  have hrest : frames.length ≤ fault.1 - 1 := h' (fault.1 - 1, fault.2) (by rw [wrote, hfault]; rfl)
  rw [List.length_cons]
  omega

/-- Frames are written up to the one that finds the transport broken. The induction is on the
frames. -/
theorem ends_writeAll (frames : List Bytes) (now : Moment) :
    Ends (writeAll now frames) t (fun _ u => t.CanWrite frames ∧ u = t.wrote frames)
      (fun e u => ∃ written rest reason, frames = written ++ rest ∧ rest ≠ [] ∧
        t.writeFault = some (written.length, reason) ∧
        e = .failed ⟨.io reason, .disconnect⟩ ∧
        u = (t.wrote written).cutOff (.io reason) now) := by
  induction frames generalizing t with
  | nil => exact ⟨fun _ _ => Nat.zero_le _, (wrote_nil t).symm⟩
  | cons frame frames ih =>
    rw [writeAll, ends_bind]
    refine (ends_write frame now).mono ?_ ?_
    · rintro _ _ ⟨hone, rfl⟩
      refine ih.mono ?_ ?_
      · rintro _ _ ⟨hrest, rfl⟩
        exact ⟨hone.cons hrest, wrote_append t [frame] frames⟩
      · rintro e u ⟨written, rest, reason, rfl, hrest, hfault, rfl, rfl⟩
        rw [wrote_append]
        refine ⟨frame :: written, rest, reason, rfl, hrest, ?_, rfl, rfl⟩
        obtain ⟨⟨count, text⟩, hsome, heq⟩ := Option.map_eq_some_iff.mp hfault
        obtain ⟨hcount, rfl⟩ := Prod.mk.inj heq
        have hpos : 1 ≤ count := hone (count, text) hsome
        have hcount : count - 1 = written.length := hcount
        rw [hsome, List.length_cons, ← hcount, Nat.sub_add_cancel hpos]
    · rintro e u ⟨reason, hfault, rfl, rfl⟩
      refine ⟨[], frame :: frames, reason, rfl, List.cons_ne_nil _ _, hfault, rfl, ?_⟩
      rw [wrote_nil]

variable [MessageStore σ]

/-! ## Changes -/

/-- One change of a task, where it may make the calls in `A` on its session. -/
inductive Change (A : Session.Operation → Prop) (t : SessionTask σ) : SessionTask σ → Prop
  /-- Bytes come to the buffer or leave it. -/
  | buffer (buffer : ReadBuffer) : Change A t { t with buffer }
  /-- The session refuses to send. -/
  | refused {op : Session.Operation} {e : Error} {s : Session σ}
      (h : t.session.step op = (.sent (.error e), s)) (hop : A op) :
      Change A t { t with session := s }
  /-- What the session sends is written. -/
  | sent {op : Session.Operation} {frame : Bytes} {s : Session σ}
      (h : t.session.step op = (.sent (.ok frame), s)) (hop : A op) (hroom : t.CanWrite [frame]) :
      Change A t ({ t with session := s }.wrote [frame])
  /-- What the session reacts with is written, and the application is told. -/
  | reacted {op : Session.Operation} {reaction : Reaction} {s : Session σ}
      (h : t.session.step op = (.reacted (.ok reaction), s)) (hop : A op)
      (hroom : t.CanWrite reaction.outbound) :
      Change A t (({ t with session := s }.wrote reaction.outbound).toldOf reaction)
  /-- The session is given up. -/
  | disconnect (now : Moment) (hop : A (.disconnect now)) :
      Change A t { t with session := t.session.disconnect now }
  /-- The state of the session is shown. -/
  | publish : Change A t t.publish

/-- A chain of changes. -/
abbrev Changes (A : Session.Operation → Prop) : SessionTask σ → SessionTask σ → Prop :=
  Relation.ReflTransGen (Change A)

/-- A failure that ends a task: the error that it ends with, and the task after it. -/
inductive Break (A : Session.Operation → Prop) (t : SessionTask σ) :
    TaskError → SessionTask σ → Prop
  /-- The session fails. -/
  | session {op : Session.Operation} {failure : Failure} {s : Session σ}
      (h : t.session.step op = (.reacted (.error failure), s)) (hop : A op) :
      Break A t (.failed failure) ({ t with session := s }.toldFailure failure)
  /-- Not all of what the session puts out can be written. -/
  | write {op : Session.Operation} {outcome : Session.Outcome} {s : Session σ}
      {frames rest : List Bytes} {reason : String} (now : Moment)
      (h : t.session.step op = (outcome, s)) (hframes : outcome.frames = frames ++ rest)
      (hrest : rest ≠ [])
      (hfault : t.writeFault = some (frames.length, reason))
      (hop : A op) (hend : A (.disconnect now)) :
      Break A t (.failed ⟨.io reason, .disconnect⟩)
        (({ t with session := s }.wrote frames).cutOff (.io reason) now)
  /-- Nothing more can be read. -/
  | read (error : Error) (now : Moment) (hend : A (.disconnect now)) :
      Break A t (.failed ⟨error, .disconnect⟩) (t.cutOff error now)

/-- Work that fails has made some changes and then broken off. -/
def Breaks (A : Session.Operation → Prop) (t : SessionTask σ) (e : TaskError)
    (u : SessionTask σ) : Prop :=
  ∃ v, Changes A t v ∧ Break A v e u

/-- Work does changes only, and fails only after changes. -/
def Does {α : Type} (A : Session.Operation → Prop) (w : Work σ α) (t : SessionTask σ) : Prop :=
  Ends w t (fun _ u => Changes A t u) (Breaks A t)

variable {A : Session.Operation → Prop}

theorem Break.breaks (h : Break A t e u) : Breaks A t e u :=
  ⟨t, .refl, h⟩

/-- What breaks off after some changes has broken off. -/
theorem Breaks.after (h : Breaks A v e u) (hchanges : Changes A t v) : Breaks A t e u := by
  obtain ⟨w, hmore, hbreak⟩ := h
  exact ⟨w, hchanges.trans hmore, hbreak⟩

/-- After some changes work goes on with its own. -/
theorem Does.after {w : Work σ α} (h : Does A w v) (hchanges : Changes A t v) :
    Ends w v (fun _ u => Changes A t u) (Breaks A t) :=
  h.mono (fun _ _ hmore => hchanges.trans hmore) (fun _ _ hbreaks => hbreaks.after hchanges)

theorem does_bind {w : Work σ β} {f : β → Work σ α} (h : Does A w t)
    (hf : ∀ b u, Does A (f b) u) : Does A (w >>= f) t := by
  unfold Does
  rw [ends_bind]
  exact h.mono (fun b u hchanges => (hf b u).after hchanges) (fun _ _ hbreaks => hbreaks)

theorem does_pure (a : α) : Does A (pure a) t :=
  .refl

theorem does_failTransport (error : Error) {now : Moment} (hend : A (.disconnect now)) :
    Does A (failTransport error now : Work σ α) t :=
  ends_failTransport.mpr (Break.read error now hend).breaks

/-! ## What the session puts out -/

/-- A frame that the session sent is written. -/
theorem ends_write_sent {op : Session.Operation} {frame : Bytes} {s : Session σ}
    (h : t.session.step op = (.sent (.ok frame), s)) (hop : A op) {now : Moment}
    (hend : A (.disconnect now)) :
    Ends (write frame now) { t with session := s } (fun _ u => Changes A t u) (Breaks A t) := by
  refine (ends_write frame now).mono ?_ ?_
  · rintro _ _ ⟨hroom, rfl⟩
    exact .single (.sent h hop hroom)
  · rintro e u ⟨reason, hfault, rfl, rfl⟩
    have hbreak : Break A t _ ((({ t with session := s } : SessionTask σ).wrote []).cutOff
        (.io reason) now) :=
      .write now h rfl (List.cons_ne_nil _ _) hfault hop hend
    rw [wrote_nil] at hbreak
    exact hbreak.breaks

/-- What the session answered is done, or ends the task. -/
theorem ends_settle {op : Session.Operation} {outcome : Except Failure Reaction} {s : Session σ}
    (h : t.session.step op = (.reacted outcome, s)) (hop : A op) {now : Moment}
    (hend : A (.disconnect now)) :
    Ends (settle outcome now) { t with session := s } (fun _ u => Changes A t u) (Breaks A t) := by
  cases outcome with
  | error failure => exact ends_failWith.mpr (Break.session h hop).breaks
  | ok reaction =>
    rw [settle, ends_bind]
    refine (ends_writeAll reaction.outbound now).mono ?_ ?_
    · rintro _ _ ⟨hroom, rfl⟩
      exact .single (.reacted h hop hroom)
    · rintro e u ⟨frames, rest, reason, hframes, hrest, hfault, rfl, rfl⟩
      exact (Break.write now h hframes hrest hfault hop hend).breaks

/-! ## Events -/

/-- The calls that an event may make: the one that it asks for, and giving the session up. -/
def Event.Asks (now : Moment) : Event → Session.Operation → Prop
  | _, .disconnect at' => at' = now
  | .received _, .receive _ at' => at' = now
  | .tick, op => op = .timer now
  | .send type fields, op => op = .send type fields now
  | .shutdown text, op => op = .logout text now
  | _, _ => False

theorem Event.asks_disconnect (event : Event) (now : Moment) : event.Asks now (.disconnect now) := by
  cases event <;> rfl

section
variable {now : Moment} {B : SessionTask σ → TaskError → SessionTask σ → Prop}
  (hafter : ∀ (t u v : SessionTask σ) (e : TaskError), Changes A t u → B u e v → B t e v)
  (hcut : ∀ (t : SessionTask σ) (error : Error),
    B t (.failed ⟨error, .disconnect⟩) (t.cutOff error now))
  (hframe : ∀ (t : SessionTask σ) (frame : Bytes),
    Ends (settle (t.session.receive frame now).1 now)
      { t with session := (t.session.receive frame now).2 } (fun _ u => Changes A t u) (B t))
include hafter hcut hframe

/-- All complete frames of the buffer are dealt with, where `B` is what is known if that fails. The
induction is on the length of the buffer. -/
theorem ends_readFrames (bs : Bytes) :
    Ends (readFrames now bs) t (fun _ u => Changes A t u) (B t) := by
  induction hlength : bs.length using Nat.strongRecOn generalizing bs t with
  | ind n ih =>
    subst hlength
    rw [readFrames, ends_bind, ends_get]
    split
    · exact .refl
    dsimp only
    split
    · exact ends_failTransport.mpr (hcut t _)
    · split
      · obtain ⟨buffer, hreserve⟩ := exists_buffer_reserve t _
        rw [ends_modify, hreserve]
        exact .single (.buffer buffer)
      · exact .refl
    · next frame rest hnext =>
      simp only [ends_bind, ends_modify, ends_onSession]
      -- The use of the frame is noted after the session was called, which only changes the buffer.
      obtain ⟨buffer, hnote⟩ := exists_buffer_noteUse
        { t with
          buffer := t.buffer.cut frame rest
          session := (t.session.receive frame now).2 } frame
        (((t.session.receive frame now).1.toOption.map Reaction.delivered).getD [])
      rw [hnote]
      have hbuffer : Changes A t { t with buffer } := .single (.buffer buffer)
      refine (hframe { t with buffer } frame).mono (fun _ u hchanges => ?_)
        (fun _ _ => hafter _ _ _ _ hbuffer)
      have hdone : Changes A t u := hbuffer.trans hchanges
      exact (ih _ (Framing.length_of_next hnext) rest rfl).mono
        (fun _ _ hrest => hdone.trans hrest) (fun _ _ => hafter _ _ _ _ hdone)

theorem ends_onReadable (bs : Bytes) :
    Ends (onReadable bs now) t (fun _ u => Changes A t u) (B t) := by
  unfold onReadable
  simp only [ends_bind, ends_modify, ends_get]
  have happend : Changes A t { t with buffer := t.buffer.append bs } := .single (.buffer _)
  refine (ends_readFrames hafter hcut hframe _).mono (fun _ u hread => ?_)
    (fun _ _ => hafter _ _ _ _ happend)
  obtain ⟨buffer, hroom⟩ := exists_buffer_makeRoom u
  rw [hroom]
  exact (happend.trans hread).tail (.buffer buffer)

end

section
variable {now : Moment} (hend : A (.disconnect now))
include hend

theorem does_onReadable (hreceive : ∀ frame, A (.receive frame now)) (bs : Bytes) :
    Does A (onReadable bs now) t :=
  ends_onReadable (fun _ _ _ _ hchanges hbreaks => hbreaks.after hchanges)
    (fun _ error => (Break.read error now hend).breaks)
    (fun _ frame => ends_settle rfl (hreceive frame) hend) bs

theorem does_onClosed : Does A (onClosed now : Work σ Unit) t := by
  unfold Does onClosed
  rw [ends_bind, ends_get]
  exact does_failTransport _ hend

theorem does_onTick (htimer : A (.timer now)) : Does A (onTick now) t := by
  unfold Does onTick
  rw [ends_bind, ends_onSession]
  have hstep : t.session.step (.timer now) =
    (.reacted (t.session.onTimer now).1, (t.session.onTimer now).2) := rfl
  exact ends_settle hstep htimer hend

theorem does_onSend {type : MsgType} {fields : List Field} (hsend : A (.send type fields now)) :
    Does A (onSend type fields now) t := by
  refine ends_onSession_run fun answer s hrun => ?_
  have hstep : t.session.step (.send type fields now) = (.sent answer, s) := by
    rw [Session.step, hrun]
  cases answer with
  | error e => exact .single (.refused hstep hsend)
  | ok frame =>
    dsimp only
    rw [ends_bind]
    exact ends_write_sent hstep hsend hend

end

/-! ## The two calls that may be refused -/

/-- What an event asks of the session that it refuses, and the session after it. -/
def Refuses (t : SessionTask σ) (now : Moment) : Event → Error → Session σ → Prop
  | .shutdown text, e, s =>
    t.session.state = .loggedOn ∧ (Session.logout text now).run t.session = (.error e, s)
  | _, _, _ => False

/-- Work that breaks off, or ends the task because the session refused. -/
def BreaksOrRefuses (A : Session.Operation → Prop) (t : SessionTask σ)
    (R : Error → Session σ → Prop) (e : TaskError) (u : SessionTask σ) : Prop :=
  Breaks A t e u ∨ ∃ error s, R error s ∧ e = .refused error ∧ u = { t with session := s }

/-- The calls that the start of a task may make. -/
def Begins (now : Moment) (op : Session.Operation) : Prop :=
  op = .logon now ∨ op = .disconnect now

theorem ends_sendLogon (now : Moment) :
    Ends (sendLogon now) t (fun _ u => Changes (Begins now) t u)
      (BreaksOrRefuses (Begins now) t
        fun e s => (Session.logon now).run t.session = (.error e, s)) := by
  unfold sendLogon
  rw [ends_bind, ends_get]
  split
  · refine ends_onSession_run fun answer s hrun => ?_
    have hstep : t.session.step (.logon now) = (.sent answer, s) := by
      rw [Session.step, hrun]
    cases answer with
    | error e => exact .inr ⟨e, s, hrun, rfl, rfl⟩
    | ok frame =>
      dsimp only
      rw [ends_bind]
      exact (ends_write_sent hstep (.inl rfl) (.inr rfl)).mono
        (fun _ _ hchanges => hchanges.tail .publish) (fun _ _ => .inl)
  · exact .refl

theorem ends_onShutdown (text : Option String) (now : Moment) :
    Ends (onShutdown text now) t (fun _ u => Changes (Event.Asks now (.shutdown text)) t u)
      (BreaksOrRefuses (Event.Asks now (.shutdown text)) t (t.Refuses now (.shutdown text))) := by
  have hlogout : Event.Asks now (.shutdown text) (.logout text now) := rfl
  have hend : Event.Asks now (.shutdown text) (.disconnect now) := rfl
  unfold onShutdown
  rw [ends_bind, ends_get]
  split
  · next hstate =>
    refine ends_onSession_run fun answer s hrun => ?_
    have hstep : t.session.step (.logout text now) = (.sent answer, s) := by
      rw [Session.step, hrun]
    cases answer with
    | error e => exact .inr ⟨e, s, ⟨hstate, hrun⟩, rfl, rfl⟩
    | ok frame =>
      dsimp only
      rw [ends_bind]
      exact (ends_write_sent hstep hlogout hend).mono
        (fun _ _ hchanges => hchanges.tail .publish) (fun _ _ => .inl)
  · exact (Relation.ReflTransGen.single (.disconnect now hend)).tail .publish

theorem ends_handle (event : Event) (now : Moment) :
    Ends (handle event now) t (fun _ u => Changes (event.Asks now) t u)
      (BreaksOrRefuses (event.Asks now) t (t.Refuses now event)) := by
  have hend := event.asks_disconnect now
  -- Only a shut down may be refused.
  have hdoes {α : Type} {w : Work σ α} (h : Does (event.Asks now) w t) :
      Ends w t (fun _ u => Changes (event.Asks now) t u)
        (BreaksOrRefuses (event.Asks now) t (t.Refuses now event)) :=
    h.mono (fun _ _ hchanges => hchanges) (fun _ _ => .inl)
  cases event with
  | received bytes =>
    exact hdoes (does_bind (does_onReadable hend (fun _ => rfl) bytes) fun _ _ => does_pure _)
  | closed => exact hdoes (does_bind (does_onClosed hend) fun _ _ => does_pure _)
  | readFailed reason =>
    exact hdoes (does_bind (does_failTransport _ hend) fun _ _ => does_pure _)
  | tick => exact hdoes (does_bind (does_onTick hend rfl) fun _ _ => does_pure _)
  | send type fields => exact hdoes (does_onSend hend rfl)
  | shutdown text => exact ends_onShutdown text now

/-! ## What becomes of a task -/

/-- A task after some work: it goes on, or it has ended; with its session, by breaking off, or
because the session refused. -/
inductive Performed (A : Session.Operation → Prop) (t : SessionTask σ)
    (R : Error → Session σ → Prop) : SessionTask σ → Prop
  | goesOn {u : SessionTask σ} (h : Changes A t u) (hopen : u.session.terminated = false) :
      Performed A t R u
  | ends {u : SessionTask σ} (h : Changes A t u) (hended : u.session.terminated = true) :
      Performed A t R (u.tellLogout.finish (.ok ()))
  | breaks {e : TaskError} {u : SessionTask σ} (h : Breaks A t e u) :
      Performed A t R (u.finish (.error e))
  | refused {e : Error} {s : Session σ} (h : R e s) :
      Performed A t R ({ t with session := s }.finish (.error (.refused e)))

theorem performed {w : Work σ α} {R : Error → Session σ → Prop}
    (h : Ends w t (fun _ u => Changes A t u) (BreaksOrRefuses A t R)) (a : α) :
    Performed A t R (t.perform w a).2 := by
  unfold Ends at h
  unfold perform
  cases heq : w t with
  | ok a u =>
    rw [heq] at h
    by_cases hended : u.session.terminated = true
    · show Performed A t R (if u.session.terminated then _ else _)
      rw [if_pos hended]
      exact .ends h hended
    · show Performed A t R (if u.session.terminated then _ else _)
      rw [if_neg hended]
      exact .goesOn h (Bool.eq_false_iff.mpr hended)
  | error e u =>
    rw [heq] at h
    rcases h with h | ⟨error, s, hrefused, rfl, rfl⟩
    · exact .breaks h
    · exact .refused hrefused

/-- What starting a task does. -/
theorem begun (t : SessionTask σ) (now : Moment) :
    Performed (Begins now) t (fun e s => (Session.logon now).run t.session = (.error e, s))
      (t.begin now) :=
  performed (ends_sendLogon now) ()

/-- What one event does to a task that runs. -/
theorem stepped (hrunning : t.isRunning = true) (event : Event) (now : Moment) :
    Performed (event.Asks now) t (t.Refuses now event) (t.step event now).2 := by
  rw [step, if_pos hrunning]
  exact performed (ends_handle event now) _

/-- A task whose session refuses ends without doing anything else. -/
theorem step_of_refuses (hrunning : t.isRunning = true) {event : Event} {now : Moment} {e : Error}
    {s : Session σ} (h : t.Refuses now event e s) :
    (t.step event now).2 = { t with session := s }.finish (.error (.refused e)) := by
  cases event with
  | shutdown text =>
    obtain ⟨hstate, hrun⟩ := h
    have hends : Ends (onShutdown text now) t (fun _ _ => False)
        (fun e' u => e' = .refused e ∧ u = { t with session := s }) := by
      unfold onShutdown
      rw [ends_bind, ends_get, if_pos hstate]
      refine ends_onSession_run fun answer s' hrun' => ?_
      rw [hrun] at hrun'
      cases hrun'
      exact ⟨rfl, rfl⟩
    rw [step, if_pos hrunning]
    show (t.perform (onShutdown text now) _).2 = _
    unfold Ends at hends
    unfold perform
    cases heq : onShutdown text now t with
    | ok a u =>
      rw [heq] at hends
      exact hends.elim
    | error e' u =>
      rw [heq] at hends
      obtain ⟨rfl, rfl⟩ := hends
      rfl
  | _ => exact h.elim

/-- The task after some events. -/
def run (t : SessionTask σ) : List (Event × Moment) → SessionTask σ
  | [] => t
  | (event, now) :: events => (t.step event now).2.run events

/-- To a task that has ended nothing happens any more. -/
theorem run_of_ended (hended : t.isRunning = false) (events : List (Event × Moment)) :
    t.run events = t := by
  induction events with
  | nil => rfl
  | cons entry events ih =>
    obtain ⟨event, now⟩ := entry
    have hsame : (t.step event now).2 = t := by
      rw [step, if_neg (Bool.eq_false_iff.mp hended)]
    rw [run, hsame, ih]

end SessionTask

end FixProtocol
