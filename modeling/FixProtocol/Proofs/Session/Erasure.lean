import FixProtocol.Proofs.Session.Calls

/-!
# What a session does not see

A session sees of its store only what the operations of stores show. So it does not see what a store
keeps besides: whatever the session does, it does without that as well.

- `MessageStore.Wraps`: a store that keeps another one, and answers as that does.
- `Erases`: a call does over a store what it does over the one inside, however it ends. There is one
  rule for each way of putting calls together, and one lemma for each call.
- `step_bared`, `run_bared`: so does every operation, and every run.
-/

namespace FixProtocol

/-- A store that keeps another one, which `bare` takes out, and answers as that does. -/
structure MessageStore.Wraps {τ σ : Type} [MessageStore τ] [MessageStore σ] (bare : τ → σ) :
    Prop where
  append : ∀ (store : τ) (d : Direction) (n : SeqNum) (frame : Bytes),
    MessageStore.append (bare store) d n frame =
      ((MessageStore.append store d n frame).1, bare (MessageStore.append store d n frame).2)
  range : ∀ (store : τ) (d : Direction) (first last : SeqNum),
    MessageStore.range (bare store) d first last =
      ((MessageStore.range store d first last).1, bare (MessageStore.range store d first last).2)
  setNextSeq : ∀ (store : τ) (d : Direction) (n : SeqNum),
    MessageStore.setNextSeq (bare store) d n = bare (MessageStore.setNextSeq store d n)

namespace Session

open Call

variable {τ σ : Type} {bare : τ → σ}

/-- The session over the store inside. -/
def bared (bare : τ → σ) (s : Session τ) : Session σ :=
  { s with store := bare s.store }

/-- How a call ends, over the store inside. -/
def erased {α : Type} (bare : τ → σ) :
    EStateM.Result Error (Session τ) α → EStateM.Result Error (Session σ) α
  | .ok a s => .ok a (s.bared bare)
  | .error e s => .error e (s.bared bare)

/-- The first call does over a store what the second does over the one inside. -/
structure Erases {α : Type} (bare : τ → σ) (c : Call τ α) (c' : Call σ α) : Prop where
  eq : ∀ s, c' (s.bared bare) = erased bare (c s)

/-! ## Putting calls together -/

section
variable {α β : Type}

theorem Erases.pure (a : α) : Erases bare (pure a : Call τ α) (pure a) :=
  ⟨fun _ => rfl⟩

theorem Erases.throw (e : Error) : Erases bare (throw e : Call τ α) (throw e) :=
  ⟨fun _ => rfl⟩

theorem Erases.bind {c : Call τ β} {c' : Call σ β} {f : β → Call τ α}
    {f' : β → Call σ α} (h : Erases bare c c') (hf : ∀ b, Erases bare (f b) (f' b)) :
    Erases bare (c >>= f) (c' >>= f') := by
  refine ⟨fun s => ?_⟩
  show EStateM.bind c' f' (s.bared bare) = erased bare (EStateM.bind c f s)
  unfold EStateM.bind
  rw [h.eq s]
  cases c s with
  | ok b t => exact (hf b).eq t
  | error e t => rfl

theorem Erases.map {c : Call τ β} {c' : Call σ β} (h : Erases bare c c') (f : β → α) :
    Erases bare (f <$> c) (f <$> c') := by
  refine ⟨fun s => ?_⟩
  show EStateM.map f c' (s.bared bare) = erased bare (EStateM.map f c s)
  unfold EStateM.map
  rw [h.eq s]
  cases c s <;> rfl

/-- What goes on with the session goes on with what the two sessions share. -/
theorem Erases.read {f : Session τ → Call τ α} {f' : Session σ → Call σ α}
    (h : ∀ s, Erases bare (f s) (f' (s.bared bare))) : Erases bare (get >>= f) (get >>= f') :=
  ⟨fun s => (h s).eq s⟩

theorem Erases.modify_then {f : Session τ → Session τ} {f' : Session σ → Session σ}
    {c : Call τ α} {c' : Call σ α} (h : ∀ s, f' (s.bared bare) = (f s).bared bare)
    (hc : Erases bare c c') : Erases bare (do modify f; c) (do modify f'; c') := by
  refine ⟨fun s => ?_⟩
  show c' (f' (s.bared bare)) = erased bare (c (f s))
  rw [h s]
  exact hc.eq (f s)

theorem erases_set {s : Session τ} {s' : Session σ} (h : s' = s.bared bare) :
    Erases bare (set s : Call τ PUnit) (set s' : Call σ PUnit) := by
  rw [h]
  exact ⟨fun _ => rfl⟩

theorem erases_set_then {s : Session τ} {s' : Session σ} {c : Call τ α} {c' : Call σ α}
    (h : s' = s.bared bare) (hc : Erases bare c c') :
    Erases bare (do set s; c) (do set s'; c') :=
  (erases_set h).bind fun _ => hc

theorem Erases.ite {p : Prop} [Decidable p] {c d : Call τ α} {c' d' : Call σ α}
    (hc : Erases bare c c') (hd : Erases bare d d') :
    Erases bare (if p then c else d) (if p then c' else d') := by
  split
  · exact hc
  · exact hd

theorem Erases.ofExcept {ε : Type} (wrap : ε → Error) (x : Except ε α) :
    Erases bare (Call.ofExcept wrap x) (Call.ofExcept wrap x) := by
  cases x with
  | ok a => exact .pure a
  | error e => exact .throw (wrap e)

theorem Erases.run {α : Type} {c : Call τ α} {c' : Call σ α} (h : Erases bare c c')
    (s : Session τ) :
    c'.run (s.bared bare) = ((c.run s).1, (c.run s).2.bared bare) := by
  unfold Call.run
  rw [h.eq s]
  cases c s <;> rfl

theorem Erases.settle {c : Call τ Reaction} {c' : Call σ Reaction} (h : Erases bare c c')
    (s : Session τ) (now : Moment) :
    c'.settle (s.bared bare) now = ((c.settle s now).1, (c.settle s now).2.bared bare) := by
  unfold Call.settle
  rw [h.eq s]
  cases c s <;> rfl

theorem erases_observe (n : SeqNum) : Erases bare (observe n) (observe n) :=
  ⟨fun _ => rfl⟩

theorem erases_park (n : SeqNum) (p : Parked) : Erases bare (park n p) (park n p) :=
  .read fun _ => (Erases.ofExcept ..).bind fun _ => erases_set rfl

theorem erases_ensureOpen : Erases bare ensureOpen ensureOpen :=
  .read fun _ => .ite (.throw _) (.pure _)

theorem erases_ensureState (state : SessionState) :
    Erases bare (ensureState state) (ensureState state) :=
  .read fun _ => .ite (.throw _) (.pure _)

theorem erases_ensureInitiator : Erases bare ensureInitiator ensureInitiator :=
  .read fun _ => .ite (.throw _) (.pure _)

end

/-! ## Calls -/

variable [MessageStore τ] [MessageStore σ] (h : MessageStore.Wraps bare)
include h

theorem erases_append (d : Direction) (n : SeqNum) (frame : Bytes) :
    Erases bare (append d n frame) (append d n frame) := by
  refine ⟨fun s => ?_⟩
  unfold append onStore
  dsimp only
  rw [show (s.bared bare).store = bare s.store from rfl, h.append]
  rcases MessageStore.append s.store d n frame with ⟨_ | _, store⟩
  · rfl
  · rfl

theorem erases_range (d : Direction) (first last : SeqNum) :
    Erases bare (onStore fun store => MessageStore.range store d first last)
      (onStore fun store => MessageStore.range store d first last) := by
  refine ⟨fun s => ?_⟩
  unfold onStore
  dsimp only
  rw [show (s.bared bare).store = bare s.store from rfl, h.range]
  rcases MessageStore.range s.store d first last with ⟨_ | _, store⟩
  · rfl
  · rfl

theorem erases_emit (type : MsgType) (body : List Field) (now : Moment) :
    Erases bare (emit type body now) (emit type body now) :=
  .read fun _ => (Erases.ofExcept ..).bind fun _ => (erases_append h ..).bind fun _ =>
    Erases.modify_then (fun _ => rfl) (.pure _)

theorem erases_requestResend (first last : SeqNum) (now : Moment) :
    Erases bare (requestResend first last now) (requestResend first last now) :=
  (erases_emit h ..).bind fun _ => Erases.modify_then (fun _ => rfl) (.pure _)

theorem erases_applySequenceReset (m : Message) :
    Erases bare (applySequenceReset m) (applySequenceReset m) := by
  unfold applySequenceReset
  split
  · exact .throw _
  · next number _ =>
    refine .read fun s => ?_
    rw [show (s.bared bare).sequences = s.sequences from rfl]
    split
    · exact .throw _
    · refine erases_set ?_
      rw [show (s.bared bare).store = bare s.store from rfl, h.setNextSeq]
      rfl

theorem erases_onLogout (now : Moment) : Erases bare (onLogout now) (onLogout now) := by
  have hend (reaction : Reaction) :
      Erases bare (do modify fun s => s.terminate now; return reaction)
        (do modify fun s => s.terminate now; return reaction) :=
    Erases.modify_then (fun _ => rfl) (.pure _)
  exact .read fun _ => .ite (hend _) (((erases_emit h ..).map _).bind hend)

theorem erases_serveResend (m : Message) (now : Moment) :
    Erases bare (serveResend m now) (serveResend m now) :=
  (Erases.ofExcept ..).bind fun _ => (Erases.ofExcept ..).bind fun _ => .read fun _ =>
    .ite (.pure _) <| (erases_range h ..).bind fun _ => .read fun _ => (Erases.ofExcept ..).bind
      fun _ => Erases.modify_then (fun _ => rfl) (.pure _)

theorem erases_dispatch (m : Message) (replaying : Bool) (now : Moment) :
    Erases bare (dispatch m replaying now) (dispatch m replaying now) := by
  cases htype : m.msgType with
  | heartbeat =>
    simp only [dispatch, htype]
    exact Erases.modify_then (fun _ => rfl) (.pure _)
  | testRequest =>
    simp only [dispatch, htype]
    exact (erases_emit h ..).map _
  | resendRequest =>
    simp only [dispatch, htype]
    exact erases_serveResend h m now
  | sequenceReset =>
    simp only [dispatch, htype]
    exact (erases_applySequenceReset h m).bind fun _ => .pure _
  | logout =>
    simp only [dispatch, htype]
    exact erases_onLogout h now
  | logon =>
    simp only [dispatch, htype]
    exact .ite (.pure _) (.read fun _ => .throw _)
  | _ =>
    simp only [dispatch, htype]
    exact .pure _

theorem erases_accept (n : SeqNum) (p : Parked) (replaying : Bool) (now : Moment) :
    Erases bare (accept n p replaying now) (accept n p replaying now) :=
  (erases_append h ..).bind fun _ => erases_dispatch h ..

/-- The induction is on how many parked messages may be taken. -/
theorem erases_replay (now : Moment) (count : Nat) :
    Erases bare (replay now count) (replay now count) := by
  induction count with
  | zero => exact .pure _
  | succ count ih =>
    refine .read fun s => .ite (.pure _) ?_
    rw [show (s.bared bare).sequences = s.sequences from rfl,
      show (s.bared bare).recovery = s.recovery from rfl]
    refine erases_set_then rfl ?_
    split
    · exact .pure _
    · exact (erases_observe _).bind fun _ => (erases_accept h ..).bind fun _ => ih.bind fun _ =>
        .pure _

theorem erases_closeGap (now : Moment) : Erases bare (closeGap now) (closeGap now) := by
  refine .modify_then (fun _ => rfl) (.read fun s => ?_)
  rw [show (s.bared bare).sequences = s.sequences from rfl,
    show (s.bared bare).recovery = s.recovery from rfl]
  split
  · exact .pure _
  · exact .ite (.pure _) (erases_requestResend h ..)

theorem erases_drain (now : Moment) : Erases bare (drain now) (drain now) :=
  .read fun _ => (erases_replay h ..).bind fun _ => .read fun _ =>
    .ite (.pure _) ((erases_closeGap h now).bind fun _ => .pure _)

theorem erases_establish (seconds : Nat) (now : Moment) :
    Erases bare (establish seconds now) (establish seconds now) := by
  have hend (reaction : Reaction) :
      Erases bare (do
          modify fun s =>
            { s with heartbeat := s.heartbeat.reset (seconds * 1000) now.elapsed }.enter
              .loggedOn now
          return reaction)
        (do
          modify fun s =>
            { s with heartbeat := s.heartbeat.reset (seconds * 1000) now.elapsed }.enter
              .loggedOn now
          return reaction) :=
    Erases.modify_then (fun _ => rfl) (.pure _)
  refine .read fun s => ?_
  rw [show (s.bared bare).config = s.config from rfl]
  split
  · exact hend _
  · exact ((erases_emit h ..).map _).bind hend

theorem erases_onLogonPhase (n : SeqNum) (p : Parked) (now : Moment) :
    Erases bare (onLogonPhase n p now) (onLogonPhase n p now) := by
  refine .read fun _ => (Erases.ofExcept ..).bind fun _ => (Erases.ofExcept ..).bind fun _ =>
    (erases_observe n).bind fun outcome => ?_
  cases outcome with
  | duplicate expected received => exact .throw _
  | inOrder =>
    exact (erases_establish h ..).bind fun _ => (erases_append h ..).bind fun _ => .pure _
  | gap expected received =>
    exact (erases_establish h ..).bind fun _ => (erases_park ..).bind fun _ =>
      (erases_requestResend h ..).bind fun _ => .pure _

theorem erases_onNumbered (n : SeqNum) (p : Parked) (now : Moment) :
    Erases bare (onNumbered n p now) (onNumbered n p now) := by
  refine (erases_observe n).bind fun outcome => ?_
  cases outcome with
  | inOrder => exact (erases_accept h ..).bind fun _ => (erases_drain h now).bind fun _ => .pure _
  | duplicate expected received => exact .pure _
  | gap expected received =>
    exact (erases_park n p).bind fun _ => .read fun _ => .ite (.pure _) (erases_requestResend h ..)

theorem erases_process (frame : Bytes) (now : Moment) :
    Erases bare (process frame now) (process frame now) := by
  refine erases_ensureOpen.bind fun _ => .read fun s => (Erases.ofExcept ..).bind fun m =>
    .modify_then (fun _ => rfl) <| (Erases.ofExcept ..).bind fun _ =>
    (Erases.ofExcept ..).bind fun n => ?_
  rw [show (s.bared bare).state = s.state from rfl]
  have hnumbered := Erases.ite (p := isPlainReset m)
    ((erases_applySequenceReset h (σ := σ) m).bind fun _ => erases_drain h now)
    (erases_onNumbered h n ⟨m, frame⟩ now)
  split
  · exact erases_onLogonPhase h ..
  · exact erases_onLogonPhase h ..
  · exact hnumbered
  · exact hnumbered

theorem erases_keepAlive (now : Moment) : Erases bare (keepAlive now) (keepAlive now) := by
  refine .read fun s => ?_
  rw [show (s.bared bare).heartbeat = s.heartbeat from rfl]
  refine erases_set_then rfl ?_
  split
  · exact .throw _
  · exact (erases_emit h ..).map _
  · exact (erases_emit h ..).map _
  · exact .pure _

theorem erases_retryResend (now : Moment) :
    Erases bare (retryResend now) (retryResend now) := by
  refine .read fun s => ?_
  rw [show (s.bared bare).recovery = s.recovery from rfl,
    show (s.bared bare).sequences = s.sequences from rfl,
    show (s.bared bare).config = s.config from rfl]
  refine erases_set_then rfl ?_
  split
  · exact (erases_emit h ..).map _
  · exact .throw _
  · exact .pure _

theorem erases_tick (now : Moment) : Erases bare (tick now) (tick now) := by
  refine .read fun s => .ite (.pure _) ?_
  rw [show (s.bared bare).state = s.state from rfl]
  split
  · exact .pure _
  · exact .ite (.throw _) (.pure _)
  · exact .ite (erases_set_then rfl (.pure _)) (.pure _)
  · exact (erases_keepAlive h now).bind fun _ => (erases_retryResend h now).bind fun _ => .pure _

theorem erases_logon (now : Moment) : Erases bare (logon now) (logon now) :=
  erases_ensureOpen.bind fun _ => erases_ensureInitiator.bind fun _ =>
    (erases_ensureState _).bind fun _ => .read fun _ => (erases_emit h ..).bind fun _ =>
    Erases.modify_then (fun _ => rfl) (.pure _)

theorem erases_send (type : MsgType) (fields : List Field) (now : Moment) :
    Erases bare (send type fields now) (send type fields now) :=
  erases_ensureOpen.bind fun _ => (erases_ensureState _).bind fun _ =>
    (Erases.ofExcept ..).bind fun _ => erases_emit h ..

theorem erases_logout (text : Option String) (now : Moment) :
    Erases bare (logout text now) (logout text now) :=
  erases_ensureOpen.bind fun _ => (erases_ensureState _).bind fun _ => (erases_emit h ..).bind
    fun _ => Erases.modify_then (fun _ => rfl) (.pure _)

/-! ## Runs -/

/-- An operation does with a tally what it does without. -/
theorem step_bared (s : Session τ) (op : Operation) :
    (s.bared bare).step op = ((s.step op).1, (s.step op).2.bared bare) := by
  cases op with
  | logon now =>
    simp only [step, (erases_logon h now).run s]
  | send type fields now =>
    simp only [step, (erases_send h type fields now).run s]
  | logout text now =>
    simp only [step, (erases_logout h text now).run s]
  | receive frame now =>
    simp only [step, receive, (erases_process h frame now).settle s now]
  | timer now =>
    simp only [step, onTimer, (erases_tick h now).settle s now]
  | disconnect now =>
    show (_, (s.bared bare).disconnect now) = (_, (s.disconnect now).bared bare)
    unfold disconnect
    rw [show (s.bared bare).terminated = s.terminated from rfl]
    split
    · rfl
    · rfl

/-- A run does with a tally what it does without. -/
theorem run_bared (s : Session τ) (ops : List Operation) :
    (s.bared bare).run ops = ((s.run ops).1, (s.run ops).2.bared bare) := by
  induction ops generalizing s with
  | nil => rfl
  | cons op ops ih =>
    simp only [run, step_bared h s op, ih]

end Session

end FixProtocol
