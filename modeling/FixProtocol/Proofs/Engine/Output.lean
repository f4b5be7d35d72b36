import FixProtocol.Proofs.Engine.Order
import FixProtocol.Proofs.Session.Finality
import FixProtocol.Proofs.Session.Succession

/-!
# What a task writes

A session puts out frames from four places: its logon, what its owner asks for, the messages that
arrive, and the timer. However these follow each other, a task writes what its session puts out, in
the same order and leaving nothing out, until a write fails; then the task is over. A reaction that
fails has used up numbers without putting anything out, but it also ends the session, so that there
is no hole in the numbers of what was written. The messages of a reaction are given to the
application after its frames were written, so those of the last one are not if a write failed.

- `Session.produced`, `Session.handedBy`: what some operations put out in all, and what they hand over.
- `Session.spent_run`, `Session.wrote_run`: the new frames among it are kept under numbers that
  follow each other.
- `SessionTask.Carries`: a task has written what some operations produced.
- `SessionTask.Delivered`: a task has written as much of it as its transport took.
- `SessionTask.Conveys`, `SessionTask.Concludes`: the same, and what the application was given;
  every change keeps the former, and every run comes to the latter.
- `SessionTask.run_writes_produced`: it is so after every run.
-/

namespace FixProtocol

namespace Session

variable {σ : Type}

/-! ## What operations put out -/

section
variable [MessageStore σ] {s t : Session σ}

/-! Whatever is read off each outcome of a run is put together in the same way. -/

theorem flatMap_run_append {α : Type} (f : Outcome → List α) (s : Session σ)
    (ops more : List Operation) :
    (s.run (ops ++ more)).1.flatMap f =
      (s.run ops).1.flatMap f ++ ((s.run ops).2.run more).1.flatMap f := by
  induction ops generalizing s with
  | nil => rfl
  | cons op ops ih =>
    show f (s.step op).1 ++ ((s.step op).2.run (ops ++ more)).1.flatMap f = _
    rw [ih, ← List.append_assoc]
    rfl

/-- What comes of one more operation comes last. -/
theorem flatMap_run_concat {α : Type} (f : Outcome → List α) {ops : List Operation}
    {op : Operation} {o : Outcome} (h : (s.run ops).2.step op = (o, t)) :
    (s.run (ops ++ [op])).1.flatMap f = (s.run ops).1.flatMap f ++ f o := by
  rw [flatMap_run_append]
  show _ ++ (f ((s.run ops).2.step op).1 ++ []) = _
  rw [h, List.append_nil]

/-- What comes of fewer operations comes first. -/
theorem isPrefix_flatMap_run {α : Type} (f : Outcome → List α) (s : Session σ)
    {before ops : List Operation} (h : before <+: ops) :
    (s.run before).1.flatMap f <+: (s.run ops).1.flatMap f := by
  obtain ⟨after, rfl⟩ := h
  rw [flatMap_run_append]
  exact List.prefix_append _ _

/-- The frames that some operations put out, one after the other. -/
def produced (s : Session σ) (ops : List Operation) : List Bytes :=
  (s.run ops).1.flatMap Outcome.frames

theorem produced_cons (s : Session σ) (op : Operation) (ops : List Operation) :
    s.produced (op :: ops) = (s.step op).1.frames ++ (s.step op).2.produced ops :=
  List.flatMap_cons

theorem produced_append (s : Session σ) (ops more : List Operation) :
    s.produced (ops ++ more) = s.produced ops ++ (s.run ops).2.produced more :=
  flatMap_run_append _ s ops more

theorem produced_concat {ops : List Operation} {op : Operation} {o : Outcome}
    (h : (s.run ops).2.step op = (o, t)) :
    s.produced (ops ++ [op]) = s.produced ops ++ o.frames :=
  flatMap_run_concat _ h

/-- The messages that some operations hand over, one after the other. -/
def handedBy (s : Session σ) (ops : List Operation) : List Message :=
  (s.run ops).1.flatMap Outcome.delivered

theorem handedBy_concat {ops : List Operation} {op : Operation} {o : Outcome}
    (h : (s.run ops).2.step op = (o, t)) :
    s.handedBy (ops ++ [op]) = s.handedBy ops ++ o.delivered :=
  flatMap_run_concat _ h

/-- A session that has ended puts out nothing. -/
theorem produced_of_ended (hs : Steady s) (hended : s.terminated = true) (ops : List Operation) :
    s.produced ops = [] := by
  obtain ⟨houtcomes, _⟩ := lasts_run (hs.lasts hended) ops
  rw [produced, houtcomes, List.flatMap_map]
  exact List.flatMap_eq_nil_iff.mpr fun op _ => op.finalOutcome_silent.1

end

section
variable {s : Session MemoryStore}

/-- What some operations put out begins what they numbered, as far as it is new: only a reaction that
failed has numbered more than it put out, and then the session puts out nothing any more. The
induction is on the operations. -/
theorem spent_run (hs : Steady s) (ops : List Operation) :
    ∃ written, Spent s (s.run ops).2 written ∧
      (s.produced ops).filter isFresh <+: written.map Prod.snd := by
  induction ops generalizing s with
  | nil => exact ⟨[], .nothing rfl rfl, List.nil_prefix⟩
  | cons op ops ih =>
    have hsteps : Stepped .any s (s.step op).1 (s.step op).2 := hs.stepped op rfl
    have hstep : Steady (s.step op).2 := hs.step op rfl
    obtain ⟨written, hspent, haccounts⟩ := hsteps.spent
    obtain ⟨more, hmore, hprefix⟩ := ih hstep
    refine ⟨written ++ more, hspent.trans hmore, ?_⟩
    rw [produced_cons, List.filter_append, List.map_append]
    by_cases hanswered : (s.step op).1.succeeded = true
    · rw [haccounts.answered hanswered]
      exact (List.prefix_append_right_inj _).mpr hprefix
    · match houtcome : (s.step op).1 with
      | .sent (.error e) =>
        rw [haccounts.refused e houtcome]
        exact hprefix
      | .reacted (.error failure) =>
        have hfailed : s.step op = (.reacted (.error failure), (s.step op).2) :=
          Prod.ext houtcome rfl
        have hended : (s.step op).2.terminated = true := hs.terminated_of_failed hfailed
        rw [produced_of_ended hstep hended]
        exact List.nil_prefix
      | .sent (.ok _) | .reacted (.ok _) | .closed =>
        rw [houtcome] at hanswered
        exact absurd rfl hanswered

theorem nextSeq_le_run (hs : Steady s) (ops : List Operation) :
    s.store.outbound.nextSeq ≤ (s.run ops).2.store.outbound.nextSeq := by
  obtain ⟨_, hspent, _⟩ := spent_run hs ops
  exact hspent.counter

/-- Before the counter has come to the end, the numbers are those that it passed. -/
theorem wrote_run (hs : Steady s) (hbelow : s.store.outbound.last < s.sequences.nextOutgoing)
    (ops : List Operation) (htop : (s.run ops).2.store.outbound.nextSeq < .top) :
    ∃ written, Wrote s (s.run ops).2 written ∧
      (s.produced ops).filter isFresh <+: written.map Prod.snd ∧
      (s.run ops).2.store.outbound.last < (s.run ops).2.sequences.nextOutgoing := by
  obtain ⟨written, hspent, hprefix⟩ := spent_run hs ops
  have hne := hspent.ne_top htop
  exact ⟨written, hspent.wrote hne, hprefix, hspent.last_lt hne hbelow⟩

/-- Whatever new frame an operation puts out, it has kept before, under the number that the frame
carries. -/
theorem Stepped.kept {I : Inputs} {t : Session MemoryStore} {o : Outcome} (h : Stepped I s o t)
    (hbelow : s.store.outbound.last < s.sequences.nextOutgoing)
    (htop : t.store.outbound.nextSeq < .top) {frame : Bytes} (hframe : frame ∈ o.frames)
    (hnew : isFresh frame = true) :
    ∃ n, Numbered n frame ∧ (n, frame) ∈ t.store.outbound.entries := by
  obtain ⟨written, hwrote, haccounts, _⟩ := h.wrote hbelow htop
  have hanswered : o.succeeded = true := by
    cases h with
    | sent | reacted | closed => rfl
    | refused | failed => cases hframe
  have hmem : frame ∈ written.map Prod.snd := by
    rw [← haccounts.answered hanswered]
    exact List.mem_filter.mpr ⟨hframe, hnew⟩
  obtain ⟨⟨n, _⟩, hentry, rfl⟩ := List.mem_map.mp hmem
  refine ⟨n, hwrote.numbered _ hentry, ?_⟩
  rw [hwrote.entries]
  exact List.mem_append_right _ hentry

end

end Session

namespace SessionTask

variable {σ : Type}

/-- What a transport takes of some frames: all of them, unless its writes fail from some point
on. -/
def taken (fault : Option (Nat × String)) (frames : List Bytes) : List Bytes :=
  match fault with
  | none => frames
  | some (count, _) => frames.take count

theorem isPrefix_taken (fault : Option (Nat × String)) (frames : List Bytes) :
    taken fault frames <+: frames := by
  cases fault with
  | none => exact List.prefix_rfl
  | some fault => exact List.take_prefix _ _

variable [MessageStore σ] {A : Session.Operation → Prop} {fault : Option (Nat × String)}
  {session : Session σ} {ops more : List Session.Operation} {t u : SessionTask σ} {e : TaskError}

/-! ## While the transport takes everything -/

/-- The operations `ops` have brought the session to where the task has it, and what they put out
was written. -/
structure Carries (fault : Option (Nat × String)) (session : Session σ)
    (ops : List Session.Operation) (t : SessionTask σ) : Prop where
  session_eq : t.session = (session.run ops).2
  written_eq : t.written = session.produced ops
  fault_eq : t.writeFault = fault.map fun f => (f.1 - t.written.length, f.2)
  room : ∀ f, fault = some f → t.written.length ≤ f.1

/-- The operations `ops` have brought the session to where the task has it. Of what they put out as
much was written as the transport took, and if that is not everything, the task is over. -/
structure Delivered (fault : Option (Nat × String)) (session : Session σ)
    (ops : List Session.Operation) (t : SessionTask σ) : Prop where
  session_eq : t.session = (session.run ops).2
  written_eq : t.written = taken fault (session.produced ops)
  cut : t.written ≠ session.produced ops → t.isRunning = false

theorem Carries.delivered (h : Carries fault session ops t) : Delivered fault session ops t where
  session_eq := h.session_eq
  written_eq := by
    cases fault with
    | none => exact h.written_eq
    | some fault =>
      have hroom : t.written.length ≤ fault.1 := h.room fault rfl
      rw [h.written_eq] at hroom ⊢
      exact (List.take_of_length_le hroom).symm
  cut := fun hne => absurd h.written_eq hne

/-- A task that differs in what concerns neither its session nor its transport. -/
theorem Carries.same (h : Carries fault session ops t) (hsession : u.session = t.session)
    (hwritten : u.written = t.written) (hfault : u.writeFault = t.writeFault) :
    Carries fault session ops u where
  session_eq := hsession.trans h.session_eq
  written_eq := hwritten.trans h.written_eq
  fault_eq := by rw [hfault, hwritten, h.fault_eq]
  room := hwritten ▸ h.room

/-- A call that puts something out, which is then written. -/
theorem Carries.call (h : Carries fault session ops t) {op : Session.Operation}
    {o : Session.Outcome} {s : Session σ} (hstep : t.session.step op = (o, s))
    (hroom : t.CanWrite o.frames) :
    Carries fault session (ops ++ [op]) ({ t with session := s }.wrote o.frames) where
  session_eq := by
    rw [Session.run_append, ← h.session_eq]
    show s = (t.session.step op).2
    rw [hstep]
  written_eq := by
    rw [h.session_eq] at hstep
    rw [Session.produced_concat hstep, ← h.written_eq]
    rfl
  fault_eq := by
    show t.writeFault.map _ = fault.map _
    rw [h.fault_eq, Option.map_map]
    congr 1
    funext f
    show (f.1 - t.written.length - o.frames.length, f.2) =
      (f.1 - (t.written ++ o.frames).length, f.2)
    rw [List.length_append, Nat.sub_sub]
  room := by
    rintro f rfl
    have hwritten := h.room f rfl
    have hframes : o.frames.length ≤ f.1 - t.written.length := hroom _ h.fault_eq
    show (t.written ++ o.frames).length ≤ f.1
    rw [List.length_append]
    omega

omit [MessageStore σ] in
theorem canWrite_nil (t : SessionTask σ) : t.CanWrite [] :=
  fun _ _ => Nat.zero_le _

omit [MessageStore σ] in
theorem tellLogon_same (t : SessionTask σ) : t.tellLogon.session = t.session ∧
    t.tellLogon.written = t.written ∧ t.tellLogon.writeFault = t.writeFault := by
  unfold tellLogon
  split
  all_goals exact ⟨rfl, rfl, rfl⟩

omit [MessageStore σ] in
theorem tellLogout_same (t : SessionTask σ) : t.tellLogout.session = t.session ∧
    t.tellLogout.written = t.written ∧ t.tellLogout.writeFault = t.writeFault := by
  unfold tellLogout
  split
  all_goals exact ⟨rfl, rfl, rfl⟩

/-- What the application is told does not matter. -/
theorem Carries.toldOf (h : Carries fault session ops t) (reaction : Reaction) :
    Carries fault session ops (t.toldOf reaction) := by
  obtain ⟨hsession, hwritten, hfault⟩ := tellLogon_same t.publish
  have hlogon : Carries fault session ops t.publish.tellLogon := h.same hsession hwritten hfault
  have hreported : Carries fault session ops (reaction.reported.foldl
      (fun t f => t.tell (.failure f)) t.publish.tellLogon) :=
    List.foldlRecOn _ _ hlogon fun _ h _ _ => h.same rfl rfl rfl
  exact List.foldlRecOn _ _ hreported fun _ h _ _ => h.same rfl rfl rfl

/-! ## What the application is given -/

/-- The messages that the application was given. -/
def given (t : SessionTask σ) : List Message :=
  t.callbacks.filterMap Callback.message?

omit [MessageStore σ] in
theorem given_tellLogout (t : SessionTask σ) : t.tellLogout.given = t.given := by
  obtain ⟨left, htold, hleft⟩ := callbacks_tellLogout t
  have hnone : left.filterMap Callback.message? = [] := by
    rcases hleft with rfl | ⟨_, rfl⟩ <;> rfl
  rw [given, htold, List.filterMap_append, hnone, List.append_nil, given]

omit [MessageStore σ] in
theorem given_toldFailure (t : SessionTask σ) (failure : Failure) :
    (t.toldFailure failure).given = t.given := by
  rw [toldFailure, given_tellLogout]
  show (t.callbacks ++ [Callback.failure failure]).filterMap Callback.message? = t.given
  rw [List.filterMap_append]
  exact List.append_nil _

omit [MessageStore σ] in
theorem given_tellLogon (t : SessionTask σ) : t.tellLogon.given = t.given := by
  unfold tellLogon
  split
  · show (t.callbacks ++ [Callback.logon]).filterMap Callback.message? = t.given
    rw [List.filterMap_append]
    exact List.append_nil _
  · rfl

omit [MessageStore σ] in
/-- Of a reaction the application is given what it hands over. -/
theorem given_toldOf (t : SessionTask σ) (reaction : Reaction) :
    (t.toldOf reaction).given = t.given ++ reaction.delivered := by
  rw [given, (tells_toldOf t reaction).callbacks, List.filterMap_append, messages_of_reaction]
  exact congrArg (· ++ reaction.delivered) (given_tellLogon t.publish)

/-- A task carries out some operations, and the application was given what they hand over. -/
structure Conveys (fault : Option (Nat × String)) (session : Session σ)
    (ops : List Session.Operation) (t : SessionTask σ) : Prop extends
    Carries fault session ops t where
  given_eq : t.given = session.handedBy ops

/-- A task has done some operations. The application was given what they hand over, but for the last
one if its frames could not all be written; then the session was given up. -/
structure Concludes (fault : Option (Nat × String)) (session : Session σ)
    (ops : List Session.Operation) (t : SessionTask σ) : Prop extends
    Delivered fault session ops t where
  settled : ∃ settled rest, ops = settled ++ rest ∧ session.produced settled <+: t.written ∧
    t.given = session.handedBy settled ∧
    (rest = [] ∨ ∃ op now, rest = [op, .disconnect now] ∧
      ¬ session.produced (settled ++ [op]) <+: t.written)

theorem Conveys.concludes (h : Conveys fault session ops t) : Concludes fault session ops t where
  toDelivered := h.toCarries.delivered
  settled := by
    have hwritten : session.produced ops <+: t.written := h.written_eq ▸ List.prefix_rfl
    exact ⟨ops, [], (List.append_nil ops).symm, hwritten, h.given_eq, .inl rfl⟩

/-- A task that differs in what concerns neither its session nor its transport, and of which the
application was given the same. -/
theorem Conveys.same (h : Conveys fault session ops t) (hsession : u.session = t.session)
    (hwritten : u.written = t.written) (hfault : u.writeFault = t.writeFault)
    (hgiven : u.given = t.given) : Conveys fault session ops u where
  toCarries := h.toCarries.same hsession hwritten hfault
  given_eq := hgiven.trans h.given_eq

/-- A call that hands over nothing. -/
theorem Conveys.call (h : Conveys fault session ops t) {op : Session.Operation}
    {o : Session.Outcome} {s : Session σ} (hstep : t.session.step op = (o, s))
    (hroom : t.CanWrite o.frames) (hnone : o.delivered = []) :
    Conveys fault session (ops ++ [op]) ({ t with session := s }.wrote o.frames) where
  toCarries := h.toCarries.call hstep hroom
  given_eq := by
    rw [h.session_eq] at hstep
    rw [Session.handedBy_concat hstep, hnone, List.append_nil]
    exact h.given_eq

/-- A call that neither puts anything out nor hands anything over. -/
theorem Conveys.call_silent (h : Conveys fault session ops t) {op : Session.Operation}
    {o : Session.Outcome} {s : Session σ} (hstep : t.session.step op = (o, s))
    (hsilent : o.frames = []) (hnone : o.delivered = []) :
    Conveys fault session (ops ++ [op]) { t with session := s } := by
  have hcall := h.call hstep (hsilent ▸ canWrite_nil t) hnone
  rwa [hsilent, wrote_nil] at hcall

/-- A reaction whose frames are written is told. -/
theorem Conveys.reacted (h : Conveys fault session ops t) {op : Session.Operation}
    {reaction : Reaction} {s : Session σ} (hstep : t.session.step op = (.reacted (.ok reaction), s))
    (hroom : t.CanWrite reaction.outbound) :
    Conveys fault session (ops ++ [op])
      (({ t with session := s }.wrote reaction.outbound).toldOf reaction) where
  toCarries := (h.toCarries.call hstep hroom).toldOf reaction
  given_eq := by
    rw [h.session_eq] at hstep
    rw [given_toldOf, Session.handedBy_concat hstep]
    exact congrArg (· ++ reaction.delivered) h.given_eq

/-- A change makes at most one call, and does what it asks for. -/
theorem Conveys.change (h : Conveys fault session ops t) (hchange : Change A t u) :
    ∃ more, (∀ op ∈ more, A op) ∧ Conveys fault session (ops ++ more) u := by
  have hnone (hu : Conveys fault session ops u) :
      ∃ more, (∀ op ∈ more, A op) ∧ Conveys fault session (ops ++ more) u :=
    ⟨[], List.forall_mem_nil _, (List.append_nil ops).symm ▸ hu⟩
  cases hchange with
  | buffer buffer => exact hnone (h.same rfl rfl rfl rfl)
  | @refused op e s hstep hop =>
    exact ⟨[op], List.forall_mem_singleton.mpr hop, h.call_silent hstep rfl rfl⟩
  | @sent op frame s hstep hop hroom =>
    exact ⟨[op], List.forall_mem_singleton.mpr hop, h.call hstep hroom rfl⟩
  | @reacted op reaction s hstep hop hroom =>
    exact ⟨[op], List.forall_mem_singleton.mpr hop, h.reacted hstep hroom⟩
  | disconnect now hop =>
    exact ⟨[.disconnect now], List.forall_mem_singleton.mpr hop, h.call_silent rfl rfl rfl⟩
  | publish => exact hnone (h.same rfl rfl rfl rfl)

/-- A chain of changes makes a list of calls. The induction is on the chain. -/
theorem Conveys.changes (h : Conveys fault session ops t) (hchanges : Changes A t u) :
    ∃ more, (∀ op ∈ more, A op) ∧ Conveys fault session (ops ++ more) u := by
  induction hchanges with
  | refl => exact ⟨[], List.forall_mem_nil _, (List.append_nil ops).symm ▸ h⟩
  | tail _ hchange ih =>
    obtain ⟨more, hmore, hconveys⟩ := ih
    obtain ⟨last, hlast, hconveys⟩ := hconveys.change hchange
    rw [List.append_assoc] at hconveys
    exact ⟨more ++ last, List.forall_mem_append.mpr ⟨hmore, hlast⟩, hconveys⟩

/-! ## The end -/

omit [MessageStore σ] in
theorem toldFailure_same (t : SessionTask σ) (failure : Failure) :
    (t.toldFailure failure).session = t.session ∧
      (t.toldFailure failure).written = t.written ∧
      (t.toldFailure failure).writeFault = t.writeFault :=
  tellLogout_same (t.publish.tell (.failure failure))

/-- The transport fails in the middle of what an operation puts out: what it took up to there is
written, and nothing else. -/
theorem Carries.cut (h : Carries fault session ops t) {op : Session.Operation}
    {o : Session.Outcome} {s : Session σ} (hstep : t.session.step op = (o, s))
    {frames rest : List Bytes} (hframes : o.frames = frames ++ rest) {reason : String}
    (hfault : t.writeFault = some (frames.length, reason)) (now : Moment) (result : TaskError) :
    Delivered fault session (ops ++ [op, .disconnect now])
      ((({ t with session := s }.wrote frames).cutOff (.io reason) now).finish
        (.error result)) where
  session_eq := by
    rw [Session.run_append, ← h.session_eq]
    obtain ⟨hsession, _⟩ := toldFailure_same
      { ({ t with session := s }.wrote frames) with session := s.disconnect now }
      ⟨.io reason, .disconnect⟩
    refine Eq.trans hsession ?_
    show s.disconnect now = (t.session.step op).2.disconnect now
    rw [hstep]
  written_eq := by
    obtain ⟨_, hwritten, _⟩ := toldFailure_same
      { ({ t with session := s }.wrote frames) with session := s.disconnect now }
      ⟨.io reason, .disconnect⟩
    have hproduced : session.produced (ops ++ [op, .disconnect now]) =
        t.written ++ (frames ++ rest) := by
      rw [Session.produced_append, ← h.session_eq, ← h.written_eq, Session.produced_cons, hstep,
        hframes]
      exact congrArg (t.written ++ ·) (List.append_nil _)
    refine Eq.trans hwritten ?_
    show t.written ++ frames = taken fault _
    rw [hproduced, ← List.append_assoc]
    -- The writes failed because exactly these frames were as many as the transport takes.
    rw [h.fault_eq] at hfault
    obtain ⟨⟨count, text⟩, rfl, heq⟩ := Option.map_eq_some_iff.mp hfault
    obtain ⟨hcount, _⟩ := Prod.mk.inj heq
    have hroom : t.written.length ≤ count := h.room _ rfl
    have hcount : count = (t.written ++ frames).length := by
      rw [List.length_append]
      omega
    show _ = List.take count _
    rw [hcount, List.take_left]
  cut := fun _ => rfl

/-- What the operation hands over whose frames are not all written, the application is not given. -/
theorem Conveys.cut (h : Conveys fault session ops t) {op : Session.Operation}
    {o : Session.Outcome} {s : Session σ} (hstep : t.session.step op = (o, s))
    {frames rest : List Bytes} (hframes : o.frames = frames ++ rest) (hrest : rest ≠ [])
    {reason : String} (hfault : t.writeFault = some (frames.length, reason)) (now : Moment)
    (result : TaskError) :
    Concludes fault session (ops ++ [op, .disconnect now])
      ((({ t with session := s }.wrote frames).cutOff (.io reason) now).finish
        (.error result)) where
  toDelivered := h.toCarries.cut hstep hframes hfault now result
  settled := by
    obtain ⟨_, hwritten, _⟩ := toldFailure_same
      { ({ t with session := s }.wrote frames) with session := s.disconnect now }
      ⟨.io reason, .disconnect⟩
    have hgiven := given_toldFailure
      { ({ t with session := s }.wrote frames) with session := s.disconnect now }
      ⟨.io reason, .disconnect⟩
    have hafter : ((({ t with session := s }.wrote frames).cutOff (.io reason) now).finish
        (.error result)).written = session.produced ops ++ frames :=
      h.written_eq ▸ hwritten
    refine ⟨ops, [op, .disconnect now], rfl, ?_, hgiven.trans h.given_eq,
      .inr ⟨op, now, rfl, fun hprefix => ?_⟩⟩
    · rw [hafter]
      exact List.prefix_append _ _
    · rw [h.session_eq] at hstep
      rw [hafter, Session.produced_concat hstep, hframes, List.prefix_append_right_inj] at hprefix
      have hlength := hprefix.length_le
      rw [List.length_append] at hlength
      have hpos := List.length_pos_iff.mpr hrest
      omega

/-- The application is told of a failure, and is given nothing by that. -/
theorem Conveys.toldFailure (h : Conveys fault session ops t) (failure : Failure)
    (result : Except TaskError Unit) :
    Conveys fault session ops ((t.toldFailure failure).finish result) := by
  obtain ⟨hsession, hwritten, hfault⟩ := toldFailure_same t failure
  exact h.same hsession hwritten hfault (given_toldFailure t failure)

/-- A task that breaks off has come to its end. -/
theorem Conveys.breaks (h : Conveys fault session ops t) (hbreaks : Breaks A t e u) :
    ∃ more, (∀ op ∈ more, A op) ∧ Concludes fault session (ops ++ more) (u.finish (.error e)) := by
  obtain ⟨v, hchanges, hbreak⟩ := hbreaks
  obtain ⟨more, hmore, hconveys⟩ := h.changes hchanges
  have hafter (last : List Session.Operation) (hlast : ∀ op ∈ last, A op)
      (hconcludes : Concludes fault session ((ops ++ more) ++ last) (u.finish (.error e))) :
      ∃ more, (∀ op ∈ more, A op) ∧
        Concludes fault session (ops ++ more) (u.finish (.error e)) := by
    rw [List.append_assoc] at hconcludes
    exact ⟨more ++ last, List.forall_mem_append.mpr ⟨hmore, hlast⟩, hconcludes⟩
  cases hbreak with
  | @session op failure s hstep hop =>
    refine hafter [op] (List.forall_mem_singleton.mpr hop) (Conveys.concludes ?_)
    exact (hconveys.call_silent hstep rfl rfl).toldFailure failure _
  | @write op outcome s frames rest reason now hstep hframes hrest hfault hop hend =>
    refine hafter [op, .disconnect now] ?_ (hconveys.cut hstep hframes hrest hfault now _)
    exact List.forall_mem_cons.mpr ⟨hop, List.forall_mem_singleton.mpr hend⟩
  | read error now hend =>
    refine hafter [.disconnect now] (List.forall_mem_singleton.mpr hend) (Conveys.concludes ?_)
    exact (hconveys.call_silent rfl rfl rfl).toldFailure ⟨error, .disconnect⟩ _

/-- Work that was done leaves a task that goes on, or one that has come to its end. -/
theorem Conveys.performed {R : Error → Session σ → Prop} (h : Conveys fault session ops t)
    (hperformed : Performed A t R u)
    (hrefused : ∀ e s, R e s → ∃ op, A op ∧ t.session.step op = (.sent (.error e), s)) :
    ∃ more, (∀ op ∈ more, A op) ∧ (Conveys fault session (ops ++ more) u ∨
      u.isRunning = false ∧ Concludes fault session (ops ++ more) u) := by
  cases hperformed with
  | goesOn hchanges =>
    obtain ⟨more, hmore, hconveys⟩ := h.changes hchanges
    exact ⟨more, hmore, .inl hconveys⟩
  | @ends v hchanges =>
    obtain ⟨more, hmore, hconveys⟩ := h.changes hchanges
    obtain ⟨hsession, hwritten, hfault⟩ := tellLogout_same v
    exact ⟨more, hmore, .inl (hconveys.same hsession hwritten hfault (given_tellLogout v))⟩
  | breaks hbreaks =>
    obtain ⟨more, hmore, hconcludes⟩ := h.breaks hbreaks
    exact ⟨more, hmore, .inr ⟨rfl, hconcludes⟩⟩
  | refused hrefuses =>
    obtain ⟨op, hop, hstep⟩ := hrefused _ _ hrefuses
    refine ⟨[op], List.forall_mem_singleton.mpr hop, .inl ?_⟩
    exact (h.call_silent hstep rfl rfl).same rfl rfl rfl rfl

/-! ## Runs -/

/-- What an event asks of the session and is refused is one call. -/
theorem Refuses.step {event : Event} {now : Moment} {e : Error} {s : Session σ}
    (h : t.Refuses now event e s) :
    ∃ op, event.Asks now op ∧ t.session.step op = (.sent (.error e), s) := by
  cases event with
  | shutdown text =>
    obtain ⟨_, hrun⟩ := h
    refine ⟨.logout text now, rfl, ?_⟩
    rw [Session.step, hrun]
  | _ => exact h.elim

/-- The calls of a run, event by event. -/
def AskedBy (events : List (Event × Moment)) (calls : List (List Session.Operation)) : Prop :=
  List.Forall₂ (fun entry ops => ∀ op ∈ ops, entry.1.Asks entry.2 op) events calls

/-- After a task has ended nothing is asked of its session. -/
theorem askedBy_replicate (events : List (Event × Moment)) :
    AskedBy events (List.replicate events.length []) := by
  induction events with
  | nil => exact .nil
  | cons entry events ih => exact .cons (List.forall_mem_nil _) ih

/-- The task after some events goes on, or has come to its end. The induction is on the events. -/
theorem Conveys.run (h : Conveys fault session ops t) (events : List (Event × Moment)) :
    ∃ calls, AskedBy events calls ∧
      Concludes fault session (ops ++ calls.flatten) (t.run events) := by
  have hstops (ops : List Session.Operation) {t : SessionTask σ} (events : List (Event × Moment))
      (hended : t.isRunning = false) (hconcludes : Concludes fault session ops t) :
      ∃ calls, AskedBy events calls ∧
        Concludes fault session (ops ++ calls.flatten) (t.run events) := by
    refine ⟨_, askedBy_replicate events, ?_⟩
    rw [run_of_ended hended, List.flatten_replicate_nil, List.append_nil]
    exact hconcludes
  induction events generalizing t ops with
  | nil => exact ⟨[], .nil, (List.append_nil ops).symm ▸ h.concludes⟩
  | cons entry events ih =>
    obtain ⟨event, now⟩ := entry
    by_cases hrunning : t.isRunning = true
    · obtain ⟨more, hmore, hstep⟩ :=
        h.performed (stepped hrunning event now) fun _ _ hrefuses => hrefuses.step
      have hrest : ∃ calls, AskedBy events calls ∧ Concludes fault session
          ((ops ++ more) ++ calls.flatten) ((t.step event now).2.run events) := by
        rcases hstep with hconveys | ⟨hended, hconcludes⟩
        · exact ih hconveys
        · exact hstops _ events hended hconcludes
      obtain ⟨calls, hcalls, hconcludes⟩ := hrest
      refine ⟨more :: calls, .cons hmore hcalls, ?_⟩
      rw [List.flatten_cons, ← List.append_assoc]
      exact hconcludes
    · exact hstops _ _ (Bool.eq_false_iff.mpr hrunning) h.concludes

/-- A whole run, from the opening on: the task has written what its session put out, as far as its
transport took it, and given the application what its session handed over before. -/
theorem begun_concludes (session : Session σ) (fault : Option (Nat × String)) (start : Moment)
    (events : List (Event × Moment)) :
    ∃ opening calls, (∀ op ∈ opening, Begins start op) ∧ AskedBy events calls ∧
      Concludes fault session (opening ++ calls.flatten)
        (((ofSession session fault).begin start).run events) := by
  have hnew : Conveys fault session [] (ofSession session fault) :=
    { session_eq := rfl
      written_eq := rfl
      fault_eq := by
        show fault = fault.map id
        rw [Option.map_id, id]
      room := fun _ _ => Nat.zero_le _
      given_eq := rfl }
  have hlogon (e : Error) (s : Session σ)
      (hrun : (Session.logon start).run session = (.error e, s)) :
      ∃ op, Begins start op ∧ session.step op = (.sent (.error e), s) := by
    refine ⟨.logon start, .inl rfl, ?_⟩
    rw [Session.step, hrun]
  obtain ⟨opening, hopening, hbegun⟩ := hnew.performed (begun _ start) hlogon
  rcases hbegun with hconveys | ⟨hended, hconcludes⟩
  · obtain ⟨calls, hcalls, hconcludes⟩ := hconveys.run events
    exact ⟨opening, calls, hopening, hcalls, hconcludes⟩
  · refine ⟨opening, _, hopening, askedBy_replicate events, ?_⟩
    rw [run_of_ended hended, List.flatten_replicate_nil, List.append_nil]
    exact hconcludes

/-- What operations put out, as far as it was taken and is new, is kept under numbers that follow
each other. -/
theorem exists_kept_of_taken {s : Session MemoryStore} (hs : s.Steady)
    (hbelow : s.store.outbound.last < s.sequences.nextOutgoing) (ops : List Session.Operation)
    (htop : (s.run ops).2.store.outbound.nextSeq < .top) (fault : Option (Nat × String)) :
    ∃ entries : List (SeqNum × Bytes),
      (taken fault (s.produced ops)).filter Session.isFresh = entries.map Prod.snd ∧
      entries.map (·.1.toNat) = List.range' s.sequences.nextOutgoing.toNat entries.length ∧
      ∀ e ∈ entries, Session.Numbered e.1 e.2 ∧ e ∈ (s.run ops).2.store.outbound.entries := by
  obtain ⟨written, hwrote, hprefix, _⟩ := Session.wrote_run hs hbelow ops htop
  have hfresh : (taken fault (s.produced ops)).filter Session.isFresh <+: written.map Prod.snd :=
    ((isPrefix_taken fault _).filter _).trans hprefix
  obtain ⟨rest, hrest⟩ := hfresh
  obtain ⟨entries, more, rfl, hentries, _⟩ := List.append_eq_map_iff.mp hrest
  refine ⟨entries, hentries.symm, ?_, fun e he => ⟨?_, ?_⟩⟩
  · have hnumbers := hwrote.numbers
    have hlength := congrArg List.length hnumbers
    rw [List.length_map, List.length_append, List.length_range'] at hlength
    rw [← hlength, ← List.range'_append_1, List.map_append] at hnumbers
    exact (List.append_inj hnumbers (by rw [List.length_map, List.length_range'])).1
  · exact hwrote.numbered e (List.mem_append_left more he)
  · rw [hwrote.entries]
    exact List.mem_append_right _ (List.mem_append_left more he)

/-- Over every run of a task for a new session whose store keeps only numbers below its counter, and
as long as that counter has not come to the end. What was written is what the calls on the session
put out, in order and with nothing left out, up to the first write that failed; if one did, the task
is over. The new frames among it carry consecutive numbers from the first one of the session on. And
each new frame that a call put out was in the outbound journal, under the number that it carries,
when the call returned, that is before it was written. -/
theorem run_writes_produced {config : SessionConfig} {store : MemoryStore} {opened : Nat}
    {session : Session MemoryStore} (hopen : Session.open? config store opened = .ok session)
    (hbelow : ∀ e ∈ store.outbound.entries, e.1 < store.outbound.nextSeq)
    (fault : Option (Nat × String)) (start : Moment) (events : List (Event × Moment))
    (htop : (((ofSession session fault).begin start).run events).session.store.outbound.nextSeq <
      .top) :
    let task := ((ofSession session fault).begin start).run events
    ∃ opening calls, (∀ op ∈ opening, Begins start op) ∧ AskedBy events calls ∧
      let ops := opening ++ calls.flatten
      task.session = (session.run ops).2 ∧
      task.written = taken fault (session.produced ops) ∧
      (task.written ≠ session.produced ops → task.isRunning = false) ∧
      (∃ entries : List (SeqNum × Bytes),
        task.written.filter Session.isFresh = entries.map Prod.snd ∧
        entries.map (·.1.toNat) =
          List.range' session.sequences.nextOutgoing.toNat entries.length ∧
        ∀ e ∈ entries, Session.Numbered e.1 e.2 ∧ e ∈ task.session.store.outbound.entries) ∧
      ∀ before op after, ops = before ++ op :: after →
        let called := (session.run before).2.step op
        ∀ frame ∈ called.1.frames, Session.isFresh frame = true →
          ∃ n, Session.Numbered n frame ∧ (n, frame) ∈ called.2.store.outbound.entries := by
  intro task
  obtain ⟨opening, calls, hopening, hcalls, hdelivered⟩ :=
    begun_concludes session fault start events
  have hsteady : session.Steady := Session.steady_of_open hopen
  have hlast : session.store.outbound.last < session.sequences.nextOutgoing := by
    obtain ⟨_, rfl⟩ := Session.open?_eq_ok_iff.mp hopen
    refine (Journal.last_lt_iff (SeqNum.le_max_right _ _)).mpr fun e he => ?_
    exact UInt64.lt_of_lt_of_le (hbelow e he) (SeqNum.le_max_left _ _)
  have htop : (session.run (opening ++ calls.flatten)).2.store.outbound.nextSeq < .top :=
    hdelivered.session_eq ▸ htop
  refine ⟨opening, calls, hopening, hcalls, hdelivered.session_eq, hdelivered.written_eq,
    hdelivered.cut, ?_, ?_⟩
  · rw [hdelivered.written_eq, hdelivered.session_eq]
    exact exists_kept_of_taken hsteady hlast _ htop fault
  · intro before op after hops called frame hframe hnew
    rw [hops, Session.run_append] at htop
    have hbefore : (session.run before).2.Steady := hsteady.run before
    have hcalled : called.2.Steady := hbefore.step op rfl
    have htop : called.2.store.outbound.nextSeq < .top :=
      UInt64.lt_of_le_of_lt (Session.nextSeq_le_run hcalled after) htop
    obtain ⟨_, _, _, hbelow⟩ := Session.wrote_run hsteady hlast before
      (UInt64.lt_of_le_of_lt (hbefore.stepped op rfl).nextSeq_le htop)
    have hstepped : Session.Stepped .any (session.run before).2 called.1 called.2 :=
      hbefore.stepped op rfl
    exact hstepped.kept hbelow htop hframe hnew

/-- An acceptor logs on, answers a test request, sends an order, and is asked to send everything
again. The transport breaks in the middle of that: the gap fill is written, the order is not. -/
theorem run_writes_produced_broken :
    let session : Session MemoryStore := .fresh Sample.acceptor .empty 0
    let received (type : MsgType) (n : SeqNum) (body : List Field) : Event × Moment :=
      (.received (Sample.frame Sample.initiator type n body), Sample.moment)
    let events := [received .logon 1 [.ofNat .encryptMethod 0, .ofNat .heartBtInt 30],
      received .testRequest 2 [.ofText .testReqId "T"],
      (.send .newOrderSingle [], Sample.moment),
      received .resendRequest 3 [.ofNat .beginSeqNo 1, .ofNat .endSeqNo 0],
      (.send .newOrderSingle [], Sample.moment)]
    let task := ((ofSession session (some (4, "broken pipe"))).begin Sample.moment).run events
    Session.open? Sample.acceptor MemoryStore.empty 0 = .ok session ∧
      task.session.store.outbound.nextSeq < .top ∧ task.isRunning = false ∧
      task.written.map Session.isFresh = [true, true, true, false] ∧
      (∃ ops, task.session = (session.run ops).2 ∧
        task.written = (session.produced ops).take 4) ∧
      ∃ entries : List (SeqNum × Bytes),
        task.written.filter Session.isFresh = entries.map Prod.snd ∧
        entries.map (·.1.toNat) = [1, 2, 3] := by
  intro session received events task
  have htop : task.session.store.outbound.nextSeq < .top := by decide +kernel
  have hruns : task.isRunning = false ∧
      task.written.map Session.isFresh = [true, true, true, false] := by decide +kernel
  obtain ⟨opening, calls, _, _, hsession, hwritten, _, ⟨entries, hentries, hnumbers, _⟩, _⟩ :=
    run_writes_produced Sample.open_acceptor nofun (some (4, "broken pipe")) Sample.moment events
      htop
  have hlength : entries.length = 3 := by
    have hfresh : (task.written.filter Session.isFresh).length = 3 := by decide +kernel
    rw [← hfresh, hentries, List.length_map]
  refine ⟨Sample.open_acceptor, htop, hruns.1, hruns.2, ⟨_, hsession, hwritten⟩, entries, hentries,
    ?_⟩
  rw [hnumbers, hlength]
  decide

end SessionTask

end FixProtocol
