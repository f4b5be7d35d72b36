import FixProtocol.Proofs.Session.Idle
import FixProtocol.Proofs.Session.Turns

/-!
# What is made of failures

A failure of a call ends the session, and no error of a call can be recovered from. What can be
recovered from is reported beside the answer instead, and there are two such cases: a message came
twice, or too early. In the second case what is missing was asked for in the same reaction. A
reaction reports last of all, so what is reported still holds of the session that is left behind.

- `Excused`: a failure that a session goes on after.
- `Fault.isRecoverable`: no error that a call fails with can be recovered from.
- `Explains`: all that a reaction reports is excused; one lemma for each call that may report.
- `run_classifies`: every failure of a run ends the session or is excused.
-/

namespace FixProtocol.Session

open Call

/-- A frame of a session with the given settings that asks for the messages from `first` to
`last`. -/
def AsksFor (c : SessionConfig) (first last : SeqNum) (frame : Bytes) : Prop :=
  ∃ m, Message.decode c.beginString frame = .ok m ∧ m.msgType = .resendRequest ∧
    m.nat64? .beginSeqNo = some first ∧ m.nat64? .endSeqNo = some last

/-- A failure that a session with the given settings goes on after: a message has come twice, or too
early, and then one of the frames that are put out asks for what is missing. -/
inductive Excused (c : SessionConfig) (expected : SeqNum) (frames : List Bytes) : Failure → Prop
  | twice {received : SeqNum} (h : received < expected) :
      Excused c expected frames ⟨.sequence (.duplicate expected received), .ignore⟩
  | early {received : SeqNum} {frame : Bytes} (h : expected < received) (hmem : frame ∈ frames)
      (hasks : AsksFor c expected (received - 1) frame) :
      Excused c expected frames
        ⟨.sequence (.gap expected received), .resendRequest expected (received - 1)⟩

variable {σ : Type} {s t : Session σ} {r : Reaction} {expected received : SeqNum}

theorem Excused.subset {c : SessionConfig} {frames more : List Bytes} {f : Failure}
    (h : Excused c expected frames f) (hsub : frames ⊆ more) : Excused c expected more f := by
  cases h with
  | twice h => exact .twice h
  | early h hmem hasks => exact .early h (hsub hmem) hasks

/-- All that a reaction reports is excused by the session that it leaves behind. -/
def Explains (r : Reaction) (t : Session σ) : Prop :=
  ∀ f ∈ r.reported, Excused t.config t.sequences.expectedIncoming r.outbound f

theorem explains_of_quiet (h : r.reported = []) (t : Session σ) : Explains r t := by
  intro f hf
  rw [h] at hf
  cases hf

/-- What follows a reaction that reports nothing excuses the whole. -/
theorem Explains.after {r' : Reaction} (h : Explains r' t) (hquiet : r.reported = []) :
    Explains (r ++ r') t := by
  intro f hf
  rw [Reaction.reported_append, hquiet, List.nil_append] at hf
  exact (h f hf).subset (List.subset_append_right ..)

/-! ## Errors -/

variable [MessageStore σ] {I : Inputs}

theorem Refusal.isRecoverable {e : Error} (h : Refusal s e t) : e.isRecoverable = false := by
  cases h with
  | idle _ h => exact h
  | unkept => rfl

theorem Fault.isRecoverable {e : Error} (h : Fault I s e t) : e.isRecoverable = false := by
  cases h with
  | refusal h => exact h.isRecoverable
  | _ => rfl

/-! ## Calls that report nothing -/

/-- A reaction reports nothing. -/
def Quiet : Reaction → Session σ → Prop :=
  fun r _ => r.reported = []

omit [MessageStore σ] in
theorem Quiet.append {r' : Reaction} (h : Quiet r s) (h' : Quiet r' t) : Quiet (r ++ r') t := by
  show (r ++ r').reported = []
  rw [Reaction.reported_append, show r.reported = [] from h, show r'.reported = [] from h',
    List.append_nil]

theorem Serves.quiet {now : Moment} (h : Serves now s r t) : Quiet r t := by
  cases h with
  | nothing => rfl
  | again => rfl

theorem ends_dispatch_quiet (m : Message) (replaying : Bool) (now : Moment) :
    Ends (dispatch m replaying now) s Quiet Anyhow := by
  refine ends_dispatch ?heartbeat ?testRequest ?resendRequest ?sequenceReset ?logout ?logon
    ?application
  case heartbeat => exact fun _ => rfl
  case testRequest => exact fun _ => ends_emit_of_emits fun _ _ _ => rfl
  case resendRequest => exact fun _ => (ends_serveResend_serves m now).anyhow fun _ _ h => h.quiet
  case sequenceReset => exact fun _ => (ends_applySequenceReset_advances m).imp fun _ _ _ => rfl
  case logout =>
    exact fun _ => ends_onLogout (fun _ => rfl) fun _ => ends_emit_of_emits fun _ _ _ => rfl
  case logon => exact fun _ => ⟨fun _ => rfl, fun _ => trivial⟩
  case application => exact fun _ => rfl

theorem ends_accept_quiet (n : SeqNum) (p : Parked) (replaying : Bool) (now : Moment) :
    Ends (accept n p replaying now) s Quiet Anyhow :=
  ends_accept (fun _ _ => ends_dispatch_quiet ..) (fun _ _ _ => trivial)

theorem ends_replay_quiet (now : Moment) (count : Nat) :
    Ends (replay now count) s Quiet Anyhow :=
  ends_replay_keeps (fun _ h => h) (fun _ h _ => ends_observe_iff.mpr
    ((ends_accept_quiet ..).imp fun _ _ => Quiet.append (s := s) h)) rfl count

theorem ends_establish_quiet (seconds : Nat) (now : Moment) :
    Ends (establish seconds now) s
      (fun r t => r.reported = [] ∧
        t.sequences.expectedIncoming = s.sequences.expectedIncoming) Anyhow :=
  ends_establish (fun _ => ⟨rfl, rfl⟩) fun _ =>
    ends_emit_of_emits fun _ _ h => ⟨rfl, h.utters.expected⟩

theorem ends_keepAlive_quiet (now : Moment) : Ends (keepAlive now) s Quiet Anyhow :=
  ends_keepAlive (fun _ => rfl) (fun _ => ends_emit_of_emits fun _ _ _ => rfl)
    (fun _ _ => ends_emit_of_emits fun _ _ _ => rfl) (fun _ _ => trivial)

theorem ends_retryResend_quiet (now : Moment) : Ends (retryResend now) s Quiet Anyhow :=
  ends_retryResend (fun _ => rfl) (fun _ _ _ => ends_emit_of_emits fun _ _ _ => rfl)
    (fun _ _ => trivial)

theorem ends_tick_quiet (now : Moment) : Ends (tick now) s Quiet Anyhow :=
  ends_tick (fun _ => rfl) (fun _ _ _ => trivial) (fun _ _ _ => rfl) fun _ _ =>
    (ends_keepAlive_quiet now).imp fun _ t halive =>
      (ends_retryResend_quiet now).imp fun _ _ => Quiet.append (s := t) halive

/-! ## Calls that may report -/

/-- A resend request is short enough to be read, whatever it asks for. -/
theorem Emits.asksFor {first last : SeqNum} {now : Moment} {frame : Bytes}
    (h : Emits s .resendRequest [.ofSeqNum .beginSeqNo first, .ofSeqNum .endSeqNo last] now frame
      t) : AsksFor s.config first last frame := by
  have hfirst := Field.length_bytes_le (.ofSeqNum .beginSeqNo first)
  have hlast := Field.length_bytes_le (.ofSeqNum .endSeqNo last)
  have hdigits := Field.length_ofSeqNum_le .beginSeqNo first
  have hdigits' := Field.length_ofSeqNum_le .endSeqNo last
  have hbody : (Wire.fieldBytes
      [.ofSeqNum .beginSeqNo first, .ofSeqNum .endSeqNo last]).length ≤ 100 := by
    rw [Wire.length_fieldBytes_cons, Wire.length_fieldBytes_cons]
    show _ + (_ + 0) ≤ 100
    omega
  have hlength : (s.wireBody .resendRequest s.sequences.nextOutgoing now.utc
      [.ofSeqNum .beginSeqNo first, .ofSeqNum .endSeqNo last]).length ≤ _ :=
    s.length_wireBody_le _ _ _ (by decide)
  refine ⟨_, (decode_header_iff h.encode).mpr ⟨by omega, rfl⟩, ?_, ?_, ?_⟩
  · rw [msgType_header]
    rfl
  · exact nat64?_header (by decide) rfl (Field.nat64_ofSeqNum .beginSeqNo _)
  · exact nat64?_header (by decide) rfl (Field.nat64_ofSeqNum .endSeqNo _)

/-- The gap that is reported is the one that is asked for. -/
theorem ends_requestResend_explains (hexpected : s.sequences.expectedIncoming = expected)
    (hlt : expected < received) (now : Moment) :
    Ends (requestResend expected (received - 1) now) s Explains Anyhow := by
  have hreceived : received - 1 + 1 = received := SeqNum.sub_one_add_one received
  refine ends_requestResend.mpr (ends_emit_of_emits fun frame t hemits f hf => ?_)
  rw [List.mem_singleton.mp hf, hreceived]
  show Excused t.config t.sequences.expectedIncoming [frame] _
  rw [hemits.utters.config, hemits.utters.expected, hexpected]
  exact .early hlt (List.mem_singleton_self frame) hemits.asksFor

theorem ends_closeGap_explains (now : Moment) : Ends (closeGap now) s Explains Anyhow :=
  ends_closeGap (fun _ => explains_of_quiet rfl _) fun _ _ _ hlt =>
    ends_requestResend_explains (s := s.advanced) rfl hlt now

theorem ends_drain_explains (now : Moment) : Ends (drain now) s Explains Anyhow :=
  ends_drain.mpr ((ends_replay_quiet now _).imp fun _ t htaken =>
    ⟨fun _ => explains_of_quiet htaken t, fun _ =>
      (ends_closeGap_explains now).imp fun _ _ h => h.after htaken⟩)

theorem ends_onLogonPhase_explains {n : SeqNum} (hn : n.isValid = true) (p : Parked)
    (now : Moment) : Ends (onLogonPhase n p now) s Explains Anyhow := by
  refine ends_onLogonPhase hn (fun _ _ _ => trivial) (fun seconds _ _ _ => ?_)
    fun seconds _ _ hgt => ?_
  · refine (ends_establish_quiet seconds now).imp ?_
    rintro answered t ⟨hquiet, _⟩
    exact ends_append.mpr ⟨fun _ _ => explains_of_quiet hquiet _, fun _ _ _ => trivial⟩
  · refine (ends_establish_quiet seconds now).imp ?_
    rintro answered t ⟨hquiet, hexpected⟩
    refine ends_park.mpr ⟨fun recovery _ => ?_, fun _ _ => trivial⟩
    exact (ends_requestResend_explains (s := { t with recovery }) hexpected hgt now).imp
      fun _ _ h => h.after hquiet

theorem ends_onNumbered_explains {n : SeqNum} (hn : n.isValid = true) (p : Parked)
    (now : Moment) : Ends (onNumbered n p now) s Explains Anyhow := by
  refine ends_onNumbered hn (fun hlt f hf => ?_) (fun _ => ?_)
    (fun hgt recovery _ => ⟨fun _ => explains_of_quiet rfl _, fun _ => ?_⟩)
    (fun _ _ _ => trivial)
  · rw [List.mem_singleton.mp hf]
    exact .twice hlt
  · exact (ends_accept_quiet ..).imp fun taken t htaken =>
      (ends_drain_explains now).imp fun _ _ h => h.after htaken
  · exact ends_requestResend_explains (s := { s with recovery }) rfl hgt now

theorem ends_process_explains (frame : Bytes) (now : Moment) :
    Ends (process frame now) s Explains Anyhow := by
  refine ends_process (I := .any) trivial ?refused ?early ?reset ?numbered
  case refused => exact fun _ _ _ _ _ => trivial
  case early => exact fun _ _ n m hp => ends_onLogonPhase_explains hp.valid ⟨m, frame⟩ now
  case reset =>
    exact fun _ _ n m _ _ => (ends_applySequenceReset_advances m).imp fun _ _ _ =>
      ends_drain_explains now
  case numbered => exact fun _ _ n m hp _ => ends_onNumbered_explains hp.valid ⟨m, frame⟩ now

/-! ## Runs -/

/-- An operation fails with an error that cannot be recovered from, and ends the session. -/
theorem Stepped.failure {o : Outcome} (h : Stepped I s o t) {f : Failure} (hf : f ∈ o.failure?) :
    f.action = .disconnect ∧ f.error.isRecoverable = false ∧ t.terminated = true := by
  cases h with
  | failed h =>
    obtain ⟨_, _, _, hfault⟩ := h
    rw [← Option.mem_some_iff.mp hf]
    exact ⟨rfl, hfault.isRecoverable, rfl⟩
  | _ => cases hf

/-- What an operation reports is explained by the session that it leaves behind. -/
theorem step_explains (s : Session σ) (op : Operation) :
    ∀ f ∈ (s.step op).1.reported, Excused (s.step op).2.config
      (s.step op).2.sequences.expectedIncoming (s.step op).1.frames f := by
  have hcall {c : Call σ Reaction} (h : Ends c s Explains Anyhow) (now : Moment) :
      ∀ f ∈ (Outcome.reacted (c.settle s now).1).reported, Excused (c.settle s now).2.config
        (c.settle s now).2.sequences.expectedIncoming
        (Outcome.reacted (c.settle s now).1).frames f := by
    rcases settle_cases h now with ⟨r, t, hsettle, hexplains⟩ | ⟨e, t, hsettle⟩
    · rw [hsettle]
      exact hexplains
    · rw [hsettle]
      exact List.forall_mem_nil _
  cases op with
  | receive frame now => exact hcall (ends_process_explains frame now) now
  | timer now =>
    exact hcall ((ends_tick_quiet now).imp fun _ t h => explains_of_quiet h t) now
  | _ => exact List.forall_mem_nil _

/-- Over every run of a new session and any store: a failure that is the answer to a frame or to the
clock ends the session, and its error cannot be recovered from; a failure that is reported beside an
answer does not end the session, its error can be recovered from, and it says that a message came
twice or too early, in which case a frame of the same answer asks for exactly what is missing. -/
theorem run_classifies {config : SessionConfig} {store : σ} {opened : Nat} {s₀ : Session σ}
    (h : open? config store opened = .ok s₀) (ops : List Operation) (op : Operation) :
    let s := (s₀.run ops).2
    (∀ f ∈ (s.step op).1.failure?,
      f.action = .disconnect ∧ f.isFatal = true ∧ f.error.isRecoverable = false ∧
        (s.step op).2.terminated = true) ∧
    ∀ f ∈ (s.step op).1.reported,
      f.isFatal = false ∧ f.error.isRecoverable = true ∧
        Excused config (s.step op).2.sequences.expectedIncoming (s.step op).1.frames f := by
  intro s
  have hstep : Stepped .any s (s.step op).1 (s.step op).2 :=
    stepped_any (sound_run_of_open h ops) op
  constructor
  · intro f hf
    obtain ⟨haction, herror, hended⟩ := hstep.failure hf
    exact ⟨haction, decide_eq_true haction, herror, hended⟩
  · intro f hf
    have hexcused := step_explains s op f hf
    rw [hstep.config_eq, config_run_of_open h ops] at hexcused
    refine ⟨?_, ?_, hexcused⟩
    · cases hexcused <;> rfl
    · cases hexcused <;> rfl

open Sample

/-- After the logon a test request comes one number too early, and the missing one is asked for; or
the logon comes again and is ignored; or bytes come that are no message, and the session ends. -/
theorem run_classifies_early :
    let s := ((fresh acceptor MemoryStore.empty 0).run
      [.receive (Sample.logon initiator) moment]).2
    let early := s.step (.receive (Sample.frame initiator .testRequest 3 []) moment)
    let again := s.step (.receive (Sample.logon initiator) moment)
    let noise := s.step (.receive [] moment)
    (⟨.sequence (.gap 2 3), .resendRequest 2 2⟩ ∈ early.1.reported ∧
      Excused acceptor early.2.sequences.expectedIncoming early.1.frames
        ⟨.sequence (.gap 2 3), .resendRequest 2 2⟩) ∧
      (⟨.sequence (.duplicate 2 1), .ignore⟩ ∈ again.1.reported ∧
        Failure.isFatal ⟨.sequence (.duplicate 2 1), .ignore⟩ = false) ∧
      ∃ f ∈ noise.1.failure?, f.error.isRecoverable = false := by
  have hclassifies := run_classifies open_acceptor [.receive (Sample.logon initiator) moment]
  refine ⟨?_, ?_, ?_⟩
  · have hearly := (hclassifies (.receive (Sample.frame initiator .testRequest 3 []) moment)).2
      ⟨.sequence (.gap 2 3), .resendRequest 2 2⟩ (by decide +kernel)
    exact ⟨by decide +kernel, hearly.2.2⟩
  · have hagain := (hclassifies (.receive (Sample.logon initiator) moment)).2
      ⟨.sequence (.duplicate 2 1), .ignore⟩ (by decide +kernel)
    exact ⟨by decide +kernel, hagain.1⟩
  · have hnoise : (((fresh acceptor MemoryStore.empty 0).run
        [.receive (Sample.logon initiator) moment]).2.step
          (.receive [] moment)).1.failure?.isSome = true := by
      decide +kernel
    obtain ⟨f, hf⟩ := Option.isSome_iff_exists.mp hnoise
    exact ⟨f, hf, ((hclassifies (.receive [] moment)).1 f hf).2.2.1⟩

end FixProtocol.Session
