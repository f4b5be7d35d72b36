import FixProtocol.Proofs.Network.Sender
import Mathlib.Data.List.Forall2

/-!
# Delivery over any network

A sender puts frames on a network that may lose them, double them, and let them overtake each other.
The receiver still hands over the application messages of the sender's journal one by one, in order,
up to the number that it expects. What it hands over is the message as it was kept, or as it was
sent again: then it says that it may be a duplicate and carries two times.

- `Network`: a sender, a receiver, and all frames that were put out. Any of them may arrive at any
  moment, any number of times.
- `Follows`: what a receiver has handed over is what the journal of the sender holds.
- `Network.run_delivers`: the receiver follows in every run in which none of its calls has failed.
-/

namespace FixProtocol

/-- A message as it was kept, or as it was sent again. -/
def IsCopy (m original : Message) : Prop :=
  m = original ∨ ∃ time, m = Resend.duplicate original time

namespace Session

variable {a a' b b' : Session MemoryStore} {r : Reaction} {first n : SeqNum}

/-! ## What a journal holds for the application -/

/-- The application messages that a session keeps for its counterparty under the numbers from
`first` up to the one before `next`. -/
def sentApplications (s : Session MemoryStore) (first next : SeqNum) : List Message :=
  applications s.config.beginString
    (s.store.outbound.entries.filter fun e => first ≤ e.1 && e.1 < next)

theorem applications_append (version : String) (es es' : List (SeqNum × Bytes)) :
    applications version (es ++ es') = applications version es ++ applications version es' :=
  List.filterMap_append

/-- Numbers that hold nothing for the application make no difference. -/
theorem applications_congr {version : String} {es : List (SeqNum × Bytes)}
    (keep keep' : SeqNum → Bool)
    (h : ∀ e ∈ es, keep e.1 ≠ keep' e.1 → Resend.resendable? version e.2 = none) :
    applications version (es.filter fun e => keep e.1) =
      applications version (es.filter fun e => keep' e.1) := by
  induction es with
  | nil => rfl
  | cons e es ih =>
    obtain ⟨he, hes⟩ := List.forall_mem_cons.mp h
    have hone (e : SeqNum × Bytes) (es : List (SeqNum × Bytes)) :
        applications version (e :: es) =
          (Resend.resendable? version e.2).toList ++ applications version es := by
      unfold applications
      rw [List.filterMap_cons]
      cases Resend.resendable? version e.2 <;> rfl
    rw [List.filter_cons, List.filter_cons]
    by_cases heq : keep e.1 = keep' e.1
    · rw [heq]
      split
      · rw [hone, hone, ih hes]
      · exact ih hes
    · have hnone := he heq
      split
      · split
        · rw [hone, hone, ih hes]
        · rw [hone, hnone, ih hes]
          rfl
      · split
        · rw [hone, hnone, ih hes]
          rfl
        · exact ih hes

/-- The message under the next number comes last. -/
theorem sentApplications_succ {frame : Bytes} (hfirst : first ≤ n) (hn : n.isValid = true)
    (h : (n, frame) ∈ a.store.outbound.entries) :
    a.sentApplications first (n + 1) =
      a.sentApplications first n ++ (Resend.resendable? a.config.beginString frame).toList := by
  have hasc : (a.store.outbound.entries.map Prod.fst).Pairwise (· < ·) :=
    (List.pairwise_cons.mp a.store.outbound.ascending).2
  have hsucc := SeqNum.lt_succ_of_isValid hn
  unfold sentApplications
  generalize a.store.outbound.entries = es at h hasc
  obtain ⟨before, after, rfl⟩ := List.append_of_mem h
  rw [List.map_append, List.map_cons, List.pairwise_append, List.pairwise_cons] at hasc
  obtain ⟨_, ⟨habove, _⟩, hbelow⟩ := hasc
  have hbefore (e : SeqNum × Bytes) (he : e ∈ before) : e.1 < n :=
    hbelow e.1 (List.mem_map_of_mem he) n (List.mem_cons_self ..)
  have hafter (e : SeqNum × Bytes) (he : e ∈ after) : n < e.1 :=
    habove e.1 (List.mem_map_of_mem he)
  have hsame : before.filter (fun e => decide (first ≤ e.1) && decide (e.1 < n + 1)) =
      before.filter fun e => decide (first ≤ e.1) && decide (e.1 < n) := by
    refine List.filter_congr fun e he => ?_
    rw [decide_eq_true (hbefore e he), decide_eq_true (UInt64.lt_trans (hbefore e he) hsucc)]
  have hnone (next : SeqNum) (hnext : next ≤ n + 1) :
      after.filter (fun e => decide (first ≤ e.1) && decide (e.1 < next)) = [] := by
    rw [List.filter_eq_nil_iff]
    intro e he hkeep
    simp only [Bool.and_eq_true, decide_eq_true_eq] at hkeep
    have hle : e.1 ≤ n := SeqNum.le_of_lt_of_le_succ hkeep.2 hnext
    exact absurd (hafter e he) (UInt64.not_lt.mpr hle)
  rw [List.filter_append, List.filter_append, List.filter_cons_of_pos (by simp [hfirst, hsucc]),
    List.filter_cons_of_neg (by simp), hsame, hnone n (UInt64.le_of_lt hsucc),
    hnone (n + 1) (UInt64.le_refl _), applications_append, List.append_nil]
  congr 1

/-- A range that holds nothing for the application makes no difference. -/
theorem sentApplications_silent {start following next next' : SeqNum}
    (h : Silent a start following) (hstart : start ≤ next) (hle : next ≤ next')
    (hfollowing : next' ≤ following) :
    a.sentApplications first next' = a.sentApplications first next := by
  unfold sentApplications
  refine applications_congr (fun k => first ≤ k && k < next') (fun k => first ≤ k && k < next)
    fun e he hne => ?_
  -- The two bounds disagree on the number, so it lies between them.
  have hlow : ¬ e.1 < next := by
    intro hlt
    refine hne ?_
    rw [decide_eq_true hlt, decide_eq_true (UInt64.lt_of_lt_of_le hlt hle)]
  have hhigh : e.1 < next' := by
    refine Decidable.not_not.mp fun hlt => hne ?_
    rw [decide_eq_false hlow, decide_eq_false hlt]
  exact h.none e he (UInt64.le_trans hstart (UInt64.not_lt.mp hlow))
    (UInt64.lt_of_lt_of_le hhigh hfollowing)

/-- What grows beyond the numbers that were passed makes no difference to them. -/
theorem sentApplications_grows {next : SeqNum} (h : Grows a a')
    (hpassed : ∀ k, first ≤ k → k < next → a.Passed k) :
    a'.sentApplications first next = a.sentApplications first next := by
  obtain ⟨added, hadded, hnew⟩ := h.entries
  unfold sentApplications
  rw [h.config, hadded, List.filter_append]
  have hnone : added.filter (fun e => decide (first ≤ e.1) && decide (e.1 < next)) = [] := by
    rw [List.filter_eq_nil_iff]
    intro e he hkeep
    simp only [Bool.and_eq_true, decide_eq_true_eq] at hkeep
    exact (hnew e he).2 (hpassed e.1 hkeep.1 hkeep.2)
  rw [hnone, List.append_nil]

/-! ## The receiver -/

/-- What a receiver may get: frames that tell the truth about the sender's journal. -/
def Inputs.ofSender (a : Session MemoryStore) : Inputs :=
  ⟨Truthful a, fun _ => True⟩

/-- Every message in the outbound journal was produced by a session with the same settings. -/
def Kept (a : Session MemoryStore) : Prop :=
  ∀ e ∈ a.store.outbound.entries, Produced a.config e.1 e.2

theorem Kept.grows (hkept : Kept a) (h : Grows a a') : Kept a' := by
  intro e he
  obtain ⟨added, hadded, hnew⟩ := h.entries
  rw [hadded] at he
  rw [h.config]
  rcases List.mem_append.mp he with he | he
  · exact hkept e he
  · exact (hnew e he).1

/-- What the receiver `b` has handed over is what the sender `a` keeps from the number `first` on,
up to the number that `b` expects. -/
structure Follows (a b : Session MemoryStore) (first : SeqNum) (handed : List Message) : Prop where
  version : b.config.beginString = a.config.beginString
  sound : Sound (.ofSender a) b
  le : first ≤ b.sequences.expectedIncoming
  passed : ∀ n, first ≤ n → n < b.sequences.expectedIncoming → a.Passed n
  handed : List.Forall₂ IsCopy handed (a.sentApplications first b.sequences.expectedIncoming)

/-- A kept message that is not the application's is dealt with by the session. -/
theorem handedOver_of_not_isApp {m : Message} (h : m.msgType.isApp = false)
    (hreject : m.msgType ≠ .reject) : handedOver m = [] := by
  have hlevel : m.msgType.isSessionLevel = true := by
    generalize m.msgType = type at h hreject
    cases type with
    | reject => exact absurd rfl hreject
    | _ => first | rfl | cases h
  rw [handedOver, hlevel]
  rfl

/-- A message of the sender is the one that it keeps under its number, or one that was sent again
for it, or it passes over numbers that hold nothing for the application. -/
theorem Genuine.says {c : SessionConfig} {p : Parked} (hkept : Kept a)
    (hversion : c.beginString = a.config.beginString) (hp : Genuine (.ofSender a) c n p) :
    (∃ frame, (n, frame) ∈ a.store.outbound.entries ∧ p.message.msgType ≠ .sequenceReset ∧
      List.Forall₂ IsCopy (handedOver p.message)
        (Resend.resendable? a.config.beginString frame).toList) ∨
    (∃ following, Silent a n following ∧ handedOver p.message = [] ∧
      p.message.nat64? .newSeqNo = some following ∧ isPlainReset p.message = false) := by
  have hnumber := hp.numbered
  have htells : Tells a p.message := hp.frame p.message (hversion ▸ hp.decoded)
  generalize p.message = m at hnumber htells ⊢
  cases htells with
  | @stored k frame _ hmem hdecode =>
    obtain ⟨hk, hreject, hreset⟩ := (hkept _ hmem).decode hdecode
    obtain rfl : n = k := Option.some.inj (hnumber.symm.trans hk)
    refine .inl ⟨frame, hmem, hreset, ?_⟩
    cases happ : m.msgType.isApp with
    | true =>
      rw [handedOver_of_isApp happ, Resend.resendable?_eq_some_iff.mpr ⟨hdecode, happ⟩]
      exact .cons (.inl rfl) .nil
    | false =>
      have hnone : Resend.resendable? a.config.beginString frame = none := by
        rw [Resend.resendable?, hdecode]
        exact if_neg (by rw [happ]; exact Bool.false_ne_true)
      rw [handedOver_of_not_isApp happ hreject, hnone]
      exact .nil
  | @again k frame m hmem hresend time =>
    obtain ⟨hdecode, happ⟩ := Resend.resendable?_eq_some_iff.mp hresend
    obtain ⟨hk, _, hreset⟩ := (hkept _ hmem).decode hdecode
    rw [Resend.seqNum?_duplicate] at hnumber
    obtain rfl : n = k := Option.some.inj (hnumber.symm.trans hk)
    refine .inl ⟨frame, hmem, Resend.msgType_duplicate.trans_ne hreset, ?_⟩
    rw [handedOver_of_isApp ((congrArg MsgType.isApp Resend.msgType_duplicate).trans happ), hresend]
    exact .cons (.inr ⟨time, rfl⟩) .nil
  | @fill start following hsilent time =>
    rw [seqNum?_gapFill] at hnumber
    obtain rfl : start = n := Option.some.inj hnumber
    refine .inr ⟨following, hsilent, ?_, newSeqNo_gapFill, isPlainReset_gapFill⟩
    rw [handedOver, msgType_gapFill]
    rfl

/-- A receiver that keeps its expected number and hands over nothing goes on following. -/
theorem Follows.still {first : SeqNum} {handed : List Message} (h : Follows a b first handed)
    (hsound : Sound (.ofSender a) b') (hconfig : b'.config = b.config)
    (hexpected : b'.sequences.expectedIncoming = b.sequences.expectedIncoming) :
    Follows a b' first handed where
  version := by rw [hconfig]; exact h.version
  sound := hsound
  le := by rw [hexpected]; exact h.le
  passed := by rw [hexpected]; exact h.passed
  handed := by rw [hexpected]; exact h.handed

/-- The message with the expected number is counted and handed over. -/
theorem Follows.count {handed : List Message} {p : Parked} (hkept : Kept a)
    (h : Follows a b first handed) (hp : Genuine (.ofSender a) b.config n p)
    (hn : n = b.sequences.expectedIncoming) (hsound : Sound (.ofSender a) b')
    (hconfig : b'.config = b.config) (hexpected : b'.sequences.expectedIncoming = n + 1) :
    Follows a b' first (handed ++ handedOver p.message) := by
  subst hn
  have hle := h.le
  have hsucc : b.sequences.expectedIncoming ≤ b.sequences.expectedIncoming + 1 :=
    SeqNum.le_succ_of_isValid hp.valid
  refine ⟨by rw [hconfig]; exact h.version, hsound, ?_, ?_, ?_⟩
  · rw [hexpected]
    exact UInt64.le_trans hle hsucc
  · intro k hfirst hk
    rw [hexpected] at hk
    by_cases hlt : k < b.sequences.expectedIncoming
    · exact h.passed k hfirst hlt
    · obtain rfl : k = b.sequences.expectedIncoming :=
        UInt64.le_antisymm (SeqNum.le_of_lt_of_le_succ hk (UInt64.le_refl _))
          (UInt64.not_lt.mp hlt)
      rcases hp.says hkept h.version with ⟨frame, hmem, _⟩ | ⟨following, hsilent, _⟩
      · exact .inr (Journal.le_last hmem)
      · exact hsilent.passed _ (UInt64.le_refl _) hsilent.lt
  · rw [hexpected]
    rcases hp.says hkept h.version with ⟨frame, hmem, _, hcopy⟩ | ⟨following, hsilent, hnone, _⟩
    · rw [sentApplications_succ hle hp.valid hmem]
      exact List.rel_append h.handed hcopy
    · rw [hnone, List.append_nil,
        sentApplications_silent hsilent (UInt64.le_refl _) hsucc (SeqNum.succ_le_of_lt hsilent.lt)]
      exact h.handed

/-- A sequence reset of the sender moves the expected number over numbers that hold nothing. -/
theorem Follows.advance {handed : List Message} {p : Parked} {number : SeqNum} (hkept : Kept a)
    (h : Follows a b first handed) (hp : Genuine (.ofSender a) b.config n p)
    (htype : p.message.msgType = .sequenceReset)
    (hnumber : p.message.nat64? .newSeqNo = some number)
    (hplain : isPlainReset p.message = true ∨ n + 1 = b.sequences.expectedIncoming)
    (hle : b.sequences.expectedIncoming ≤ number) (hsound : Sound (.ofSender a) b')
    (hconfig : b'.config = b.config) (hexpected : b'.sequences.expectedIncoming = number) :
    Follows a b' first handed := by
  rcases hp.says hkept h.version with ⟨_, _, hreset, _⟩ | ⟨following, hsilent, _, hnew, hfill⟩
  · exact absurd htype hreset
  · obtain rfl : following = number := Option.some.inj (hnew.symm.trans hnumber)
    have hn : n + 1 = b.sequences.expectedIncoming := by
      rcases hplain with hplain | hn
      · rw [hfill] at hplain
        cases hplain
      · exact hn
    have hstart : n ≤ b.sequences.expectedIncoming := hn ▸ SeqNum.le_succ_of_isValid hp.valid
    refine ⟨by rw [hconfig]; exact h.version, hsound, ?_, ?_, ?_⟩
    · rw [hexpected]
      exact UInt64.le_trans h.le hle
    · intro k hfirst hk
      rw [hexpected] at hk
      by_cases hlt : k < b.sequences.expectedIncoming
      · exact h.passed k hfirst hlt
      · exact hsilent.passed k (UInt64.le_trans hstart (UInt64.not_lt.mp hlt)) hk
    · rw [hexpected, sentApplications_silent hsilent hstart hle (UInt64.le_refl _)]
      exact h.handed

/-- A receiver that makes a move goes on following. -/
theorem Follows.move {handed : List Message} (hkept : Kept a) (h : Follows a b first handed)
    (hmove : Move (.ofSender a) b r b') : Follows a b' first (handed ++ r.delivered) := by
  have hsound := h.sound.move hmove
  have hsame {m : List Message} (hm : m = []) (hconfig : b'.config = b.config)
      (hexpected : b'.sequences.expectedIncoming = b.sequences.expectedIncoming) :
      Follows a b' first (handed ++ m) := by
    rw [hm, List.append_nil]
    exact h.still hsound hconfig hexpected
  cases hmove with
  | take hp hn _ => exact h.count hkept hp hn hsound rfl rfl
  | countLogon hp htype hn =>
    have hcount := h.count hkept hp hn hsound rfl rfl
    rwa [handedOver, htype] at hcount
  | advance hp htype hnumber hplain hle =>
    show Follows a _ first (handed ++ [])
    rw [List.append_nil]
    exact h.advance hkept hp htype hnumber hplain hle hsound rfl rfl
  | _ => exact hsame rfl rfl rfl

theorem Follows.moves {handed : List Message} (hkept : Kept a) (h : Follows a b first handed)
    (hmoves : Moves (.ofSender a) b r b') : Follows a b' first (handed ++ r.delivered) := by
  induction hmoves generalizing handed with
  | refl =>
    show Follows a _ first (handed ++ [])
    rw [List.append_nil]
    exact h
  | cons head _ ih =>
    have := ih (h.move hkept head)
    rwa [List.append_assoc] at this

/-- A receiver that does something goes on following, unless it fails. -/
theorem Follows.stepped {handed : List Message} {o : Outcome} (hkept : Kept a)
    (h : Follows a b first handed) (hstep : Stepped (.ofSender a) b o b')
    (hok : ∀ failure, o ≠ .reacted (.error failure)) :
    Follows a b' first (handed ++ o.delivered) := by
  cases hstep with
  | sent hmoves => exact h.moves hkept hmoves
  | refused hrefusal =>
    show Follows a _ first (handed ++ [])
    rw [List.append_nil]
    cases hrefusal with
    | idle => exact h
    | unkept hstore => exact h.still h.sound rfl rfl
  | reacted hmoves => exact h.moves hkept hmoves
  | failed _ now => exact absurd rfl (hok _)
  | closed hmoves => exact h.moves hkept hmoves

theorem Genuine.mono {I I' : Inputs} {c : SessionConfig} {p : Parked} (h : Genuine I c n p)
    (hframe : ∀ frame, I.frame frame → I'.frame frame) : Genuine I' c n p :=
  ⟨hframe _ h.frame, h.decoded, h.sender, h.target, h.numbered, h.valid⟩

/-- The sender may go on: its journal grows beyond the numbers that the receiver has passed. -/
theorem Follows.grows {handed : List Message} (h : Follows a b first handed) (hgrows : Grows a a') :
    Follows a' b first handed where
  version := by rw [hgrows.config]; exact h.version
  sound e he := (h.sound e he).mono fun _ => Truthful.mono hgrows
  le := h.le
  passed n hfirst hn := hgrows.passed n (h.passed n hfirst hn)
  handed := by
    rw [sentApplications_grows hgrows h.passed]
    exact h.handed

/-- A new receiver has handed over nothing. -/
theorem follows_fresh {config : SessionConfig} {store : MemoryStore} {now : Nat}
    (hversion : config.beginString = a.config.beginString) :
    Follows a (fresh config store now) (fresh config store now).sequences.expectedIncoming [] where
  version := hversion
  sound := nofun
  le := UInt64.le_refl _
  passed n hfirst hn := absurd hn (UInt64.not_lt.mpr hfirst)
  handed := by
    unfold sentApplications applications
    rw [List.filter_eq_nil_iff.mpr]
    · exact .nil
    · intro e _ hkeep
      simp only [Bool.and_eq_true, decide_eq_true_eq] at hkeep
      exact absurd hkeep.2 (UInt64.not_lt.mpr hkeep.1)

end Session

/-! ## The network -/

/-- A sender, a receiver, the frames that the sender has put out, and the messages that the receiver
has handed over. -/
structure Network where
  a : Session MemoryStore
  b : Session MemoryStore
  sent : List Bytes
  handed : List Message

namespace Network

open Session

/-- What can happen: something to the sender, something to the receiver, or a frame that was put out
arrives. A frame that never arrives is lost, one may arrive twice, and any may arrive first. -/
inductive Event where
  | atA (op : Operation)
  | atB (op : Operation)
  | arrival (index : Nat) (now : Moment)

/-- The application of the sender sends messages of its own only, and the receiver gets frames only
from the network. -/
def Event.Allowed : Event → Prop
  | .atA op => op.Within ⟨fun _ => True, isAppCode⟩
  | .atB (.receive _ _) => False
  | _ => True

/-- Something happens to the receiver; there is no network any more once it has failed. -/
def atB (w : Network) (op : Operation) : Option Network :=
  match w.b.step op with
  | (.reacted (.error _), _) => none
  | (outcome, b) => some { w with b, handed := w.handed ++ outcome.delivered }

/-- One event. -/
def step (w : Network) : Event → Option Network
  | .atA op =>
    let (outcome, a) := w.a.step op
    some { w with a, sent := w.sent ++ outcome.frames }
  | .atB op => w.atB op
  | .arrival index now =>
    match w.sent[index]? with
    | some frame => w.atB (.receive frame now)
    | none => some w

/-- A list of events. -/
def run (w : Network) : List Event → Option Network
  | [] => some w
  | event :: events => (w.step event).bind fun w => w.run events

/-- The receiver follows the sender, whose journal is sound and whose frames tell the truth. -/
structure Invariant (w : Network) (first : SeqNum) : Prop where
  kept : Kept w.a
  soundA : Sound ⟨fun _ => True, isAppCode⟩ w.a
  truthful : ∀ frame ∈ w.sent, Truthful w.a frame
  follows : Follows w.a w.b first w.handed

variable {w w' : Network} {first : SeqNum}

theorem Invariant.atA (h : Invariant w first) {op : Operation}
    (hop : op.Within ⟨fun _ => True, isAppCode⟩) :
    Invariant { w with a := (w.a.step op).2, sent := w.sent ++ (w.a.step op).1.frames } first := by
  have hstep := stepped h.soundA hop
  have hgrows : Grows w.a (w.a.step op).2 := hstep.grows fun _ h => h
  refine ⟨h.kept.grows hgrows, h.soundA.stepped hstep, ?_, h.follows.grows hgrows⟩
  intro frame hframe
  rcases List.mem_append.mp hframe with hframe | hframe
  · exact (h.truthful frame hframe).mono hgrows
  · exact hstep.truthful (fun _ h => h) frame hframe

theorem Invariant.atB (h : Invariant w first) {op : Operation}
    (hop : op.Within (.ofSender w.a)) (hw : w.atB op = some w') : Invariant w' first := by
  have hstep := stepped h.follows.sound hop
  unfold Network.atB at hw
  split at hw
  · cases hw
  · next outcome b hne heq =>
    cases hw
    rw [heq] at hstep
    refine ⟨h.kept, h.soundA, h.truthful, h.follows.stepped h.kept hstep ?_⟩
    intro failure hfailure
    exact hne failure hfailure

theorem Invariant.step (h : Invariant w first) {event : Event} (hevent : event.Allowed)
    (hw : w.step event = some w') : Invariant w' first := by
  cases event with
  | atA op =>
    cases hw
    exact h.atA hevent
  | atB op =>
    have hop : op.Within (.ofSender w.a) := by
      cases op with
      | receive => exact absurd hevent not_false
      | _ => exact trivial
    exact h.atB hop hw
  | arrival index now =>
    have hw : (match w.sent[index]? with
      | some frame => w.atB (.receive frame now)
      | none => some w) = some w' := hw
    split at hw
    · next frame hframe =>
      have hop : Operation.Within (.ofSender w.a) (.receive frame now) :=
        h.truthful frame (List.mem_of_getElem? hframe)
      exact h.atB hop hw
    · cases hw
      exact h

/-- The induction is on the events. -/
theorem Invariant.run {events : List Event} (h : Invariant w first)
    (hevents : ∀ event ∈ events, event.Allowed) (hw : w.run events = some w') :
    Invariant w' first := by
  induction events generalizing w with
  | nil =>
    cases hw
    exact h
  | cons event events ih =>
    obtain ⟨hevent, hevents⟩ := List.forall_mem_cons.mp hevents
    obtain ⟨w₁, hw₁, hw⟩ := Option.bind_eq_some_iff.mp hw
    exact ih (h.step hevent hw₁) hevents hw

/-- Whatever happens to the sender, to the receiver and to the frames between them: as long as no
call on the receiver has failed, it has handed over the application messages of the sender's journal
from the number that it expected first up to the one that it expects now, one by one and in order,
each as it was kept or as it was sent again. -/
theorem run_delivers {configA configB : SessionConfig} {storeA storeB : MemoryStore}
    {startA startB : Nat} {a b : Session MemoryStore} {events : List Event} {w : Network}
    (ha : Session.open? configA storeA startA = .ok a)
    (hb : Session.open? configB storeB startB = .ok b)
    (hversion : configB.beginString = configA.beginString)
    (hstore : ∀ e ∈ storeA.outbound.entries, Produced configA e.1 e.2)
    (hevents : ∀ event ∈ events, event.Allowed) (hw : Network.run ⟨a, b, [], []⟩ events = some w) :
    List.Forall₂ IsCopy w.handed
      (w.a.sentApplications b.sequences.expectedIncoming w.b.sequences.expectedIncoming) := by
  obtain ⟨_, rfl⟩ := open?_eq_ok_iff.mp ha
  obtain ⟨_, rfl⟩ := open?_eq_ok_iff.mp hb
  have hinit : Invariant ⟨fresh configA storeA startA, fresh configB storeB startB, [], []⟩
      (fresh configB storeB startB).sequences.expectedIncoming :=
    ⟨hstore, nofun, nofun, follows_fresh hversion⟩
  exact (hinit.run hevents hw).follows.handed

/-- Two orders are sent and the first is lost: the second makes the gap known, the first is asked
for and sent again, and both are handed over. -/
def lostOrder : List Event :=
  [.atA (.logon Sample.moment), .arrival 0 Sample.moment,
    .atA (.receive (Sample.logon Sample.acceptor) Sample.moment),
    .atA (.send .newOrderSingle [] Sample.moment), .atA (.send .newOrderSingle [] Sample.moment),
    .arrival 2 Sample.moment,
    .atA (.receive (Sample.frame Sample.acceptor .resendRequest 2
      [.ofSeqNum .beginSeqNo 2, .ofSeqNum .endSeqNo 2]) Sample.moment),
    .arrival 3 Sample.moment]

/-- The network before anything happens. -/
def sample : Network :=
  ⟨.fresh Sample.initiator .empty 0, .fresh Sample.acceptor .empty 0, [], []⟩

theorem allowed_lostOrder : ∀ event ∈ lostOrder, event.Allowed := by
  intro event h
  simp only [lostOrder, List.mem_cons, List.not_mem_nil, or_false] at h
  rcases h with rfl | rfl | rfl | rfl | rfl | rfl | rfl | rfl
  all_goals trivial

theorem isSome_run_lostOrder : (sample.run lostOrder).isSome = true := by
  decide +kernel

theorem run_delivers_lostOrder :
    ∃ w, sample.run lostOrder = some w ∧ w.handed.map Message.seqNum? = [some 2, some 3] ∧
      List.Forall₂ IsCopy w.handed (w.a.sentApplications 1 w.b.sequences.expectedIncoming) :=
  ⟨(sample.run lostOrder).get isSome_run_lostOrder, (Option.some_get _).symm, by decide +kernel,
    run_delivers Sample.open_initiator Sample.open_acceptor rfl nofun allowed_lostOrder
      (Option.some_get _).symm⟩

/-- A message that was sent again is not handed over as it was kept. -/
theorem handed_ne_sentApplications_lostOrder :
    Session.open? Sample.initiator MemoryStore.empty 0 = .ok sample.a ∧
      Session.open? Sample.acceptor MemoryStore.empty 0 = .ok sample.b ∧
      (∀ event ∈ lostOrder, event.Allowed) ∧
      ∃ w, sample.run lostOrder = some w ∧
        w.handed ≠ w.a.sentApplications sample.b.sequences.expectedIncoming
          w.b.sequences.expectedIncoming :=
  ⟨Sample.open_initiator, Sample.open_acceptor, allowed_lostOrder,
    (sample.run lostOrder).get isSome_run_lostOrder, (Option.some_get _).symm, by decide +kernel⟩

end Network

end FixProtocol
