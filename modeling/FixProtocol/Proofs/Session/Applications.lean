import FixProtocol.Proofs.Session.Exchange
import FixProtocol.Proofs.Session.Idle

/-!
# What the application sends

The session writes the header of every message, and the application writes the rest. So the tags of
the header are what the session has set them to. The type is checked by its name, though, and the
other side reads its code: a type without a name may hide a code of the session's own.

- `checkSend_eq_ok_iff`: what the application may send.
- `MsgType.isApp_ofCode_iff`, `MsgType.isSessionLevel_ofCode_iff`: what a code says to the reader.
- `ends_process_hands`: what a session in whose turn a message comes hands over first.
- `send_reads_as`: what a message of the application is to the other side.
-/

namespace FixProtocol

namespace MsgType

/-- The codes of the session layer. -/
def adminCodes : List String :=
  ["0", "1", "2", "3", "4", "5", "A"]

/-- The types of the application are those without a code of the session layer. -/
theorem isApp_ofCode_iff (code : String) : (ofCode code).isApp = true ↔ code ∉ adminCodes := by
  unfold ofCode
  split
  case h_14 =>
    simp only [isApp, isAdmin, adminCodes, List.mem_cons, List.not_mem_nil, or_false, not_or]
    exact iff_of_true rfl ⟨‹_›, ‹_›, ‹_›, ‹_›, ‹_›, ‹_›, ‹_›⟩
  all_goals decide

/-- Of the session layer, only a reject is handed over. -/
theorem isSessionLevel_iff (type : MsgType) :
    type.isSessionLevel = true ↔ type.isApp = false ∧ type ≠ .reject := by
  cases type <;> simp [isSessionLevel, isApp, isAdmin]

theorem isSessionLevel_ofCode_iff (code : String) :
    (ofCode code).isSessionLevel = true ↔ code ∈ adminCodes ∧ code ≠ "3" := by
  have hreject : ofCode code = .reject ↔ code = "3" := by
    constructor
    · intro h
      rw [← code_ofCode code, h]
      rfl
    · rintro rfl
      rfl
  rw [isSessionLevel_iff, ← Bool.not_eq_true, isApp_ofCode_iff, Decidable.not_not, ne_eq,
    hreject]

end MsgType

namespace Session

open Call

variable {σ : Type} {s t : Session σ} {type : MsgType} {fields : List Field}

/-- The application may send any type but the named ones of the session layer, with any fields but
those that the session writes. -/
theorem checkSend_eq_ok_iff :
    checkSend type fields = .ok () ↔ type.isAdmin = false ∧ ∀ f ∈ fields, f.tag ∉ ownTags := by
  unfold checkSend
  by_cases hadmin : type.isAdmin = true
  · rw [if_pos hadmin, hadmin]
    exact iff_of_false nofun nofun
  · rw [if_neg hadmin]
    cases hown : fields.find? (·.tag ∈ ownTags) with
    | none =>
      refine iff_of_true rfl ⟨Bool.eq_false_iff.mpr hadmin, fun f hf hmem => ?_⟩
      exact List.find?_eq_none.mp hown f hf (decide_eq_true hmem)
    | some f =>
      refine iff_of_false nofun fun h => h.2 f (List.mem_of_find?_eq_some hown) ?_
      exact of_decide_eq_true (List.find?_some hown :)

/-- The tags that the session writes are found in the header only. -/
theorem filter_header (hfields : ∀ f ∈ fields, f.tag ∉ ownTags) {tag : Tag} (htag : tag ∈ ownTags)
    (n : SeqNum) (time : Timestamp) :
    (s.header type n time ++ fields).filter (·.tag = tag) =
      (s.header type n time).filter (·.tag = tag) := by
  rw [List.filter_append]
  have hnone : fields.filter (·.tag = tag) = [] := by
    refine List.filter_eq_nil_iff.mpr fun f hf heq => hfields f hf ?_
    rw [of_decide_eq_true heq]
    exact htag
  rw [hnone, List.append_nil]

/-! ## What the other side hands over -/

variable [MessageStore σ] {n : SeqNum} {p : Parked}

/-- Nothing is parked and nothing is asked for. -/
def IsQuiet (s : Session σ) : Prop :=
  s.recovery.parked = [] ∧ s.recovery.pending = none

/-- A message that was taken hands over itself, if it is the application's, and nothing else. -/
theorem ends_dispatch_hands (m : Message) (replaying : Bool) (now : Moment) :
    Ends (dispatch m replaying now) s (fun r _ => r.delivered = handedOver m) Anyhow := by
  refine ends_dispatch ?heartbeat ?testRequest ?resendRequest ?sequenceReset ?logout ?logon
    ?application
  case heartbeat => exact fun htype => (handedOver_of_eq htype rfl).symm
  case testRequest =>
    exact fun htype => ends_emit_of_emits fun _ _ _ => (handedOver_of_eq htype rfl).symm
  case resendRequest =>
    refine fun htype => (ends_serveResend_serves m now).anyhow fun _ _ hserves => ?_
    rw [handedOver_of_eq htype rfl]
    cases hserves with
    | nothing => rfl
    | again => rfl
  case sequenceReset =>
    exact fun htype => (ends_applySequenceReset_advances m).imp fun _ _ _ =>
      (handedOver_of_eq htype rfl).symm
  case logout =>
    exact fun htype => ends_onLogout (fun _ => (handedOver_of_eq htype rfl).symm) fun _ =>
      ends_emit_of_emits fun _ _ _ => (handedOver_of_eq htype rfl).symm
  case logon =>
    exact fun htype => ⟨fun _ => (handedOver_of_eq htype rfl).symm, fun _ => trivial⟩
  case application => exact fun hlevel => (handedOver_of_not hlevel).symm

/-- Where nothing waits, nothing follows. -/
theorem ends_drain_quiet (now : Moment) :
    Ends (drain now) s (fun r _ => IsQuiet s → r = .empty) Anyhow := by
  by_cases hquiet : IsQuiet s
  · exact (ends_drain_idle hquiet.1 hquiet.2 now).anyhow fun _ _ h _ => h.1
  · unfold Ends
    split
    · exact fun h => absurd h hquiet
    · trivial

/-- Handed over is `first`, and nothing else where nothing waited. -/
def HandsFirst (first : List Message) (quiet : Prop) (r : Reaction) : Prop :=
  ∃ rest, r.delivered = first ++ rest ∧ (quiet → rest = [])

/-- A message whose turn has come hands over itself, if it is the application's; what follows was
parked. -/
theorem ends_process_hands (hopen : s.terminated = false) (hstate : s.state = .loggedOn)
    (hp : Genuine .any s.config n p) (hn : n = s.sequences.expectedIncoming) (now : Moment) :
    Ends (process p.frame now) s
      (fun r _ => HandsFirst (handedOver p.message) (IsQuiet s) r) Anyhow := by
  have hestablished : s.state.isEstablished = true :=
    SessionState.isEstablished_iff.mpr (.inl hstate)
  have hdrain {r : Reaction} {t : Session σ} (hr : r.delivered = handedOver p.message)
      (ht : IsQuiet s → IsQuiet t) :
      Ends (drain now) t
        (fun r' _ => HandsFirst (handedOver p.message) (IsQuiet s) (r ++ r')) Anyhow := by
    refine (ends_drain_quiet now).imp fun r' _ hempty => ⟨r'.delivered, ?_, fun hs => ?_⟩
    · rw [Reaction.delivered_append, hr]
    · rw [hempty (ht hs)]
      rfl
  cases hplain : isPlainReset p.message with
  | true =>
    have hnone := handedOver_of_eq (msgType_of_isPlainReset hplain) rfl
    refine ends_process_reset hopen hestablished hp hplain
      ((ends_applySequenceReset_advances p.message).imp fun _ t ht =>
        hdrain (r := .empty) hnone.symm fun hs => ?_)
    unfold IsQuiet
    rw [ht.recovery]
    exact hs
  | false =>
    refine ends_process_numbered hopen hestablished hp hplain (ends_onNumbered_next hp.valid hn
      (ends_accept (fun store _ => ?_) fun _ _ _ => trivial))
    refine ((ends_dispatch_hands p.message false now).and
      (ends_dispatch_advances p.message false now)).anyhow ?_
    rintro r t ⟨hr, hleft⟩
    refine hdrain hr fun hs => ?_
    rcases hleft with ⟨_, hended⟩ | hadvances
    · exact ⟨hended.parked, hended.pending⟩
    · unfold IsQuiet
      rw [hadvances.recovery]
      exact hs

/-- A message of the application whose turn has come is all that is handed over, where nothing
waited and the store keeps it. -/
theorem ends_process_application (hopen : s.terminated = false) (hstate : s.state = .loggedOn)
    (hp : Genuine .any s.config n p) (hn : n = s.sequences.expectedIncoming)
    (htype : p.message.msgType.isSessionLevel = false) (hquiet : IsQuiet s) {store : σ}
    (hstore : MessageStore.append s.store .inbound n p.frame = (.ok (), store)) (now : Moment) :
    Ends (process p.frame now) s (fun r _ => r = .ofMessage p.message) (fun _ _ => False) := by
  have hplain : isPlainReset p.message = false := by
    refine Bool.eq_false_iff.mpr fun hplain => ?_
    rw [msgType_of_isPlainReset hplain] at htype
    cases htype
  refine ends_process_numbered hopen (SessionState.isEstablished_iff.mpr (.inl hstate)) hp hplain
    (ends_onNumbered_next hp.valid hn (ends_accept_ok hstore (ends_dispatch_application htype ?_)))
  refine (ends_drain_idle ?_ ?_ now).imp ?_
  · exact hquiet.1
  · exact hquiet.2
  · rintro r t ⟨rfl, _⟩
    exact Reaction.append_empty _

/-! ## What the other side reads -/

/-- A message that was sent for the application is read as the fields of the header and those of the
application, and what the session writes stands only where the session wrote it. It is of the
application if its code is none of the session layer, whatever its type is called. A session with
the mirrored settings whose turn it is hands it over before all else, unless it has a code of the
session layer other than that of a reject; it does hand it over if nothing waits and its store keeps
it. -/
theorem send_reads_as {frame : Bytes} {now : Moment}
    (hsent : s.step (.send type fields now) = (.sent (.ok frame), t))
    (hlength : frame.length < 2 ^ 64) :
    let n := s.sequences.nextOutgoing
    let m : Message := ⟨s.header type n now.utc ++ fields⟩
    type.isAdmin = false ∧ Message.decode s.config.beginString frame = .ok m ∧
      (∀ tag ∈ ownTags,
        m.fields.filter (·.tag = tag) = (s.header type n now.utc).filter (·.tag = tag)) ∧
      (m.msgType.isApp = true ↔ type.code ∉ MsgType.adminCodes) ∧
      (m.msgType.isSessionLevel = true ↔ type.code ∈ MsgType.adminCodes ∧ type.code ≠ "3") ∧
      ∀ {τ : Type} [MessageStore τ] (other : Session τ), Mirrored s.config other.config →
        other.terminated = false → other.state = .loggedOn → n.isValid = true →
        other.sequences.expectedIncoming = n → ∀ later : Moment,
        (∀ r u, other.receive frame later = (.ok r, u) →
          HandsFirst (handedOver m) (IsQuiet other) r) ∧
        (m.msgType.isSessionLevel = false → IsQuiet other →
          (∃ store, MessageStore.append other.store .inbound n frame = (.ok (), store)) →
          (other.receive frame later).1 = .ok (.ofMessage m)) := by
  intro n m
  obtain ⟨hcheck, hemits⟩ : checkSend type fields = .ok () ∧ Emits s type fields now frame t := by
    have hrun : (send type fields now).run s = (.ok frame, t) := by
      have hanswer : Outcome.sent ((send type fields now).run s).1 = .sent (.ok frame) :=
        congrArg Prod.fst hsent
      exact Prod.ext (Outcome.sent.inj hanswer) (congrArg Prod.snd hsent :)
    rcases run_cases (ends_send_emits (s := s) type fields now) with
      ⟨_, _, heq, _, _, hcheck, hemits⟩ | ⟨_, _, heq, _⟩
    · rw [hrun] at heq
      cases heq
      exact ⟨hcheck, hemits⟩
    · rw [hrun] at heq
      cases heq
  obtain ⟨hadmin, hfields⟩ := checkSend_eq_ok_iff.mp hcheck
  have hdecode : Message.decode s.config.beginString frame = .ok m := hemits.carries.decoded hlength
  have htype : m.msgType = .ofCode type.code := msgType_header
  refine ⟨hadmin, hdecode, fun tag htag => filter_header hfields htag n now.utc, ?_, ?_, ?_⟩
  · rw [htype]
    exact MsgType.isApp_ofCode_iff type.code
  · rw [htype]
    exact MsgType.isSessionLevel_ofCode_iff type.code
  · intro τ _ other hmirrored hopen hstate hvalid hexpected later
    have hgenuine : Genuine .any other.config n ⟨m, frame⟩ :=
      genuine_header hmirrored hvalid ((decode_header_iff hemits.encode).mp hdecode).1 hemits.encode
    constructor
    · intro r u hreceive
      have hhands := ends_process_hands hopen hstate hgenuine hexpected.symm later
      rcases settle_cases hhands later with ⟨r', u', heq, hr⟩ | ⟨e, u', heq⟩
      · rw [show (process frame later).settle other later = (.ok r, u) from hreceive] at heq
        cases heq
        exact hr
      · rw [show (process frame later).settle other later = (.ok r, u) from hreceive] at heq
        cases heq
    · rintro hlevel hquiet ⟨store, hstore⟩
      have happlication :=
        ends_process_application hopen hstate hgenuine hexpected.symm hlevel hquiet hstore later
      obtain ⟨r, u, heq, rfl⟩ := settle_of_ends happlication later
      exact congrArg Prod.fst heq

end Session

namespace Sample

open Session

/-- An acceptor that has logged on. -/
def acceptorOn : Session MemoryStore :=
  (run (.fresh acceptor .empty 0) [.receive (logon initiator) moment]).2

/-- An initiator that has logged on. -/
def initiatorOn : Session MemoryStore :=
  (run (.fresh initiator .empty 0) [.logon moment, .receive (logon acceptor) moment]).2

end Sample

namespace Session

open Sample

/-- A type without a name may hide the code of a logout: the session sends it, and the other side
reads a logout and hands over nothing. A type of its own is handed over. -/
theorem send_reads_as_custom :
    (∃ frame t m, acceptorOn.step (.send (.custom "5") [] moment) = (.sent (.ok frame), t) ∧
      Message.decode acceptorOn.config.beginString frame = .ok m ∧ m.msgType.isApp = false ∧
      ∀ r u, initiatorOn.receive frame moment = (.ok r, u) → r.delivered = []) ∧
    ∃ frame t m, acceptorOn.step (.send (.custom "U1") [] moment) = (.sent (.ok frame), t) ∧
      Message.decode acceptorOn.config.beginString frame = .ok m ∧ m.msgType.isApp = true ∧
      (initiatorOn.receive frame moment).1 = .ok (.ofMessage m) := by
  have hsends (type : MsgType)
      (h : ((send type [] moment).run acceptorOn).1.toOption.any (·.length < 1000) = true) :
      ∃ frame t, acceptorOn.step (.send type [] moment) = (.sent (.ok frame), t) ∧
        frame.length < 2 ^ 64 := by
    show ∃ frame t, (Outcome.sent ((send type [] moment).run acceptorOn).1,
      ((send type [] moment).run acceptorOn).2) = (.sent (.ok frame), t) ∧ frame.length < 2 ^ 64
    cases hanswer : ((send type [] moment).run acceptorOn).1 with
    | error e =>
      rw [hanswer] at h
      cases h
    | ok frame =>
      rw [hanswer] at h
      have hshort : frame.length < 1000 := of_decide_eq_true h
      exact ⟨frame, _, rfl, by omega⟩
  have hmirrored : Mirrored acceptorOn.config initiatorOn.config := by
    rw [show acceptorOn.config = acceptor from config_run_of_open open_acceptor _,
      show initiatorOn.config = initiator from config_run_of_open open_initiator _]
    exact ⟨rfl, rfl, rfl⟩
  have hopen : initiatorOn.terminated = false := by decide +kernel
  have hstate : initiatorOn.state = .loggedOn := by decide +kernel
  have hvalid : acceptorOn.sequences.nextOutgoing.isValid = true := by decide +kernel
  have hexpected : initiatorOn.sequences.expectedIncoming = acceptorOn.sequences.nextOutgoing := by
    decide +kernel
  have hquiet : IsQuiet initiatorOn := ⟨by decide +kernel, by decide +kernel⟩
  constructor
  · obtain ⟨frame, t, hsent, hlength⟩ := hsends (.custom "5") (by decide +kernel)
    obtain ⟨_, hdecode, _, happ, hlevel, hother⟩ := send_reads_as hsent hlength
    have hhands := (hother _ hmirrored hopen hstate hvalid hexpected moment).1
    refine ⟨frame, t, _, hsent, hdecode, ?_, fun r u hreceive => ?_⟩
    · exact Bool.eq_false_iff.mpr fun h => happ.mp h (by decide)
    · obtain ⟨rest, hrest, hnone⟩ := hhands r u hreceive
      rw [hrest, hnone hquiet, handedOver, if_pos (hlevel.mpr (by decide))]
      rfl
  · obtain ⟨frame, t, hsent, hlength⟩ := hsends (.custom "U1") (by decide +kernel)
    obtain ⟨_, hdecode, _, happ, hlevel, hother⟩ := send_reads_as hsent hlength
    have hhears := (hother _ hmirrored hopen hstate hvalid hexpected moment).2
    have hbelow : initiatorOn.store.inbound.last < acceptorOn.sequences.nextOutgoing := by
      decide +kernel
    obtain ⟨_, _, hstore⟩ :=
      MemoryStore.append_of_lt (d := .inbound) (s := initiatorOn.store) hbelow frame
    refine ⟨frame, t, _, hsent, hdecode, happ.mpr (by decide), ?_⟩
    exact hhears (Bool.eq_false_iff.mpr fun h => absurd (hlevel.mp h) (by decide)) hquiet
      ⟨_, hstore⟩

end Session

end FixProtocol
