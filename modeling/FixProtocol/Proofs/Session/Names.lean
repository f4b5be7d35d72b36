import FixProtocol.Proofs.Json.Strings
import FixProtocol.Proofs.Session.Writing

/-!
# Names and the wire

A name that was made from a text can stand on the wire. A name that was read from JSON is only known
to be short, so a session can be given names that it cannot write. It is valid all the same, and it
refuses each message for the name, before anything is stored or counted.

- `CompId.IsUsable`: a text that can stand in the field of a name.
- `EncodeError.tag`: the tag that an error of encoding speaks of, and `Wire.mem_of_encode_error`:
  the field that has it.
- `Session.emit_refuses_unusable`: which names the ways to a name give, and what sessions with them
  can send.
-/

namespace FixProtocol

namespace CompId

/-- The text can stand on the wire as a name: it is not empty, it is at most 32 bytes long, and it
does not hold the delimiter. -/
structure IsUsable (text : String) : Prop where
  ne_empty : text ≠ ""
  length_le : (Utf8.bytes text).length ≤ 32
  soh_not_mem : Bytes.soh ∉ Utf8.bytes text

theorem isUsable_iff {id : CompId} : IsUsable id.text ↔ ofText? id.text = some id := by
  rw [ofText?_eq_some_iff]
  exact ⟨fun h => ⟨rfl, h.ne_empty, h.soh_not_mem, h.length_le⟩, fun h => ⟨h.2.1, h.2.2.2, h.2.2.1⟩⟩

/-- Texts that are usable make names. -/
theorem ofText?_iff_isUsable {text : String} {id : CompId} :
    ofText? text = some id ↔ IsUsable text ∧ id.text = text := by
  constructor
  · intro h
    obtain ⟨rfl, -⟩ := ofText?_eq_some_iff.mp h
    exact ⟨isUsable_iff.mpr h, rfl⟩
  · rintro ⟨h, rfl⟩
    exact isUsable_iff.mp h

/-- All short texts are names in JSON. -/
theorem exists_readText?_iff (text : String) :
    (∃ json id, JsonForm.readText? CompId json = some id ∧ id.text = text) ↔
      (Utf8.bytes text).length ≤ 32 := by
  constructor
  · rintro ⟨json, id, -, rfl⟩
    exact id.fits
  · intro h
    exact ⟨_, ⟨text, h⟩, JsonForm.readText?_print_compId _, rfl⟩

end CompId

/-! ## What errors of encoding speak of -/

/-- The tag that the error speaks of. -/
def EncodeError.tag : EncodeError → Tag
  | missingRequiredField tag => tag
  | delimiterInValue tag => tag
  | invalidFieldValue tag _ => tag
  | reservedTag tag => tag

/-- A chain that fails fails in its first step or after it. -/
theorem error_cases_of_bind {ε α β : Type} {x : Except ε α} {f : α → Except ε β} {e : ε}
    (h : (x >>= f) = .error e) : x = .error e ∨ ∃ a, x = .ok a ∧ f a = .error e := by
  cases x with
  | error e' => exact .inl (congrArg Except.error (Except.error.inj h))
  | ok a => exact .inr ⟨a, rfl, h⟩

namespace Wire

variable {f : Field} {fs : List Field} {seen : List Tag} {e : EncodeError}

theorem tag_of_checkField (h : checkField f = .error e) : e.tag = f.tag := by
  unfold checkField at h
  split at h
  · next hzero =>
    obtain rfl := Except.error.inj h
    exact hzero.symm
  · split at h
    · obtain rfl := Except.error.inj h
      rfl
    · split at h
      · obtain rfl := Except.error.inj h
        rfl
      · split at h
        · obtain rfl := Except.error.inj h
          rfl
        · cases h

/-- The checks of fields stop at one of the fields: it is wrong by itself, or it is a version or a
type and comes twice. -/
theorem mem_of_checkFields_error (h : checkFields seen fs = .error e) :
    ∃ f ∈ fs, f.tag = e.tag ∧ (checkField f = .error e ∨ isHeader f = true) := by
  induction fs generalizing seen with
  | nil => cases h
  | cons f fs ih =>
    have hlater {seen : List Tag} (h : checkFields seen fs = .error e) :=
      (ih h).imp fun g hg => And.imp_left (List.mem_cons_of_mem f) hg
    rcases error_cases_of_bind h with hf | ⟨_, -, h⟩
    · exact ⟨f, List.mem_cons_self, (tag_of_checkField hf).symm, .inl hf⟩
    · split at h
      · next hheader =>
        split at h
        · obtain rfl := Except.error.inj h
          exact ⟨f, List.mem_cons_self, rfl, .inr hheader⟩
        · exact hlater h
      · exact hlater h

theorem tag_of_requireValue {tag : Tag} (h : requireValue fs tag = .error e) : e.tag = tag := by
  unfold requireValue at h
  split at h
  · cases h
  · obtain rfl := Except.error.inj h
    rfl

/-- Encoding fails for the version or the type, or for a field that is wrong by itself. -/
theorem mem_of_encode_error (h : encode fs = .error e) :
    (e.tag = .beginString ∨ e.tag = .msgType) ∨
      ∃ f ∈ fs, f.tag = e.tag ∧ checkField f = .error e := by
  rcases error_cases_of_bind h with hcheck | ⟨_, -, h⟩
  · obtain ⟨f, hmem, htag, hf | hheader⟩ := mem_of_checkFields_error hcheck
    · exact .inr ⟨f, hmem, htag, hf⟩
    · rw [← htag]
      exact .inl (isHeader_iff.mp hheader)
  · rcases error_cases_of_bind h with hversion | ⟨version, -, h⟩
    · exact .inl (.inl (tag_of_requireValue hversion))
    · rcases error_cases_of_bind h with htype | ⟨type, -, h⟩
      · exact .inl (.inr (tag_of_requireValue htype))
      · cases h

/-- A field that may stand in a body is passed over. -/
theorem checkFields_cons_of_isBody (hf : IsBody f) :
    checkFields seen (f :: fs) = checkFields seen fs := by
  rw [checkFields, checkField_of_isBody hf]
  exact if_neg (by rw [not_isHeader_of_isBody hf]; exact Bool.false_ne_true)

/-- A version or a type that can be written is passed over where it was not seen before. -/
theorem checkFields_cons_of_isHeader (hf : checkField f = .ok ()) (hheader : isHeader f = true)
    (hseen : f.tag ∉ seen) : checkFields seen (f :: fs) = checkFields (f.tag :: seen) fs := by
  rw [checkFields, hf]
  show (if isHeader f = true then _ else _) = _
  rw [if_pos hheader, if_neg hseen]

/-- Behind a version and a type that can be written and fields that may stand in a body, a field
that is wrong is what encoding fails for. -/
theorem encode_listed_of_error {version type : Bytes} {before after : List Field}
    (hversion : Field.Writable ⟨.beginString, version⟩) (htype : Field.Writable ⟨.msgType, type⟩)
    (hbefore : ∀ g ∈ before, IsBody g) (hf : checkField f = .error e) :
    encode (listed version type (before ++ f :: after)) = .error e := by
  have hpass (seen : List Tag) : checkFields seen (before ++ f :: after) = .error e := by
    induction before with
    | nil =>
      rw [List.nil_append, checkFields, hf]
      rfl
    | cons g before ih =>
      obtain ⟨hg, hbefore⟩ := List.forall_mem_cons.mp hbefore
      rw [List.cons_append, checkFields_cons_of_isBody hg]
      exact ih hbefore
  have hversionOk : checkField ⟨.beginString, version⟩ = .ok () :=
    checkField_eq_ok_iff.mpr
      ⟨hversion, show Tag.beginString ≠ .bodyLength by decide, show Tag.beginString ≠ _ by decide⟩
  have htypeOk : checkField ⟨.msgType, type⟩ = .ok () :=
    checkField_eq_ok_iff.mpr
      ⟨htype, show Tag.msgType ≠ .bodyLength by decide, show Tag.msgType ≠ _ by decide⟩
  have hchecks : checkFields [] (listed version type (before ++ f :: after)) = .error e := by
    unfold listed
    rw [checkFields_cons_of_isHeader hversionOk rfl List.not_mem_nil,
      checkFields_cons_of_isHeader htypeOk rfl (show Tag.msgType ∉ [Tag.beginString] by decide)]
    exact hpass _
  rw [encode, hchecks]
  rfl

end Wire

namespace CompId

/-- A name that is not usable is refused as the value of a field. -/
theorem exists_checkField_error {id : CompId} (h : ¬ IsUsable id.text) (tag : Tag) :
    ∃ e, Wire.checkField ⟨tag, id.bytes⟩ = .error e ∧ e.tag = tag := by
  cases hcheck : Wire.checkField ⟨tag, id.bytes⟩ with
  | error e => exact ⟨e, rfl, Wire.tag_of_checkField hcheck⟩
  | ok _ =>
    obtain ⟨hwritable, -⟩ := Wire.checkField_eq_ok_iff.mp hcheck
    refine absurd ⟨fun hempty => hwritable.value_ne_nil ?_, id.fits, hwritable.soh_not_mem⟩ h
    show Utf8.bytes id.text = []
    rw [hempty]
    rfl

/-- A usable name may stand in a body. -/
theorem IsUsable.isBody {id : CompId} (h : IsUsable id.text) {tag : Tag} (htag : tag ≠ 0)
    (hplace : tag ∉ [Tag.beginString, .bodyLength, .msgType, .checkSum]) :
    Wire.IsBody ⟨tag, id.bytes⟩ :=
  Wire.isBody_of_tag (writable (isUsable_iff.mp h) htag) hplace

end CompId

namespace Session

variable {σ : Type} [MessageStore σ] {s t : Session σ} {type : MsgType} {body : List Field}
  {now : Moment} {e : EncodeError}

/-- An encoding error of a call that sends is one of encoding the message. -/
theorem encode_of_emit_error (h : emit type body now s = .error (.encode e) t) :
    Wire.encode (s.header type s.sequences.nextOutgoing now.utc ++ body) = .error e := by
  have hends : Ends (emit type body now) s (fun _ _ => True) fun err _ => ∀ e', err = .encode e' →
      Wire.encode (s.header type s.sequences.nextOutgoing now.utc ++ body) = .error e' := by
    refine ends_emit.mpr ⟨fun frame _ => ⟨fun _ _ => trivial, ?_⟩, ?_⟩
    · intro _ _ _ e' heq
      cases heq
    · intro err herror e' heq
      rw [herror]
      exact congrArg _ (Error.encode.inj heq)
  unfold Ends at hends
  rw [h] at hends
  exact hends e rfl

/-- A message that cannot be encoded is refused, and nothing changes. -/
theorem emit_of_encode_error
    (h : Wire.encode (s.header type s.sequences.nextOutgoing now.utc ++ body) = .error e) :
    emit type body now s = .error (.encode e) s := by
  show EStateM.bind (Call.ofExcept .encode (Wire.encode _)) _ s = _
  rw [h]
  rfl

/-- With usable names, no message is refused for one of them. -/
theorem tag_of_emit_error (hsender : CompId.IsUsable s.config.sender.text)
    (htarget : CompId.IsUsable s.config.target.text)
    (hbody : ∀ f ∈ body, f.tag ≠ .senderCompId ∧ f.tag ≠ .targetCompId)
    (h : emit type body now s = .error (.encode e) t) :
    e.tag ≠ .senderCompId ∧ e.tag ≠ .targetCompId := by
  have hsenderOk := Wire.checkField_of_isBody
    (hsender.isBody (show Tag.senderCompId ≠ 0 by decide) (by decide))
  have htargetOk := Wire.checkField_of_isBody
    (htarget.isBody (show Tag.targetCompId ≠ 0 by decide) (by decide))
  rcases Wire.mem_of_encode_error (encode_of_emit_error h) with htag | ⟨f, hmem, htag, hf⟩
  · rcases htag with htag | htag
    · rw [htag]
      decide
    · rw [htag]
      decide
  · rw [← htag]
    rcases List.mem_append.mp hmem with hmem | hmem
    · simp only [header, List.mem_cons, List.not_mem_nil, or_false] at hmem
      rcases hmem with rfl | rfl | rfl | rfl | rfl | rfl
      · exact show Tag.beginString ≠ _ ∧ Tag.beginString ≠ _ by decide
      · exact show Tag.msgType ≠ _ ∧ Tag.msgType ≠ _ by decide
      · rw [hsenderOk] at hf
        cases hf
      · rw [htargetOk] at hf
        cases hf
      · exact show Tag.msgSeqNum ≠ _ ∧ Tag.msgSeqNum ≠ _ by decide
      · exact show Tag.sendingTime ≠ _ ∧ Tag.sendingTime ≠ _ by decide
    · exact hbody f hmem

/-- With a name that is not usable, every message whose type can be written is refused for it, and
nothing changes. -/
theorem exists_emit_error (hvalid : s.config.validate = .ok ())
    (hnames : ¬ (CompId.IsUsable s.config.sender.text ∧ CompId.IsUsable s.config.target.text))
    (htype : Field.Writable (.ofText .msgType type.code)) (body : List Field) (now : Moment) :
    ∃ e, emit type body now s = .error (.encode e) s ∧
      (e.tag = .senderCompId ∨ e.tag = .targetCompId) := by
  obtain ⟨hne, hsoh, -⟩ := SessionConfig.validate_eq_ok_iff.mp hvalid
  have hversion : Field.Writable ⟨.beginString, Utf8.bytes s.config.beginString⟩ :=
    ⟨show Tag.beginString ≠ 0 by decide, fun hnil => hne (Utf8.bytes_injective hnil), hsoh⟩
  obtain ⟨after, hafter⟩ : ∃ after, s.addressed s.sequences.nextOutgoing now.utc ++ body =
      ⟨.senderCompId, s.config.sender.bytes⟩ :: ⟨.targetCompId, s.config.target.bytes⟩ :: after :=
    ⟨_, rfl⟩
  by_cases hsender : CompId.IsUsable s.config.sender.text
  · have htarget : ¬ CompId.IsUsable s.config.target.text := fun htarget =>
      hnames ⟨hsender, htarget⟩
    obtain ⟨e, he, htag⟩ := CompId.exists_checkField_error htarget .targetCompId
    have hfront : ∀ g ∈ [(⟨.senderCompId, s.config.sender.bytes⟩ : Field)], Wire.IsBody g := by
      intro g hg
      rw [List.mem_singleton.mp hg]
      exact hsender.isBody (show Tag.senderCompId ≠ 0 by decide) (by decide)
    refine ⟨e, emit_of_encode_error ?_, .inr htag⟩
    rw [header_append, hafter, ← List.singleton_append]
    exact Wire.encode_listed_of_error hversion htype hfront he
  · obtain ⟨e, he, htag⟩ := CompId.exists_checkField_error hsender .senderCompId
    have hfront : ∀ g ∈ ([] : List Field), Wire.IsBody g := nofun
    refine ⟨e, emit_of_encode_error ?_, .inl htag⟩
    rw [header_append, hafter, ← List.nil_append (_ :: _ :: after)]
    exact Wire.encode_listed_of_error hversion htype hfront he

/-- The ways to a name, and what a session can send under it. Texts make names exactly if they are
usable; JSON makes a name of every text of at most 32 bytes, usable or not. A valid session with
usable names refuses no message for a name, as long as the message brings no names of its own; and
one whose names are not both usable refuses every message whose type can be written. -/
theorem emit_refuses_unusable (s : Session σ) (hvalid : s.config.validate = .ok ()) :
    (∀ text id, CompId.ofText? text = some id ↔ CompId.IsUsable text ∧ id.text = text) ∧
      (∀ text, (∃ json id, JsonForm.readText? CompId json = some id ∧ id.text = text) ↔
        (Utf8.bytes text).length ≤ 32) ∧
      (CompId.IsUsable s.config.sender.text ∧ CompId.IsUsable s.config.target.text →
        ∀ type body now e t, (∀ f ∈ body, f.tag ≠ .senderCompId ∧ f.tag ≠ .targetCompId) →
          emit type body now s = .error (.encode e) t →
          e.tag ≠ .senderCompId ∧ e.tag ≠ .targetCompId) ∧
      (¬ (CompId.IsUsable s.config.sender.text ∧ CompId.IsUsable s.config.target.text) →
        ∀ type body now, Field.Writable (.ofText .msgType type.code) →
          ∃ e, emit type body now s = .error (.encode e) s ∧
            (e.tag = .senderCompId ∨ e.tag = .targetCompId)) := by
  refine ⟨fun text id => CompId.ofText?_iff_isUsable, CompId.exists_readText?_iff, ?_, ?_⟩
  · rintro ⟨hsender, htarget⟩ type body now e t hbody h
    exact tag_of_emit_error hsender htarget hbody h
  · intro hnames type body now htype
    exact exists_emit_error hvalid hnames htype body now

end Session

namespace Sample

/-- A side without a name. -/
def nameless : SessionConfig :=
  { initiator with sender := ⟨"", by decide +kernel⟩ }

end Sample

namespace Session

open Sample in
/-- The empty name is read from JSON; the session that has it is valid and sends no heartbeat. -/
theorem emit_refuses_unusable_nameless :
    JsonForm.readText? CompId "\"\"" = some nameless.sender ∧ nameless.validate = .ok () ∧
      ∃ e, emit .heartbeat [] moment (.fresh nameless MemoryStore.empty 0) =
        .error (.encode e) (.fresh nameless MemoryStore.empty 0) ∧
          (e.tag = .senderCompId ∨ e.tag = .targetCompId) := by
  have hvalid : nameless.validate = .ok () := by
    refine eq_ok_of_toOption ?_
    decide +kernel
  have hprint : JsonForm.print nameless.sender = "\"\"" := by decide +kernel
  have hread : JsonForm.readText? CompId "\"\"" = some nameless.sender :=
    hprint ▸ JsonForm.readText?_print_compId nameless.sender
  refine ⟨hread, hvalid, ?_⟩
  have h := emit_refuses_unusable (.fresh nameless MemoryStore.empty 0) hvalid
  exact h.2.2.2 (fun hnames => hnames.1.ne_empty rfl) .heartbeat [] moment
    ⟨by decide, by decide +kernel, by decide +kernel⟩

end Session

end FixProtocol
