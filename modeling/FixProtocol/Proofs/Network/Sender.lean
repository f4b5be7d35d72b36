import FixProtocol.Proofs.Session.Delivery
import FixProtocol.Proofs.Session.Frames
import FixProtocol.Session.Link

/-!
# What frames say of their sender

The outbound journal of a session only grows, and only by numbers that it has not passed. So what a
frame once said of the journal stays true: that a message is kept under its number, that it was sent
again, or that there is no application message in a range that was passed over.

- `Grows`: how a sender changes; `Stepped.grows` says that every operation changes it so.
- `Truthful`: what the message in a frame says is true of the journal.
- `Stepped.truthful`: every frame that is put out is truthful, and stays so by `Truthful.mono`.
-/

namespace FixProtocol

namespace Session

variable {I : Inputs} {s t u : Session MemoryStore} {r : Reaction}

/-! ## The journal grows -/

/-- The session is past this number: it keeps no message under it any more. -/
def Passed (s : Session MemoryStore) (n : SeqNum) : Prop :=
  n < s.sequences.nextOutgoing ∨ n ≤ s.store.outbound.last

/-- From `s` to `t` the outbound journal only grew, by messages that the session numbered. -/
structure Grows (s t : Session MemoryStore) : Prop where
  config : t.config = s.config
  entries : ∃ added, t.store.outbound.entries = s.store.outbound.entries ++ added ∧
    ∀ e ∈ added, Produced s.config e.1 e.2 ∧ ¬ s.Passed e.1
  passed : ∀ n, s.Passed n → t.Passed n

/-- What leaves the outbound side alone lets it grow by nothing. -/
theorem Grows.same (hconfig : t.config = s.config) (hstore : t.store.outbound = s.store.outbound)
    (hnext : t.sequences.nextOutgoing = s.sequences.nextOutgoing) : Grows s t where
  config := hconfig
  entries := ⟨[], by rw [hstore, List.append_nil], nofun⟩
  passed := by
    intro n hn
    unfold Passed at hn ⊢
    rw [hstore, hnext]
    exact hn

theorem Grows.refl (s : Session MemoryStore) : Grows s s :=
  .same rfl rfl rfl

theorem Grows.trans (h : Grows s t) (h' : Grows t u) : Grows s u where
  config := h'.config.trans h.config
  entries := by
    obtain ⟨added, hadded, hnew⟩ := h.entries
    obtain ⟨added', hadded', hnew'⟩ := h'.entries
    refine ⟨added ++ added', by rw [hadded', hadded, List.append_assoc], fun e he => ?_⟩
    rcases List.mem_append.mp he with he | he
    · exact hnew e he
    · obtain ⟨hproduced, hpassed⟩ := hnew' e he
      exact ⟨h.config ▸ hproduced, fun hp => hpassed (h.passed _ hp)⟩
  passed n hn := h'.passed n (h.passed n hn)

theorem Grows.mem (h : Grows s t) {e : SeqNum × Bytes} (he : e ∈ s.store.outbound.entries) :
    e ∈ t.store.outbound.entries := by
  obtain ⟨added, hadded, _⟩ := h.entries
  rw [hadded]
  exact List.mem_append_left _ he

theorem Writes.mono {T T' : MsgType → Prop} {type : MsgType} {body : List Field}
    (h : Writes T type body) (hT : ∀ type, T type → T' type) : Writes T' type body := by
  cases h with
  | logon => exact .logon _
  | heartbeat answer h => exact .heartbeat answer h
  | testRequest => exact .testRequest _
  | resendRequest => exact .resendRequest _ _
  | logout text => exact .logout text
  | application _ _ htype hcheck => exact .application _ _ (hT _ htype) hcheck

/-- A move lets the journal grow, where the application sends only messages of its own. -/
theorem Move.grows (hI : ∀ type, I.type type → isAppCode type) (h : Move I s r t) : Grows s t := by
  rcases h.outbound_cases with
    ⟨hstore, hnext⟩ | ⟨type, body, now, frame, j, hwrites, hencode, hj, rfl⟩
  · exact .same h.config_eq hstore hnext
  · obtain ⟨hlt, hlast⟩ := Journal.last_append hj
    refine ⟨rfl, ⟨[(s.sequences.nextOutgoing, frame)], Journal.entries_append hj, ?_⟩, ?_⟩
    · intro e he
      rw [List.mem_singleton.mp he]
      refine ⟨⟨⟨s.config, (), s.sequences, s.heartbeat, s.recovery, s.state, s.since,
        s.terminated⟩, type, body, now.utc, rfl, hwrites.mono hI, hencode⟩, ?_⟩
      -- The store kept the message, so it held nothing under its number or above.
      rintro (hn | hn)
      · exact UInt64.lt_irrefl _ hn
      · exact absurd hn (UInt64.not_le.mpr hlt)
    · intro n hn
      right
      show n ≤ j.last
      rw [hlast]
      rcases hn with hn | hn
      · exact UInt64.le_of_lt hn
      · exact UInt64.le_trans hn (UInt64.le_of_lt hlt)

theorem Fault.grows {e : Error} (h : Fault I s e t) : Grows s t :=
  .same h.config_eq h.outbound_eq.1 h.outbound_eq.2

/-! ## Frames tell the truth -/

/-- Every number from `first` up to the one before `following` is passed, and no application message
is kept under it. -/
structure Silent (s : Session MemoryStore) (first following : SeqNum) : Prop where
  lt : first < following
  passed : ∀ n, first ≤ n → n < following → s.Passed n
  none : ∀ e ∈ s.store.outbound.entries, first ≤ e.1 → e.1 < following →
    Resend.resendable? s.config.beginString e.2 = none

/-- What a message of the sender says of its journal. -/
inductive Tells (s : Session MemoryStore) : Message → Prop
  /-- It is kept under its number. -/
  | stored {n : SeqNum} {frame : Bytes} {m : Message} (h : (n, frame) ∈ s.store.outbound.entries)
      (hdecode : Message.decode s.config.beginString frame = .ok m) : Tells s m
  /-- It is sent again. -/
  | again {n : SeqNum} {frame : Bytes} {m : Message} (h : (n, frame) ∈ s.store.outbound.entries)
      (hresend : Resend.resendable? s.config.beginString frame = some m) (time : Timestamp) :
      Tells s (Resend.duplicate m time)
  /-- Nothing of the application is kept under the numbers that are passed over. -/
  | fill {first following : SeqNum} (h : Silent s first following) (time : Timestamp) :
      Tells s (s.gapFill first following time)

/-- The message in a frame, if there is one, says the truth. -/
def Truthful (s : Session MemoryStore) (frame : Bytes) : Prop :=
  ∀ m, Message.decode s.config.beginString frame = .ok m → Tells s m

theorem Silent.mono {first following : SeqNum} (hgrows : Grows s t) (h : Silent s first following) :
    Silent t first following where
  lt := h.lt
  passed n hfirst hn := hgrows.passed n (h.passed n hfirst hn)
  none := by
    intro e he hfirst hn
    obtain ⟨added, hadded, hnew⟩ := hgrows.entries
    rw [hgrows.config]
    rw [hadded] at he
    rcases List.mem_append.mp he with he | he
    · exact h.none e he hfirst hn
    -- What was added since stands under numbers that were not passed then.
    · exact absurd (h.passed e.1 hfirst hn) (hnew e he).2

theorem Tells.mono {m : Message} (hgrows : Grows s t) (h : Tells s m) : Tells t m := by
  cases h with
  | stored h hdecode => exact .stored (hgrows.mem h) (hgrows.config ▸ hdecode)
  | again h hresend time => exact .again (hgrows.mem h) (hgrows.config ▸ hresend) time
  | fill h time =>
    rw [← gapFill_congr hgrows.config]
    exact .fill (h.mono hgrows) time

/-- A truthful frame stays truthful. -/
theorem Truthful.mono {frame : Bytes} (hgrows : Grows s t) (h : Truthful s frame) :
    Truthful t frame := by
  intro m hm
  rw [hgrows.config] at hm
  exact (h m hm).mono hgrows

/-- What is sent again is truthful. -/
theorem truthful_of_answers {first last : SeqNum} (hfirst : .first ≤ first)
    (hlast : last ≤ s.sequences.nextOutgoing.previous) {item : ResendItem} {time : Timestamp}
    {frame : Bytes}
    (h : Resend.Answers first last ((s.store.outbound.range first last).map fun e =>
      (e.1, Resend.resendable? s.config.beginString e.2)) item)
    (hframe : (s.resendMessage time item).encode = .ok frame) : Truthful s frame := by
  intro m hm
  cases h with
  | again hmem =>
    obtain ⟨e, he, heq⟩ := List.mem_map.mp hmem
    obtain ⟨rfl, hresend⟩ := Prod.mk.inj heq
    have hstored := (Resend.resendable?_eq_some_iff.mp hresend).1
    rw [Resend.decode_duplicate hstored hframe hm]
    exact .again (Journal.mem_range_iff.mp he).1 hresend time
  | @fill a b hle hlt hb hnone =>
    rw [decode_gapFill hframe hm]
    -- A gap fill ends at the last number that was asked for at the latest, so nothing is passed
    -- over that was not looked up.
    have hle_last {n : SeqNum} (hn : n < b) : n ≤ last :=
      SeqNum.le_of_lt_of_le_succ hn hb
    have hpos : .first ≤ last :=
      UInt64.le_trans hfirst (UInt64.le_trans hle (hle_last hlt))
    refine .fill ⟨hlt, ?_, ?_⟩ time
    · intro n _ hn
      exact .inl (SeqNum.lt_of_le_previous hpos hlast (hle_last hn))
    intro e he hae heb
    have hrange : e ∈ s.store.outbound.range first last :=
      Journal.mem_range_iff.mpr ⟨he, UInt64.le_trans hle hae, hle_last heb⟩
    exact hnone (e.1, _) (List.mem_map_of_mem hrange) hae heb

/-- Every frame that a move puts out is truthful. -/
theorem Move.truthful (h : Move I s r t) : ∀ frame ∈ r.outbound, Truthful t frame := by
  cases h with
  | @write type body now frame store hwrites hencode hstore =>
    intro frame' hframe m hm
    rw [List.mem_singleton.mp hframe] at hm
    obtain ⟨j, hj, rfl⟩ := MemoryStore.append_eq_ok hstore
    refine .stored (n := s.sequences.nextOutgoing) ?_ hm
    show (s.sequences.nextOutgoing, frame) ∈ j.entries
    rw [Journal.entries_append hj]
    exact List.mem_append_right _ (List.mem_singleton_self _)
  | @serve first last now stored store frames hfirst hle hlast hrange hframes =>
    intro frame hframe
    obtain ⟨hstored, rfl⟩ := MemoryStore.range_eq hrange
    cases hstored
    obtain ⟨item, hitem, hencode⟩ := exists_of_mem_mapM hframes hframe
    have htop : last ≠ .top := SeqNum.ne_top_of_le_previous hlast
    have hanswers := Resend.answers_of_mem_plan htop ?_ ?_ hitem
    -- Answering changes the clock only, so the frames are as truthful after it as before.
    · have htruthful := truthful_of_answers hfirst hlast hanswers hencode
      exact Truthful.mono (s := s) (.same rfl rfl rfl) htruthful
    · rw [List.map_map]
      exact s.store.outbound.ascending_range first last
    · intro e he
      obtain ⟨e', he', rfl⟩ := List.mem_map.mp he
      exact (Journal.mem_range_iff.mp he').2
  | _ => exact nofun

theorem Moves.grows (hI : ∀ type, I.type type → isAppCode type) (h : Moves I s r t) :
    Grows s t := by
  induction h with
  | refl s => exact .refl s
  | cons head _ ih => exact (head.grows hI).trans ih

/-- Every frame that a chain of moves puts out is truthful at its end. -/
theorem Moves.truthful (hI : ∀ type, I.type type → isAppCode type) (h : Moves I s r t) :
    ∀ frame ∈ r.outbound, Truthful t frame := by
  induction h with
  | refl => exact nofun
  | cons head tail ih =>
    intro frame hframe
    rcases List.mem_append.mp hframe with hframe | hframe
    · exact (head.truthful frame hframe).mono (tail.grows hI)
    · exact ih frame hframe

/-- Every operation lets the journal grow. -/
theorem Stepped.grows (hI : ∀ type, I.type type → isAppCode type) {o : Outcome}
    (h : Stepped I s o t) : Grows s t := by
  cases h with
  | sent h => exact h.grows hI
  | refused h =>
    obtain rfl := h.eq
    exact .refl _
  | reacted h => exact h.grows hI
  | failed h now =>
    obtain ⟨_, u, hmoves, hfault⟩ := h
    exact ((hmoves.grows hI).trans hfault.grows).trans (.same rfl rfl rfl)
  | closed h => exact h.grows hI

/-- Every frame that an operation puts out is truthful. -/
theorem Stepped.truthful (hI : ∀ type, I.type type → isAppCode type) {o : Outcome}
    (h : Stepped I s o t) : ∀ frame ∈ o.frames, Truthful t frame := by
  cases h with
  | sent h => exact h.truthful hI
  | reacted h => exact h.truthful hI
  | _ => exact nofun

end Session

end FixProtocol
