import FixProtocol.Proofs.Engine.Output
import FixProtocol.Proofs.Session.Readable
import FixProtocol.Proofs.Wire.Spelling

/-!
# How long frames are

Nothing bounds what the application sends, so nothing bounds the frame that carries it. What is sent
again is longer than what was kept by a few fields, and a gap fill is as long as the settings make
it. So whoever keeps only frames that leave room for these fields puts out no frame that is too long.

- `Resend.growth`, `Session.fillRoom`: how much longer a duplicate is, and how long a gap fill.
- `Session.Sized`: how long a frame is, measured by what is kept.
- `Session.sized_of_mem_produced`: every frame of every run is so long.
- `Session.lt_length_of_send`: the frame of a send is longer than its fields.
-/

namespace FixProtocol

namespace Numeral

/-- A number that is larger by at most 200 has at most two digits more. -/
theorem length_ofNat_le_add {k n : Nat} (h : k ≤ n + 200) :
    (ofNat k).length ≤ (ofNat n).length + 2 := by
  have hlt := lt_pow_length_ofNat n
  have hpos : 0 < (ofNat n).length := List.length_pos_iff.mpr (ofNat_ne_nil n)
  have hten : 10 ^ 1 ≤ 10 ^ (ofNat n).length := Nat.pow_le_pow_right (by decide) hpos
  refine length_ofNat_le (by omega) ?_
  rw [Nat.pow_add]
  omega

end Numeral

namespace Wire

/-- A body that is longer by at most 200 makes a frame that is longer by at most 202. -/
theorem length_frame_le_add {version body body' : Bytes} (h : body'.length ≤ body.length + 200) :
    (frame version body').length ≤ (frame version body).length + 202 := by
  have hdigits := Numeral.length_ofNat_le_add h
  rw [Framing.length_frame, Framing.length_frame]
  omega

end Wire

/-- How much longer a message gets at most when it is sent again. -/
def Resend.growth : Nat := 202

namespace Session

/-- How long a gap fill is at most, without its version. -/
def fillRoom : Nat := 900

variable {c : SessionConfig} {entries entries' : List (SeqNum × Bytes)} {limit : Nat}

/-- How long a frame is: it is kept, or repeats what is kept and is not much longer, or is as short
as a gap fill. -/
inductive Sized (c : SessionConfig) (entries : List (SeqNum × Bytes)) (frame : Bytes) : Prop where
  | kept {n : SeqNum} (h : (n, frame) ∈ entries)
  | again {n : SeqNum} {stored : Bytes} (h : (n, stored) ∈ entries)
      (hle : frame.length ≤ stored.length + Resend.growth)
  | fill (hle : frame.length ≤ (Utf8.bytes c.beginString).length + fillRoom)

theorem Sized.mono {frame : Bytes} (h : Sized c entries frame) (hsub : entries ⊆ entries') :
    Sized c entries' frame := by
  cases h with
  | kept h => exact .kept (hsub h)
  | again h hle => exact .again (hsub h) hle
  | fill hle => exact .fill hle

/-- If what is kept leaves room for what a duplicate has more, the limit allows every frame. -/
theorem Sized.length_le {frame : Bytes} (h : Sized c entries frame)
    (hkept : ∀ e ∈ entries, e.2.length + Resend.growth ≤ limit)
    (hfill : (Utf8.bytes c.beginString).length + fillRoom ≤ limit) : frame.length ≤ limit := by
  cases h with
  | kept h => exact Nat.le_trans (Nat.le_add_right ..) (hkept _ h)
  | again h hle => exact Nat.le_trans hle (hkept _ h)
  | fill hle => exact Nat.le_trans hle hfill

variable {I : Inputs} {s t : Session MemoryStore} {frame : Bytes} {n : SeqNum} {m : Message}

/-- A message that was written with a header is not much longer when it is sent again. -/
theorem length_duplicate_le {version : String} {stored : Bytes} {original : Message}
    {time : Timestamp} (hversion : c.beginString = version) (hheaded : Headed c n stored)
    (horiginal : Resend.resendable? version stored = some original)
    (hencode : (Resend.duplicate original time).encode = .ok frame) :
    frame.length ≤ stored.length + Resend.growth := by
  obtain ⟨hdecode, _⟩ := Resend.resendable?_eq_some_iff.mp horiginal
  obtain ⟨u, type, body, sent, rfl, hstored⟩ := hheaded
  subst hversion
  obtain ⟨_, rfl⟩ := (decode_header_iff hstored).mp hdecode
  rw [header_append] at hstored hencode
  rw [Resend.duplicate_listed] at hencode
  obtain ⟨_, rfl⟩ := Wire.encode_listed_iff.mp hstored
  obtain ⟨_, rfl⟩ := Wire.encode_listed_iff.mp hencode
  have hold : Message.get? ⟨u.addressed n sent ++ body⟩ .sendingTime =
    some (.ofTimestamp .sendingTime sent) := rfl
  have hlength := Resend.length_duplicate_le time hold
    (Field.length_ofTimestamp_le .sendingTime sent)
  refine Wire.length_frame_le_add ?_
  rw [Wire.length_fieldBytes_cons, Wire.length_fieldBytes_cons]
  omega

/-- A gap fill is short. -/
theorem length_gapFill_le {first following : SeqNum} {time : Timestamp}
    (hencode : (s.gapFill first following time).encode = .ok frame) :
    frame.length ≤ (Utf8.bytes s.config.beginString).length + fillRoom := by
  have hencode : Wire.encode
      (s.header .sequenceReset first time ++ fillBody following time) = .ok frame := hencode
  have hbody : (s.wireBody .sequenceReset first time (fillBody following time)).length ≤ _ :=
    s.length_wireBody_le first time _ (by decide)
  have hfill := length_fillBody_le following time
  have hdigits : (Numeral.ofNat
      (s.wireBody .sequenceReset first time (fillBody following time)).length).length ≤ 3 :=
    Numeral.length_ofNat_le (by decide) (by omega)
  rw [header_append] at hencode
  obtain ⟨_, rfl⟩ := Wire.encode_listed_iff.mp hencode
  rw [Framing.length_frame, fillRoom]
  show (Framing.versionMark ++ Utf8.bytes s.config.beginString).length +
    (Numeral.ofNat (s.wireBody .sequenceReset first time (fillBody following time)).length).length +
      4 + (s.wireBody .sequenceReset first time (fillBody following time)).length + 7 ≤ _
  rw [List.length_append, show Framing.versionMark.length = 2 from rfl]
  omega

/-- What was meant to have a number has its size. -/
theorem Meant.sized (hheaded : AllHeaded t) (h : Meant s t frame n m)
    (hcarries : Wire.Carries t.config.beginString frame m) :
    Sized t.config t.store.outbound.entries frame := by
  cases h with
  | fresh hkept => exact .kept hkept
  | again hkept horiginal =>
    exact .again hkept (length_duplicate_le rfl (hheaded _ hkept) horiginal hcarries.encoded)
  | fill => exact .fill (length_gapFill_le hcarries.encoded)

/-- Every frame that an operation puts out has its size. -/
theorem Stepped.sized {o : Outcome} (hheaded : AllHeaded t) (h : Stepped I s o t) :
    ∀ frame ∈ o.frames, Sized t.config t.store.outbound.entries frame := by
  intro frame hframe
  obtain ⟨n, m, hmeant, hcarries⟩ := h.meant frame hframe
  rw [← h.config_eq] at hcarries
  exact hmeant.sized hheaded hcarries

/-- What some operations put out, one of them put out. -/
theorem exists_step_of_mem_produced {σ : Type} [MessageStore σ] {s : Session σ}
    {ops : List Operation} (h : frame ∈ s.produced ops) :
    ∃ before op after, ops = before ++ op :: after ∧
      frame ∈ ((s.run before).2.step op).1.frames := by
  induction ops generalizing s with
  | nil => cases h
  | cons op ops ih =>
    rw [produced_cons] at h
    rcases List.mem_append.mp h with h | h
    · exact ⟨[], op, ops, rfl, h⟩
    · obtain ⟨before, op', after, rfl, hframe⟩ := ih h
      exact ⟨op :: before, op', after, rfl, hframe⟩

section Runs

variable {store : MemoryStore} {start : Nat} {s₀ : Session MemoryStore}
  (h : open? c store start = .ok s₀) {ops : List Operation} (hframe : frame ∈ s₀.produced ops)
include h hframe

/-- Every frame of a run of a new session is an encoded message. -/
theorem encoded_of_mem_produced : ∃ fs, Wire.encode fs = .ok frame := by
  obtain ⟨before, op, after, rfl, hput⟩ := exists_step_of_mem_produced hframe
  obtain ⟨n, m, _, hcarries⟩ := (stepped_any (sound_run_of_open h before) op).meant frame hput
  exact ⟨m.fields, hcarries.encoded⟩

/-- Every frame of a run of a new session has its size, if the store held only frames with the
header of the session. -/
theorem sized_of_mem_produced (hstore : ∀ e ∈ store.outbound.entries, Headed c e.1 e.2) :
    Sized c (s₀.run ops).2.store.outbound.entries frame := by
  obtain ⟨before, op, after, rfl, hput⟩ := exists_step_of_mem_produced hframe
  have hstepped : Stepped .any (s₀.run before).2 ((s₀.run before).2.step op).1
      ((s₀.run before).2.step op).2 := stepped_any (sound_run_of_open h before) op
  have hrun : (s₀.run (before ++ [op])).2 = ((s₀.run before).2.step op).2 := by
    rw [run_append]
    rfl
  have hconfig := config_run_of_open h (before ++ [op])
  have hheaded : AllHeaded (s₀.run (before ++ [op])).2 :=
    (ran_of_open h (before ++ [op])).keeps (fun hmove hs => hs.move hmove)
      (fun hfault hs => hs.fault hfault) (by
        obtain ⟨_, rfl⟩ := open?_eq_ok_iff.mp h
        exact hstore)
  have hsized := hstepped.sized (hrun ▸ hheaded) frame hput
  rw [← hrun, hconfig] at hsized
  -- What was kept then is kept at the end.
  have hsteady : Steady (s₀.run (before ++ [op])).2 := (steady_of_open h).run (before ++ [op])
  obtain ⟨written, hspent, _⟩ := spent_run hsteady after
  rw [← List.singleton_append, ← List.append_assoc, run_append]
  refine hsized.mono ?_
  rw [hspent.entries]
  exact List.subset_append_left _ _

end Runs

/-- What a send puts out is longer than its fields, whatever the settings say. -/
theorem lt_length_of_send {σ : Type} [MessageStore σ] {s : Session σ} {type : MsgType}
    {fields : List Field} {now : Moment}
    (h : (s.step (.send type fields now)).1 = .sent (.ok frame)) :
    (Wire.fieldBytes fields).length < frame.length := by
  have h : Outcome.sent ((Session.send type fields now).run s).1 = .sent (.ok frame) := h
  rcases run_cases (ends_send_emits (s := s) type fields now) with
    ⟨frame', _, hrun, _, _, _, hemits⟩ | ⟨e, _, hrun, _⟩
  · rw [hrun] at h
    cases h
    have hencode : Wire.encode
        (s.header type s.sequences.nextOutgoing now.utc ++ fields) = .ok frame :=
      hemits.carries.encoded
    rw [header_append] at hencode
    obtain ⟨_, rfl⟩ := Wire.encode_listed_iff.mp hencode
    rw [Framing.length_frame, Wire.length_fieldBytes_cons, Wire.length_fieldBytes_append]
    omega
  · rw [hrun] at h
    cases h

end Session

end FixProtocol
