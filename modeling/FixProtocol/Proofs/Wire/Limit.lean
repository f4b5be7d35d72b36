import FixProtocol.Proofs.Wire.Spelling
import FixProtocol.Proofs.Wire.Stream

/-!
# Buffers and the limit

A limit bounds the frames that are taken from a buffer. It does not bound the buffer: once the
version has ended, the second field is waited for however long the version was. Such a buffer is
lost already, and an error is found when the second field would have been complete.

- `Framing.Waits`: the shapes of a buffer whose first frame is still to come.
- `Framing.next_eq_none_iff`: a buffer is waited with exactly if it has one of these shapes.
- `Framing.next_outgrown`: which buffers are waited with although they have outgrown the limit, and
  for how long.
- `Framing.length_rest_feed`: what that makes of the buffer at every moment of a run.
- `Framing.frames_encoded`, `Framing.feed_encoded`: a stream of encoded messages of any length is
  read up to the first message that does not fit.
-/

namespace FixProtocol

namespace Framing

variable {limit : Nat} {bs more version tail frame rest : Bytes}

/-! ## What is waited for -/

/-- The version has ended, and what follows it is the beginning of a length. -/
structure AwaitsLength (bs version tail : Bytes) : Prop where
  mark : bs.take 2 = versionMark
  cut : Bytes.cut Bytes.soh bs = some (version, tail)
  begun : tail.length < 2 ∨
    ∃ digits, tail = lengthMark ++ digits ∧ Bytes.soh ∉ digits ∧ digits.length ≤ maxLengthDigits

/-- What a buffer looks like whose first frame is still to come. -/
inductive Waits (limit : Nat) (bs : Bytes) : Prop where
  | mark (short : bs.length < 2)
  | version (mark : bs.take 2 = versionMark) (open_ : Bytes.soh ∉ bs) (within : bs.length ≤ limit)
  | length {version tail : Bytes} (awaits : AwaitsLength bs version tail)
  | body {size : Nat} (known : frameSize limit bs = .ok (some size)) (short : bs.length < size)

/-- The size of a frame is not known yet exactly when one of the first two fields is incomplete. -/
theorem frameSize_eq_none_iff :
    frameSize limit bs = .ok none ↔
      bs.length < 2 ∨
      (bs.take 2 = versionMark ∧ Bytes.soh ∉ bs ∧ bs.length ≤ limit) ∨
      ∃ version tail, AwaitsLength bs version tail := by
  constructor
  · intro h
    unfold frameSize at h
    split at h
    · next hshort => exact .inl (by simpa [Bytes.atLeast_eq_false_iff] using hshort)
    · split at h
      · cases h
      · next hmark =>
        have hmark := Decidable.not_not.mp hmark
        split at h
        · next hcut =>
          split at h
          · cases h
          · next hle => exact .inr (.inl ⟨hmark, Bytes.cut_eq_none_iff.mp hcut, Nat.not_lt.mp hle⟩)
        · next version tail hcut =>
          refine .inr (.inr ⟨version, tail, hmark, hcut, ?_⟩)
          split at h
          · next hshort => exact .inl (by simpa [Bytes.atLeast_eq_false_iff] using hshort)
          · split at h
            · cases h
            · next hlength =>
              split at h
              · next hdigits =>
                split at h
                · cases h
                · next hcount =>
                  refine .inr ⟨tail.drop 2, ?_, Bytes.cut_eq_none_iff.mp hdigits,
                    Nat.not_lt.mp hcount⟩
                  rw [← Decidable.not_not.mp hlength, List.take_append_drop]
              · dsimp only at h
                repeat' split at h
                all_goals cases h
  · rintro (hshort | ⟨hmark, hopen, hle⟩ | ⟨version, tail, hmark, hcut, hbegun⟩)
    · exact frameSize_of_lt_two hshort
    · rw [frameSize_of_version_open hmark (Bytes.cut_eq_none_iff.mpr hopen)]
      exact if_neg (Nat.not_lt.mpr hle)
    · obtain hshort | ⟨digits, rfl, hdigits, hcount⟩ := hbegun
      · exact frameSize_of_tail_lt_two hmark hcut hshort
      · have hopen : Bytes.cut Bytes.soh ((lengthMark ++ digits).drop 2) = none :=
          Bytes.cut_eq_none_iff.mpr hdigits
        rw [frameSize_of_length_open hmark hcut rfl hopen]
        exact if_neg (Nat.not_lt.mpr hcount)

/-- A buffer is waited with exactly if its first frame is still to come. -/
theorem next_eq_none_iff : next limit bs = .ok none ↔ Waits limit bs := by
  constructor
  · intro h
    unfold next at h
    split at h
    · cases h
    · next hnone =>
      obtain hshort | ⟨hmark, hopen, hle⟩ | ⟨version, tail, hawaits⟩ :=
        frameSize_eq_none_iff.mp hnone
      · exact .mark hshort
      · exact .version hmark hopen hle
      · exact .length hawaits
    · next size hsize =>
      split at h
      · next hshort =>
        exact .body hsize (by simpa [Bytes.atLeast_eq_false_iff] using hshort)
      · split at h <;> cases h
  · intro h
    have hnone (h : frameSize limit bs = .ok none) : next limit bs = .ok none := by rw [next, h]
    cases h with
    | mark hshort => exact hnone (frameSize_eq_none_iff.mpr (.inl hshort))
    | version hmark hopen hle =>
      exact hnone (frameSize_eq_none_iff.mpr (.inr (.inl ⟨hmark, hopen, hle⟩)))
    | length hawaits => exact hnone (frameSize_eq_none_iff.mpr (.inr (.inr ⟨_, _, hawaits⟩)))
    | body hsize hshort =>
      rw [next, hsize]
      dsimp only
      rw [Bytes.atLeast_eq_false_iff.mpr hshort]
      rfl

/-! ## Buffers that have outgrown the limit -/

/-- At most the mark and nine digits are there of a length that is not complete. -/
theorem AwaitsLength.length_tail_le (h : AwaitsLength bs version tail) :
    tail.length ≤ 2 + maxLengthDigits := by
  obtain hshort | ⟨digits, rfl, -, hcount⟩ := h.begun
  · omega
  · rw [List.length_append]
    exact Nat.add_le_add_left hcount 2

/-- A frame behind this version is longer than what is there without its length. -/
theorem AwaitsLength.lt_of_frameSize {size : Nat} (h : AwaitsLength bs version tail)
    (hsize : frameSize limit (bs ++ more) = .ok (some size)) : bs.length ≤ size ∧ size ≤ limit := by
  obtain ⟨found, digits, length, hhead, rfl⟩ := frameSize_eq_some_iff.mp hsize
  obtain ⟨after, hcut, -⟩ := hhead.begun
  obtain ⟨rfl, rfl⟩ := Prod.mk.inj
    (Option.some.inj ((Bytes.cut_append_of_some h.cut more).symm.trans hcut))
  have hdigits : digits ≠ [] := by
    rintro rfl
    have hnil : Numeral.natural? [] = none := rfl
    rw [hhead.denotes] at hnil
    cases hnil
  have := List.length_pos_iff.mpr hdigits
  have := Bytes.length_of_cut h.cut
  have := h.length_tail_le
  have := hhead.le_limit
  simp only [maxLengthDigits, trailerLength] at *
  omega

/-- With more bytes the length is complete, or what is there is still its beginning. -/
theorem AwaitsLength.of_append (h : AwaitsLength bs version tail)
    (hnone : frameSize limit (bs ++ more) = .ok none) :
    AwaitsLength (bs ++ more) version (tail ++ more) := by
  obtain hshort | ⟨-, hopen, -⟩ | ⟨version', tail', h'⟩ := frameSize_eq_none_iff.mp hnone
  · have := two_le_length rfl h.mark
    rw [List.length_append] at hshort
    omega
  · have hmem := (Bytes.cut_eq_some_iff.mp (Bytes.cut_append_of_some h.cut more)).2
    exact absurd (hmem ▸ List.mem_append_right version (List.mem_cons_self ..)) hopen
  · obtain ⟨rfl, rfl⟩ := Prod.mk.inj
      (Option.some.inj ((Bytes.cut_append_of_some h.cut more).symm.trans h'.cut))
    exact h'

/-- **What has outgrown the limit is a frame or an error, unless it awaits a length.** Such a buffer
never becomes a frame. It is waited with for at most eleven bytes more; then there is an error. -/
theorem next_outgrown (hlimit : 1 ≤ limit) (hgrown : limit < bs.length) :
    (next limit bs = .ok none ↔ ∃ version tail, AwaitsLength bs version tail) ∧
      (next limit bs = .ok none → ∀ more,
        (∃ e, next limit (bs ++ more) = .error e) ∨
          next limit (bs ++ more) = .ok none ∧ more.length ≤ 2 + maxLengthDigits) := by
  have hiff : next limit bs = .ok none ↔ ∃ version tail, AwaitsLength bs version tail := by
    constructor
    · intro h
      cases next_eq_none_iff.mp h with
      | mark hshort => omega
      | version _ _ hle => omega
      | length hawaits => exact ⟨_, _, hawaits⟩
      | body hsize hshort =>
        obtain ⟨_, _, _, hhead, rfl⟩ := frameSize_eq_some_iff.mp hsize
        have := hhead.le_limit
        omega
    · rintro ⟨version, tail, hawaits⟩
      exact next_eq_none_iff.mpr (.length hawaits)
  refine ⟨hiff, fun h more => ?_⟩
  obtain ⟨version, tail, hawaits⟩ := hiff.mp h
  unfold next
  split
  · next e _ => exact .inl ⟨e, rfl⟩
  · next hnone =>
    have := (hawaits.of_append hnone).length_tail_le
    rw [List.length_append] at this
    exact .inr ⟨rfl, by omega⟩
  · next size hsize =>
    -- The size would have to be within the limit and beyond the buffer.
    have := hawaits.lt_of_frameSize hsize
    omega

/-- A version that ends behind the limit. -/
theorem next_outgrown_version :
    let bs := Utf8.bytes "8=FIX.4.2-ABCDEFGHIJ\x01"
    1 ≤ 16 ∧ 16 < bs.length ∧ next 16 bs = .ok none ∧
      (∃ version tail, AwaitsLength bs version tail) ∧
      ∀ more, (∃ e, next 16 (bs ++ more) = .error e) ∨
        next 16 (bs ++ more) = .ok none ∧ more.length ≤ 2 + maxLengthDigits := by
  intro bs
  have hlimit : 1 ≤ 16 := by decide
  have hgrown : 16 < bs.length := by decide
  have hwaits : next 16 bs = .ok none := by decide
  have hoverdue := next_outgrown hlimit hgrown
  exact ⟨hlimit, hgrown, hwaits, hoverdue.1.mp hwaits, hoverdue.2 hwaits⟩

/-! ## What stays in the buffer of a run -/

/-- What a buffer yields leaves one that is waited with. -/
theorem next_rest_frames (h : (frames limit bs).stop = none) :
    next limit (frames limit bs).rest = .ok none := by
  induction bs using frames.induct limit with
  | case1 bs e herror =>
    rw [frames_of_error herror] at h
    cases h
  | case2 bs hwait =>
    rw [frames_of_none hwait]
    exact hwait
  | case3 bs frame rest hframe _ ih =>
    rw [frames_of_some hframe] at h ⊢
    exact ih h

/-- A run that starts with such a buffer and meets no error ends with one. -/
theorem next_rest_feed {y : Yield} (hy : next limit y.rest = .ok none) {chunks : List Bytes}
    (h : (feed limit y chunks).stop = none) : next limit (feed limit y chunks).rest = .ok none := by
  induction chunks generalizing y with
  | nil => exact hy
  | cons chunk chunks ih =>
    by_cases hstop : y.stop = none
    · rw [feed_cons hstop] at h ⊢
      by_cases hdrain : ((y.push chunk).drain limit).stop = none
      · exact ih (next_rest_frames hdrain) h
      · rw [feed_of_stop hdrain] at h
        exact absurd h hdrain
    · rw [feed_of_stop hstop] at h
      exact absurd h hstop

/-- At every moment of a run without an error the buffer is within the limit or awaits a length. -/
theorem length_rest_feed (hlimit : 1 ≤ limit) {chunks : List Bytes}
    (h : (feed limit .start chunks).stop = none) :
    (feed limit .start chunks).rest.length ≤ limit ∨
      ∃ version tail, AwaitsLength (feed limit .start chunks).rest version tail := by
  by_cases hle : (feed limit .start chunks).rest.length ≤ limit
  · exact .inl hle
  · exact .inr ((next_outgrown hlimit (Nat.not_le.mp hle)).1.mp (next_rest_feed rfl h))

/-! ## Streams of encoded messages of any length -/

/-- Does an encoded message fit, so that it can be cut off? -/
def fits (limit : Nat) (frame : Bytes) : Bool :=
  frame.length ≤ limit && (Wire.bodyLength? frame).all (· ≤ 999999999)

theorem framable_iff :
    Framable limit frame ↔ (∃ fs, Wire.encode fs = .ok frame) ∧ fits limit frame = true := by
  simp only [fits, Bool.and_eq_true, decide_eq_true_eq, Option.all_eq_true]
  constructor
  · intro h
    exact ⟨h.encoded, h.le_limit, h.length_le⟩
  · rintro ⟨hencoded, hlimit, hlength⟩
    exact ⟨hencoded, hlimit, hlength⟩

/-- What a frame says about its size, in full: the limit and the digits of its length decide. -/
theorem frameSize_frame (limit : Nat) (hversion : Bytes.soh ∉ version) (body rest : Bytes) :
    frameSize limit (Wire.frame version body ++ rest) =
      if maxLengthDigits < (Numeral.ofNat body.length).length then .error .invalidBodyLength
      else if limit < (Wire.frame version body).length then
        .error (.messageTooLarge (Wire.frame version body).length limit)
      else .ok (some (Wire.frame version body).length) := by
  obtain ⟨sum, -, hframe⟩ := frame_eq version body
  have hmark : Bytes.soh ∉ versionMark ++ version := by
    rw [List.mem_append, not_or]
    exact ⟨by decide, hversion⟩
  obtain ⟨after, hbytes⟩ : ∃ after, Wire.frame version body ++ rest = (versionMark ++ version) ++
      Bytes.soh :: (lengthMark ++ (Numeral.ofNat body.length ++ Bytes.soh :: after)) :=
    ⟨body ++ (checksumMark ++ sum ++ [Bytes.soh]) ++ rest, by
      rw [hframe]
      simp only [List.append_assoc, List.cons_append]⟩
  have htake : (Wire.frame version body ++ rest).take 2 = versionMark := by
    rw [hbytes]
    rfl
  have hcut : Bytes.cut Bytes.soh (Wire.frame version body ++ rest) = _ :=
    hbytes ▸ Bytes.cut_append hmark _
  rw [frameSize_of_length htake hcut rfl (Bytes.cut_append (Numeral.soh_not_mem_ofNat _) after)
    (Numeral.natural?_ofNat _), length_frame]

/-- A length with at most nine digits is below ten to the ninth. -/
theorem le_of_length_ofNat {n : Nat} (h : (Numeral.ofNat n).length ≤ maxLengthDigits) :
    n ≤ 999999999 := by
  have hpow : 10 ^ (Numeral.ofNat n).length ≤ 10 ^ maxLengthDigits :=
    Nat.pow_le_pow_right (by decide) h
  exact Nat.le_of_lt_succ (Nat.lt_of_lt_of_le (Numeral.lt_pow_length_ofNat n) hpow)

/-- An encoded message that does not fit is an error, whatever follows it: its length has too many
digits, or says too much. -/
theorem next_of_not_fits {fs : List Field} (hencode : Wire.encode fs = .ok frame)
    (h : fits limit frame = false) (rest : Bytes) :
    next limit (frame ++ rest) = .error .invalidBodyLength ∨
      next limit (frame ++ rest) = .error (.messageTooLarge frame.length limit) := by
  obtain ⟨version, body, rfl, hversion, hlength⟩ := Wire.exists_frame_of_encode hencode
  have hhead := frameSize_frame limit hversion body rest
  by_cases hdigits : maxLengthDigits < (Numeral.ofNat body.length).length
  · rw [if_pos hdigits] at hhead
    exact .inl (by rw [next, hhead])
  · have hfew := le_of_length_ofNat (Nat.not_lt.mp hdigits)
    have hlong : limit < (Wire.frame version body).length := by
      by_contra hle
      simp [fits, hlength, hfew, Nat.not_lt.mp hle] at h
    rw [if_neg hdigits, if_pos hlong] at hhead
    exact .inr (by rw [next, hhead])

/-- A buffer of encoded messages yields those before the first that does not fit; it yields them all
exactly if all of them fit, and else ends with an error. -/
theorem frames_encoded (limit : Nat) {sent : List Bytes}
    (h : ∀ frame ∈ sent, ∃ fs, Wire.encode fs = .ok frame) :
    (frames limit sent.flatten).frames = sent.takeWhile (fits limit) ∧
      ((frames limit sent.flatten).stop = none ↔ ∀ frame ∈ sent, fits limit frame = true) := by
  induction sent with
  | nil =>
    rw [List.flatten_nil, frames_of_none rfl]
    exact ⟨rfl, fun _ => nofun, fun _ => rfl⟩
  | cons frame sent ih =>
    obtain ⟨hframe, hsent⟩ := List.forall_mem_cons.mp h
    rw [List.flatten_cons, List.forall_mem_cons]
    cases hfits : fits limit frame with
    | true =>
      rw [frames_of_some (next_of_framable (framable_iff.mpr ⟨hframe, hfits⟩) _),
        List.takeWhile_cons_of_pos hfits]
      exact ⟨congrArg (frame :: ·) (ih hsent).1, (ih hsent).2.trans (by simp)⟩
    | false =>
      obtain ⟨fs, hencode⟩ := hframe
      obtain ⟨e, herror⟩ : ∃ e, next limit (frame ++ sent.flatten) = .error e := by
        obtain he | he := next_of_not_fits hencode hfits sent.flatten
        · exact ⟨_, he⟩
        · exact ⟨_, he⟩
      rw [frames_of_error herror, List.takeWhile_cons_of_neg (by simp [hfits])]
      simp

/-- A run without an error ends as if the stream had been read at once. -/
theorem feed_eq_frames_of_stop {fed : Bytes} {chunks : List Bytes}
    (h : (feed limit (frames limit fed) chunks).stop = none) :
    feed limit (frames limit fed) chunks = frames limit (fed ++ chunks.flatten) := by
  induction chunks generalizing fed with
  | nil => rw [List.flatten_nil, List.append_nil, feed]
  | cons chunk chunks ih =>
    by_cases hstop : (frames limit fed).stop = none
    · rw [feed_cons hstop, ← frames_append hstop] at h ⊢
      rw [ih h, List.flatten_cons, List.append_assoc]
    · rw [feed_of_stop hstop] at h
      exact absurd h hstop

/-- **A reader gets what was sent before the first message that does not fit.** However a stream of
encoded messages is cut into chunks, a run over them yields these and no other, and it is without an
error exactly if all of them fit. -/
theorem feed_encoded {sent chunks : List Bytes}
    (h : ∀ frame ∈ sent, ∃ fs, Wire.encode fs = .ok frame) (hcut : chunks.flatten = sent.flatten) :
    (feed limit .start chunks).frames = sent.takeWhile (fits limit) ∧
      ((feed limit .start chunks).stop = none ↔ ∀ frame ∈ sent, fits limit frame = true) := by
  obtain ⟨hframes, hstop⟩ := frames_encoded limit h
  have hwhole : [] ++ chunks.flatten = sent.flatten := hcut
  constructor
  · rw [start_eq_frames limit, frames_feed, hwhole, hframes]
  · constructor
    · intro hnone
      rw [start_eq_frames limit] at hnone
      have heq := feed_eq_frames_of_stop hnone
      rw [heq, hwhole] at hnone
      exact hstop.mp hnone
    · intro hall
      rw [feed_framable (fun frame hf => framable_iff.mpr ⟨h frame hf, hall frame hf⟩) hcut]

end Framing

end FixProtocol
