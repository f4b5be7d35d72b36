import FixProtocol.Text.Utf8
import FixProtocol.Wire.Framing
import Mathlib.Data.List.Induction
import Mathlib.Logic.Function.Iterate

/-!
# Streams in chunks

A stream arrives in chunks, and after each chunk all frames that the buffer yields are taken. Where
the stream is cut does not matter for the frames: a frame stays the same when more bytes follow, and
where an error was found no frame would ever have come.

- `Framing.feed`: a run over the chunks of a stream, up to its end or its first error.
- `Framing.next_append`, `Framing.next_of_append`: what more bytes do to an answer.
- `Framing.Intact`: what was yielded and what is buffered are what was pushed, and each frame has
  the shape of one; every call keeps it.
- `Framing.feed_agrees`: the frames of a stream do not depend on its chunks.
-/

namespace FixProtocol

namespace Bytes

theorem cut_append_of_some {b : UInt8} {bs front rest : Bytes} (h : cut b bs = some (front, rest))
    (more : Bytes) : cut b (bs ++ more) = some (front, rest ++ more) := by
  obtain ⟨hfront, rfl⟩ := cut_eq_some_iff.mp h
  exact cut_eq_some_iff.mpr ⟨hfront, by rw [List.append_assoc, List.cons_append]⟩

/-- When the delimiter is still to come, all bytes are before it. -/
theorem length_le_of_cut_append {b : UInt8} {bs more front rest : Bytes} (hnone : cut b bs = none)
    (h : cut b (bs ++ more) = some (front, rest)) : bs.length ≤ front.length := by
  obtain ⟨_, heq⟩ := cut_eq_some_iff.mp h
  rw [cut_eq_none_iff] at hnone
  by_contra hlt
  rw [Nat.not_le] at hlt
  have hget : (bs ++ more)[front.length]? = some b := by
    rw [heq, List.getElem?_append_right (Nat.le_refl _), Nat.sub_self]
    rfl
  rw [List.getElem?_append_left hlt] at hget
  exact hnone (List.mem_of_getElem? hget)

theorem atLeast_eq_false_iff {n : Nat} {bs : Bytes} : bs.atLeast n = false ↔ bs.length < n := by
  rw [← Bool.not_eq_true, atLeast_iff, Nat.not_le]

end Bytes

namespace Framing

variable {limit size : Nat} {bs more frame rest : Bytes}

/-! ## Frames and more bytes -/

/-- What the first two fields of a buffer say when they are complete: a version, and a length in at
most nine digits that the limit allows. -/
structure Head (limit : Nat) (bs : Bytes) (version digits : Bytes) (length : Nat) : Prop where
  mark : bs.take 2 = versionMark
  begun : ∃ afterVersion, Bytes.cut Bytes.soh bs = some (version, afterVersion) ∧
    afterVersion.take 2 = lengthMark ∧
    ∃ afterLength, Bytes.cut Bytes.soh (afterVersion.drop 2) = some (digits, afterLength)
  length_digits : digits.length ≤ maxLengthDigits
  denotes : Numeral.natural? digits = some length
  le_limit : version.length + digits.length + 4 + length + trailerLength ≤ limit

theorem two_le_length {mark : Bytes} (hmark : mark.length = 2) (h : bs.take 2 = mark) :
    2 ≤ bs.length := by
  have := congrArg List.length h
  rw [List.length_take, hmark] at this
  omega

/-- Less than the mark of a version says nothing about the size. -/
theorem frameSize_of_lt_two (h : bs.length < 2) : frameSize limit bs = .ok none := by
  rw [frameSize, Bytes.atLeast_eq_false_iff.mpr h]
  rfl

section Fields
variable {version tail digits after : Bytes} {length : Nat} (hmark : bs.take 2 = versionMark)
include hmark

/-- A version that has not ended yet is waited for up to the limit. -/
theorem frameSize_of_version_open (hopen : Bytes.cut Bytes.soh bs = none) :
    frameSize limit bs =
      if limit < bs.length then .error (.messageTooLarge bs.length limit) else .ok none := by
  rw [frameSize, Bytes.atLeast_iff.mpr (two_le_length rfl hmark), hmark, hopen]
  rfl

variable (hcut : Bytes.cut Bytes.soh bs = some (version, tail))
include hcut

/-- The mark of the length is waited for. -/
theorem frameSize_of_tail_lt_two (h : tail.length < 2) : frameSize limit bs = .ok none := by
  rw [frameSize, Bytes.atLeast_iff.mpr (two_le_length rfl hmark), hmark, hcut]
  dsimp only
  rw [Bytes.atLeast_eq_false_iff.mpr h]
  rfl

variable (hlength : tail.take 2 = lengthMark)
include hlength

/-- A length that has not ended yet is waited for up to nine digits. -/
theorem frameSize_of_length_open (hopen : Bytes.cut Bytes.soh (tail.drop 2) = none) :
    frameSize limit bs =
      if maxLengthDigits < (tail.drop 2).length then .error .invalidBodyLength else .ok none := by
  rw [frameSize, Bytes.atLeast_iff.mpr (two_le_length rfl hmark), hmark, hcut]
  dsimp only
  rw [Bytes.atLeast_iff.mpr (two_le_length rfl hlength), hlength, hopen]
  rfl

/-- Of a length that has ended the number of its digits is checked, and then the limit. -/
theorem frameSize_of_length (hdigits : Bytes.cut Bytes.soh (tail.drop 2) = some (digits, after))
    (hdenotes : Numeral.natural? digits = some length) :
    frameSize limit bs =
      if maxLengthDigits < digits.length then .error .invalidBodyLength
      else if limit < version.length + digits.length + 4 + length + trailerLength then
        .error (.messageTooLarge
          (version.length + digits.length + 4 + length + trailerLength) limit)
      else .ok (some (version.length + digits.length + 4 + length + trailerLength)) := by
  rw [frameSize, Bytes.atLeast_iff.mpr (two_le_length rfl hmark), hmark, hcut]
  dsimp only
  rw [Bytes.atLeast_iff.mpr (two_le_length rfl hlength), hlength, hdigits]
  dsimp only
  rw [hdenotes]
  rfl

end Fields

/-- The size of a frame is known exactly when its first two fields are complete and right. -/
theorem frameSize_eq_some_iff :
    frameSize limit bs = .ok (some size) ↔
      ∃ version digits length, Head limit bs version digits length ∧
        size = version.length + digits.length + 4 + length + trailerLength := by
  constructor
  · intro h
    unfold frameSize at h
    split at h
    · cases h
    · split at h
      · cases h
      · next hmark =>
        split at h
        · split at h <;> cases h
        · next version afterVersion hversion =>
          split at h
          · cases h
          · split at h
            · cases h
            · next hlengthMark =>
              split at h
              · split at h <;> cases h
              · next digits afterLength hdigits =>
                split at h
                · cases h
                · next hcount =>
                  split at h
                  · cases h
                  · next length hlength =>
                    dsimp only at h
                    split at h
                    · cases h
                    · next hlimit =>
                      refine ⟨version, digits, length, ⟨Decidable.not_not.mp hmark,
                        ⟨afterVersion, hversion, Decidable.not_not.mp hlengthMark, afterLength,
                          hdigits⟩, Nat.not_lt.mp hcount, hlength, Nat.not_lt.mp hlimit⟩, ?_⟩
                      exact (Option.some.inj (Except.ok.inj h)).symm
  · rintro ⟨version, digits, length, ⟨hmark, hbegun, hcount, hlength, hlimit⟩, rfl⟩
    obtain ⟨afterVersion, hversion, hlengthMark, afterLength, hdigits⟩ := hbegun
    rw [frameSize_of_length hmark hversion hlengthMark hdigits hlength,
      if_neg (Nat.not_lt.mpr hcount), if_neg (Nat.not_lt.mpr hlimit)]

theorem Head.append {version digits : Bytes} {length : Nat}
    (h : Head limit bs version digits length) (more : Bytes) :
    Head limit (bs ++ more) version digits length := by
  obtain ⟨afterVersion, hversion, hmark, afterLength, hdigits⟩ := h.begun
  refine { h with mark := ?_, begun := ⟨afterVersion ++ more, ?_, ?_, afterLength ++ more, ?_⟩ }
  · rw [List.take_append_of_le_length (two_le_length rfl h.mark), h.mark]
  · exact Bytes.cut_append_of_some hversion more
  · rw [List.take_append_of_le_length (two_le_length rfl hmark), hmark]
  · rw [List.drop_append_of_le_length (two_le_length rfl hmark)]
    exact Bytes.cut_append_of_some hdigits more

/-- A size that is known does not change when more bytes follow. -/
theorem frameSize_append (h : frameSize limit bs = .ok (some size)) (more : Bytes) :
    frameSize limit (bs ++ more) = .ok (some size) := by
  obtain ⟨version, digits, length, hhead, hsize⟩ := frameSize_eq_some_iff.mp h
  exact frameSize_eq_some_iff.mpr ⟨version, digits, length, hhead.append more, hsize⟩

/-- Where a size will be known there is no error on the way: what arrives first either says the size
already or is waited with. -/
theorem frameSize_of_append (h : frameSize limit (bs ++ more) = .ok (some size)) :
    frameSize limit bs = .ok none ∨ frameSize limit bs = .ok (some size) := by
  obtain ⟨version, digits, length, hhead, rfl⟩ := frameSize_eq_some_iff.mp h
  obtain ⟨hmark, ⟨afterVersion, hversion, hlengthMark, afterLength, hdigits⟩, hcount, hlength,
    hlimit⟩ := hhead
  by_cases htwo : 2 ≤ bs.length
  · have hmark : bs.take 2 = versionMark := by
      rw [← hmark, List.take_append_of_le_length htwo]
    cases hcut : Bytes.cut Bytes.soh bs with
    | none =>
      -- All of these bytes belong to the version, which the limit allows.
      have hle := Bytes.length_le_of_cut_append hcut hversion
      rw [frameSize_of_version_open hmark hcut]
      exact .inl (if_neg (show ¬ limit < bs.length by omega))
    | some cut =>
      obtain ⟨front, rest⟩ := cut
      obtain ⟨rfl, rfl⟩ := Prod.mk.inj
        (Option.some.inj ((Bytes.cut_append_of_some hcut more).symm.trans hversion))
      by_cases hle : 2 ≤ rest.length
      · rw [List.take_append_of_le_length hle] at hlengthMark
        rw [List.drop_append_of_le_length hle] at hdigits
        cases hcut' : Bytes.cut Bytes.soh (rest.drop 2) with
        | none =>
          -- All of these bytes belong to the digits, of which there are at most nine.
          have hle := Bytes.length_le_of_cut_append hcut' hdigits
          rw [frameSize_of_length_open hmark hcut hlengthMark hcut']
          exact .inl (if_neg (show ¬ maxLengthDigits < (rest.drop 2).length by omega))
        | some cut =>
          obtain ⟨found, after⟩ := cut
          obtain ⟨rfl, rfl⟩ := Prod.mk.inj
            (Option.some.inj ((Bytes.cut_append_of_some hcut' more).symm.trans hdigits))
          exact .inr (frameSize_eq_some_iff.mpr ⟨front, found, length,
            ⟨hmark, ⟨rest, hcut, hlengthMark, after, hcut'⟩, hcount, hlength, hlimit⟩, rfl⟩)
      · exact .inl (frameSize_of_tail_lt_two hmark hcut (Nat.not_le.mp hle))
  · exact .inl (frameSize_of_lt_two (Nat.not_le.mp htwo))

/-- A buffer starts with a frame exactly when its size is known, all of it is there, and it ends
with a trailer. -/
theorem next_eq_some_iff :
    next limit bs = .ok (some (frame, rest)) ↔
      bs = frame ++ rest ∧ frameSize limit bs = .ok (some frame.length) ∧
        isTrailer (frame.drop (frame.length - trailerLength)) = true := by
  unfold next
  constructor
  · intro h
    split at h
    · cases h
    · cases h
    · next size hsize =>
      split at h
      · cases h
      · next hlength =>
        have hle : size ≤ bs.length := by simpa using hlength
        split at h
        · cases h
        · next htrailer =>
          obtain ⟨rfl, rfl⟩ := Prod.mk.inj (Option.some.inj (Except.ok.inj h))
          rw [List.length_take, Nat.min_eq_left hle]
          refine ⟨(List.take_append_drop size bs).symm, hsize, ?_⟩
          simpa using htrailer
  · rintro ⟨rfl, hsize, htrailer⟩
    have hlength : (frame ++ rest).atLeast frame.length = true := by
      rw [Bytes.atLeast_iff, List.length_append]
      exact Nat.le_add_right ..
    rw [hsize]
    dsimp only
    rw [hlength, List.take_left, List.drop_left, htrailer]
    rfl

/-- A frame stays the same when more bytes follow. -/
theorem next_append (h : next limit bs = .ok (some (frame, rest))) (more : Bytes) :
    next limit (bs ++ more) = .ok (some (frame, rest ++ more)) := by
  obtain ⟨hbs, hsize, htrailer⟩ := next_eq_some_iff.mp h
  refine next_eq_some_iff.mpr ⟨?_, frameSize_append hsize more, htrailer⟩
  rw [hbs, List.append_assoc]

/-- Where a frame will come there is no error on the way: it is waited for, or it is there. -/
theorem next_of_append (h : next limit (bs ++ more) = .ok (some (frame, rest))) :
    next limit bs = .ok none ∨
      ∃ before, rest = before ++ more ∧ next limit bs = .ok (some (frame, before)) := by
  obtain ⟨hbs, hsize, htrailer⟩ := next_eq_some_iff.mp h
  by_cases hle : frame.length ≤ bs.length
  · rcases frameSize_of_append hsize with hwait | hknown
    · refine .inl ?_
      rw [next, hwait]
    · obtain ⟨before, rfl⟩ : frame <+: bs :=
        List.prefix_of_prefix_length_le (hbs ▸ List.prefix_append frame rest)
          (List.prefix_append bs more) hle
      refine .inr ⟨before, ?_, next_eq_some_iff.mpr ⟨rfl, hknown, htrailer⟩⟩
      rw [List.append_assoc] at hbs
      exact (List.append_cancel_left hbs).symm
  · refine .inl ?_
    rcases frameSize_of_append hsize with hwait | hknown
    · rw [next, hwait]
    · have hshort : bs.atLeast frame.length = false := by
        rw [← Bool.not_eq_true, Bytes.atLeast_iff]
        exact hle
      rw [next, hknown]
      dsimp only
      rw [hshort]
      rfl

/-! ## All frames of a buffer -/

theorem frames_of_some (h : next limit bs = .ok (some (frame, rest))) :
    frames limit bs =
      { frames limit rest with frames := frame :: (frames limit rest).frames } := by
  rw [frames]
  split
  · next heq => rw [h] at heq; cases heq
  · next heq => rw [h] at heq; cases heq
  · next heq =>
    rw [h] at heq
    cases heq
    rfl

theorem frames_of_none (h : next limit bs = .ok none) : frames limit bs = ⟨[], bs, none⟩ := by
  rw [frames]
  split
  · next heq => rw [h] at heq; cases heq
  · rfl
  · next heq => rw [h] at heq; cases heq

theorem frames_of_error {e : FramingError} (h : next limit bs = .error e) :
    frames limit bs = ⟨[], bs, some e⟩ := by
  rw [frames]
  split
  · next heq =>
    rw [h] at heq
    cases heq
    rfl
  · next heq => rw [h] at heq; cases heq
  · next heq => rw [h] at heq; cases heq

namespace Yield

/-- Nothing has arrived. -/
def start : Yield :=
  ⟨[], [], none⟩

/-- A chunk arrives. -/
def push (y : Yield) (chunk : Bytes) : Yield :=
  { y with rest := y.rest ++ chunk }

/-- One call for a frame. After an error there are none. -/
def call (limit : Nat) (y : Yield) : Yield :=
  match y.stop with
  | some _ => y
  | none =>
    match Framing.next limit y.rest with
    | .error e => { y with stop := some e }
    | .ok none => y
    | .ok (some (frame, rest)) => { y with frames := y.frames ++ [frame], rest }

/-- Takes all frames that the buffer yields. -/
def drain (limit : Nat) (y : Yield) : Yield :=
  { Framing.frames limit y.rest with frames := y.frames ++ (Framing.frames limit y.rest).frames }

/-- Taking all frames is calling often enough. The induction is on what the buffer yields. -/
theorem exists_calls_eq_drain {y : Yield} (h : y.stop = none) :
    ∃ calls, (call limit)^[calls] y = drain limit y := by
  obtain ⟨taken, bs, _⟩ := y
  subst h
  induction bs using Framing.frames.induct limit generalizing taken with
  | case1 bs e h =>
    refine ⟨1, ?_⟩
    rw [Function.iterate_one, call, drain, frames_of_error h]
    dsimp only
    rw [h, List.append_nil]
  | case2 bs h =>
    refine ⟨0, ?_⟩
    rw [Function.iterate_zero, id, drain, frames_of_none h, List.append_nil]
  | case3 bs frame rest h _ ih =>
    obtain ⟨calls, ih⟩ := ih (taken ++ [frame])
    refine ⟨calls + 1, ?_⟩
    have hcall : call limit ⟨taken, bs, none⟩ = ⟨taken ++ [frame], rest, none⟩ := by
      rw [call]
      dsimp only
      rw [h]
    rw [Function.iterate_succ_apply, hcall, ih, drain, drain, frames_of_some h, List.append_assoc]
    rfl

end Yield

/-- A buffer that more bytes follow yields what it yielded before, and then the rest with these
bytes. The induction is on what the buffer yields. -/
theorem frames_append (h : (frames limit bs).stop = none) (more : Bytes) :
    frames limit (bs ++ more) = ((frames limit bs).push more).drain limit := by
  induction bs using frames.induct limit with
  | case1 bs e herror =>
    rw [frames_of_error herror] at h
    cases h
  | case2 bs hwait =>
    rw [frames_of_none hwait]
    rfl
  | case3 bs frame rest hframe _ ih =>
    rw [frames_of_some hframe] at h ⊢
    rw [frames_of_some (next_append hframe more), ih h]
    rfl

/-- Where an error was found no further frame would have come. -/
theorem frames_append_of_stop (h : (frames limit bs).stop ≠ none) (more : Bytes) :
    (frames limit (bs ++ more)).frames = (frames limit bs).frames := by
  induction bs using frames.induct limit with
  | case1 bs e herror =>
    rw [frames_of_error herror]
    cases hnext : next limit (bs ++ more) with
    | error e' => rw [frames_of_error hnext]
    | ok answer =>
      cases answer with
      | none => rw [frames_of_none hnext]
      | some cut =>
        rcases next_of_append hnext with hwait | ⟨before, _, hframe⟩
        · rw [herror] at hwait
          cases hwait
        · rw [herror] at hframe
          cases hframe
  | case2 bs hwait =>
    rw [frames_of_none hwait] at h
    exact absurd rfl h
  | case3 bs frame rest hframe _ ih =>
    rw [frames_of_some hframe] at h ⊢
    rw [frames_of_some (next_append hframe more)]
    exact congrArg (frame :: ·) (ih h)

/-- On the way to a buffer that is all frames there is no error. -/
theorem stop_of_append (hstop : (frames limit (bs ++ more)).stop = none)
    (hrest : (frames limit (bs ++ more)).rest = []) : (frames limit bs).stop = none := by
  induction hwhole : bs ++ more using frames.induct limit generalizing bs with
  | case1 whole e herror =>
    rw [hwhole, frames_of_error herror] at hstop
    cases hstop
  | case2 whole hwait =>
    rw [hwhole, frames_of_none hwait] at hrest
    subst hrest
    rw [(List.append_eq_nil_iff.mp hwhole).1, frames_of_none hwait]
  | case3 whole frame rest hframe _ ih =>
    rw [hwhole, frames_of_some hframe] at hstop hrest
    rw [← hwhole] at hframe
    rcases next_of_append hframe with hwait | ⟨before, rfl, hbefore⟩
    · rw [frames_of_none hwait]
    · rw [frames_of_some hbefore]
      exact ih hstop hrest rfl

/-! ## Runs over chunks -/

/-- Chunks arrive one by one, and after each all frames that the buffer yields are taken. The first
error ends the run. -/
def feed (limit : Nat) (y : Yield) : List Bytes → Yield
  | [] => y
  | chunk :: chunks =>
    match y.stop with
    | some _ => y
    | none => feed limit ((y.push chunk).drain limit) chunks

theorem feed_of_stop {y : Yield} (h : y.stop ≠ none) (chunks : List Bytes) :
    feed limit y chunks = y := by
  cases chunks with
  | nil => rfl
  | cons chunk chunks =>
    rw [feed]
    split
    · rfl
    · next hnone => exact absurd hnone h

theorem feed_cons {y : Yield} (h : y.stop = none) (chunk : Bytes) (chunks : List Bytes) :
    feed limit y (chunk :: chunks) = feed limit ((y.push chunk).drain limit) chunks := by
  rw [feed, h]

theorem feed_append (y : Yield) (chunks more : List Bytes) :
    feed limit y (chunks ++ more) = feed limit (feed limit y chunks) more := by
  induction chunks generalizing y with
  | nil => rfl
  | cons chunk chunks ih =>
    by_cases h : y.stop = none
    · rw [List.cons_append, feed_cons h, feed_cons h, ih]
    · rw [feed_of_stop h, feed_of_stop h, feed_of_stop h]

theorem start_eq_frames (limit : Nat) : Yield.start = frames limit [] :=
  (frames_of_none rfl).symm

/-- A run yields the frames of the whole stream. What has been fed so far is a buffer that was read
at once, and the induction is on the chunks that follow. -/
theorem frames_feed (fed : Bytes) (chunks : List Bytes) :
    (feed limit (frames limit fed) chunks).frames =
      (frames limit (fed ++ chunks.flatten)).frames := by
  induction chunks generalizing fed with
  | nil => rw [List.flatten_nil, List.append_nil, feed]
  | cons chunk chunks ih =>
    by_cases h : (frames limit fed).stop = none
    · rw [feed_cons h, ← frames_append h, ih, List.flatten_cons, List.append_assoc]
    · rw [feed_of_stop h, frames_append_of_stop h]

/-- A run over a stream that is all frames ends as if the stream had been read at once. -/
theorem feed_eq_frames {fed : Bytes} {chunks : List Bytes}
    (hstop : (frames limit (fed ++ chunks.flatten)).stop = none)
    (hrest : (frames limit (fed ++ chunks.flatten)).rest = []) :
    feed limit (frames limit fed) chunks = frames limit (fed ++ chunks.flatten) := by
  induction chunks generalizing fed with
  | nil => rw [List.flatten_nil, List.append_nil, feed]
  | cons chunk chunks ih =>
    have h := stop_of_append hstop hrest
    rw [List.flatten_cons, ← List.append_assoc] at hstop hrest ⊢
    rw [feed_cons h, ← frames_append h, ih hstop hrest]

/-! ## What every moment keeps -/

/-- The shape of a frame: it starts with a version, the limit allows its size, and it ends with a
checksum of three bytes, whatever they are. -/
structure Framed (limit : Nat) (frame : Bytes) : Prop where
  begins : versionMark <+: frame
  le_limit : frame.length ≤ limit
  ends : ∃ a b c, checksumMark ++ [a, b, c, Bytes.soh] <:+ frame

theorem framed_of_next (h : next limit bs = .ok (some (frame, rest))) : Framed limit frame := by
  obtain ⟨rfl, hsize, htrailer⟩ := next_eq_some_iff.mp h
  have hle := le_of_frameSize hsize
  obtain ⟨version, digits, length, hhead, hlength⟩ := frameSize_eq_some_iff.mp hsize
  refine ⟨?_, hlength ▸ hhead.le_limit, ?_⟩
  · have hmark := hhead.mark
    rw [List.take_append_of_le_length (Nat.le_trans (by decide) hle)] at hmark
    exact hmark ▸ List.take_prefix 2 frame
  · have hcount : (frame.drop (frame.length - trailerLength)).length = 7 := by
      rw [List.length_drop, Nat.sub_sub_self (Nat.le_trans (Nat.le_add_left ..) hle)]
    have hsuffix := List.drop_suffix (frame.length - trailerLength) frame
    generalize frame.drop (frame.length - trailerLength) = trailer at htrailer hcount hsuffix
    match trailer, hcount with
    | [_, _, _, a, b, c, _], _ =>
      simp only [isTrailer, Bool.and_eq_true, decide_eq_true_eq, List.take_succ_cons,
        List.take_zero, checksumMark, List.getLast?_cons_cons, List.getLast?_singleton,
        Option.some.injEq, List.cons.injEq, and_true] at htrailer
      obtain ⟨⟨rfl, rfl, rfl⟩, rfl⟩ := htrailer
      exact ⟨a, b, c, hsuffix⟩

/-- What was yielded and what is buffered are together what was pushed, and each frame has the shape
of one. -/
structure Intact (limit : Nat) (pushed : Bytes) (y : Yield) : Prop where
  whole : y.frames.flatten ++ y.rest = pushed
  framed : ∀ frame ∈ y.frames, Framed limit frame

variable {pushed : Bytes} {y : Yield}

theorem Intact.push (h : Intact limit pushed y) (chunk : Bytes) :
    Intact limit (pushed ++ chunk) (y.push chunk) where
  whole := by
    rw [← h.whole, List.append_assoc]
    rfl
  framed := h.framed

theorem Intact.call (h : Intact limit pushed y) : Intact limit pushed (y.call limit) := by
  unfold Yield.call
  split
  · exact h
  · split
    · exact ⟨h.whole, h.framed⟩
    · exact h
    · next frame rest hnext =>
      refine ⟨?_, ?_⟩
      · have hrest := (next_eq_some_iff.mp hnext).1
        rw [← h.whole, hrest, List.flatten_append, List.flatten_singleton, List.append_assoc]
      · intro f hf
        rcases List.mem_append.mp hf with hf | hf
        · exact h.framed f hf
        · rw [List.mem_singleton.mp hf]
          exact framed_of_next hnext

theorem Intact.calls (h : Intact limit pushed y) (calls : Nat) :
    Intact limit pushed ((Yield.call limit)^[calls] y) := by
  induction calls with
  | zero => exact h
  | succ calls ih =>
    rw [Function.iterate_succ_apply']
    exact ih.call

/-- Where a run has come to after one chunk more, some calls have led. -/
theorem exists_calls_eq_feed {chunks : List Bytes} (h : (feed limit .start chunks).stop = none)
    (chunk : Bytes) :
    ∃ calls, (Yield.call limit)^[calls] ((feed limit .start chunks).push chunk) =
      feed limit .start (chunks ++ [chunk]) := by
  rw [feed_append, feed_cons h, feed]
  exact Yield.exists_calls_eq_drain (y := (feed limit .start chunks).push chunk) h

/-- Without an error every chunk has been pushed. The induction is on the chunks from the last. -/
theorem Intact.feed (chunks : List Bytes) (h : (feed limit .start chunks).stop = none) :
    Intact limit chunks.flatten (feed limit .start chunks) := by
  induction chunks using List.reverseRecOn with
  | nil => exact ⟨rfl, nofun⟩
  | append_singleton chunks chunk ih =>
    by_cases hbefore : (Framing.feed limit .start chunks).stop = none
    · obtain ⟨calls, hcalls⟩ := exists_calls_eq_feed hbefore chunk
      rw [← hcalls, List.flatten_append, List.flatten_singleton]
      exact ((ih hbefore).push chunk).calls calls
    · rw [feed_append, feed_of_stop hbefore] at h
      exact absurd h hbefore

/-- However a stream is cut into chunks, a run over them to the end or to its first error yields the
same frames. At every moment of the run, before it and after each call for a frame, what was yielded
and what is buffered are what was pushed, and each frame has the shape of one. -/
theorem feed_agrees (limit : Nat) :
    (∀ chunks₁ chunks₂ : List Bytes, chunks₁.flatten = chunks₂.flatten →
        (feed limit .start chunks₁).frames = (feed limit .start chunks₂).frames) ∧
      Intact limit [] .start ∧
      ∀ (chunks : List Bytes) (chunk : Bytes), (feed limit .start chunks).stop = none →
        (∀ calls, Intact limit (chunks.flatten ++ chunk)
          ((Yield.call limit)^[calls] ((feed limit .start chunks).push chunk))) ∧
        ∃ calls, (Yield.call limit)^[calls] ((feed limit .start chunks).push chunk) =
          feed limit .start (chunks ++ [chunk]) := by
  refine ⟨?_, ⟨rfl, nofun⟩, ?_⟩
  · intro chunks₁ chunks₂ hsame
    rw [start_eq_frames limit, frames_feed, frames_feed, hsame]
  · intro chunks chunk h
    exact ⟨fun calls => ((Intact.feed chunks h).push chunk).calls calls,
      exists_calls_eq_feed h chunk⟩

/-- A heartbeat, and then a length that is not there: in one chunk, and cut inside a mark and after
the frame. -/
theorem feed_agrees_heartbeat :
    let frame := Utf8.bytes "8=F\x019=5\x0135=0\x0110=062\x01"
    let whole := feed 64 .start [frame ++ Utf8.bytes "8=F\x01x="]
    let pieces := [frame.take 5, frame.drop 5 ++ Utf8.bytes "8=F", Utf8.bytes "\x01x="]
    whole.frames = (feed 64 .start pieces).frames ∧ whole.frames = [frame] ∧
      whole.stop = some .missingBodyLength ∧
      (feed 64 .start (pieces.take 2)).stop = none ∧
      ∀ calls, Intact 64 ((pieces.take 2).flatten ++ Utf8.bytes "\x01x=")
        ((Yield.call 64)^[calls]
          ((feed 64 .start (pieces.take 2)).push (Utf8.bytes "\x01x="))) :=
  ⟨(feed_agrees 64).1 _ _ (by decide +kernel), by decide +kernel, by decide +kernel,
    by decide +kernel, ((feed_agrees 64).2.2 _ _ (by decide +kernel)).1⟩

end Framing

end FixProtocol
