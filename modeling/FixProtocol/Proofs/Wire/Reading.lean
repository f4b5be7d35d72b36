import FixProtocol.Proofs.Wire.Spelling
import Mathlib.Logic.Function.Iterate

/-!
# Reading field by field

A reader of fields moves on past whole items only, and a reader that has met the end or an error
stays where it is. So the calls of a reader cut a prefix of its input into items, and from some call
on all answers are the same.

- `FieldReader.after`: the reader after so many calls.
- `FieldReader.Stops`: an answer that is no field.
- `FieldReader.next_cases`: one call, past an item or in place.
- `FieldReader.exists_items`: all calls of any reader, by the items that they take.
- `FieldReader.calls_tile`: all calls on a byte string, from its start.
-/

namespace FixProtocol

open Wire

namespace Wire

/-- An item has a tag, two delimiters and a value. -/
theorem Item.Valid.four_le_length {i : Item} (h : i.Valid) : 4 ≤ i.bytes.length := by
  have hdigits := List.length_pos_iff.mpr h.digits_ne_nil
  have hvalue := List.length_pos_iff.mpr h.value_ne_nil
  simp only [Item.bytes, List.length_append, List.length_cons, List.length_nil]
  omega

theorem four_mul_length_le {items : List Item} (h : ∀ i ∈ items, i.Valid) :
    4 * items.length ≤ (itemBytes items).length := by
  induction items with
  | nil => exact Nat.zero_le _
  | cons i items ih =>
    have hfirst := (h i List.mem_cons_self).four_le_length
    have hothers := ih fun j hj => h j (List.mem_cons_of_mem _ hj)
    rw [itemBytes_cons, List.length_append, List.length_cons]
    omega

/-- Nothing is at the end, and only there. -/
theorem takeField_eq_none_iff {bs : Bytes} : takeField bs = .ok none ↔ bs = [] := by
  constructor
  · intro h
    by_contra hne
    unfold takeField at h
    rw [if_neg hne] at h
    split at h
    · cases h
    · split at h
      · cases h
      · split at h
        · cases h
        · split at h <;> cases h
  · rintro rfl
    rfl

/-- Some first items stand at the front of all. -/
theorem itemBytes_take_append_drop (items : List Item) (k : Nat) :
    itemBytes (items.take k) ++ itemBytes (items.drop k) = itemBytes items := by
  rw [← itemBytes_append, List.take_append_drop]

end Wire

namespace FieldReader

/-- The reader after so many calls. -/
def after (r : FieldReader) (calls : Nat) : FieldReader :=
  (fun r => r.next.2)^[calls] r

/-- The answer is no field: the end of the input or an error. -/
def Stops (answer : Except DecodeError (Option Field)) : Prop :=
  ∀ f, answer ≠ .ok (some f)

variable {r : FieldReader} {i : Item} {rest : Bytes}

theorem after_succ (r : FieldReader) (k : Nat) : r.after (k + 1) = r.next.2.after k :=
  Function.iterate_succ_apply ..

theorem after_succ_next (r : FieldReader) (k : Nat) : r.after (k + 1) = (r.after k).next.2 :=
  Function.iterate_succ_apply' ..

/-- A reader that a call leaves in place is left there by all. -/
theorem after_of_next_eq (h : r.next.2 = r) (k : Nat) : r.after k = r :=
  Function.iterate_fixed h k

/-! ## One call -/

/-- The bytes of a tag end before the first equals sign. -/
theorem tagText_of_item (h : i.Valid) (hrest : r.rest = i.bytes ++ rest) :
    r.tagText = i.digits := by
  have hall : ∀ b ∈ i.digits, (b != Bytes.equalsSign) = true := by
    intro b hb
    have hne : b ≠ Bytes.equalsSign := fun e => h.equalsSign_not_mem (e ▸ hb)
    simpa using hne
  rw [tagText, hrest, i.bytes_append, List.takeWhile_append_of_pos hall,
    List.takeWhile_cons_of_neg (by simp), List.append_nil]

/-- At an item the reader answers with its field and moves on past it. -/
theorem next_of_item (h : i.Valid) (hrest : r.rest = i.bytes ++ rest) :
    r.next = (.ok (some i.field), ⟨r.offset + i.bytes.length, rest⟩) := by
  have hlength : i.bytes.length = r.tagText.length + 1 + i.field.value.length + 1 := by
    rw [tagText_of_item h hrest]
    simp only [Item.bytes, Item.field, List.length_append, List.length_cons, List.length_nil]
    omega
  rw [next, hrest, takeField_item h, hlength]

/-- A reader stands at an item and moves on past it, or it stays and answers with no field: with an
error, or at the end with nothing. -/
theorem next_cases (r : FieldReader) :
    (∃ (i : Item) (rest : Bytes), i.Valid ∧ r.rest = i.bytes ++ rest ∧
      r.next = (.ok (some i.field), ⟨r.offset + i.bytes.length, rest⟩)) ∨
    (Stops r.next.1 ∧ r.next.2 = r ∧ (r.next.1 = .ok none ↔ r.rest = [])) := by
  by_cases hend : r.rest = []
  · have hnext : r.next = (.ok none, r) := by rw [next, hend, takeField, if_pos rfl]
    rw [hnext]
    refine .inr ⟨?_, rfl, iff_of_true rfl hend⟩
    intro f h
    cases h
  · rcases takeField_cases r.rest with ⟨tag, reason, herror⟩ | hnone | ⟨i, rest, hi, hrest⟩
    · have hnext : r.next = (.error (.malformedField tag reason), r) := by rw [next, herror]
      rw [hnext]
      refine .inr ⟨?_, rfl, iff_of_false ?_ hend⟩
      · intro f h
        cases h
      · intro h
        cases h
    · exact absurd (takeField_eq_none_iff.mp hnone) hend
    · exact .inl ⟨i, rest, hi, hrest, next_of_item hi hrest⟩

/-! ## All calls -/

variable {bs : Bytes} {items : List Item} {stop : Except DecodeError (Option Field)}

/-- The items that the calls of a reader take, what it leaves, and the answer at which it stops. -/
structure Reads (r : FieldReader) (items : List Item) (rest : Bytes)
    (stop : Except DecodeError (Option Field)) : Prop where
  valid : ∀ i ∈ items, i.Valid
  bytes_eq : r.rest = itemBytes items ++ rest
  stops : Stops stop
  stop_eq_none_iff : stop = .ok none ↔ rest = []
  answer : ∀ k, (r.after k).next.1 = items[k]?.elim stop fun i => .ok (some i.field)
  offset : ∀ k, (r.after k).offset = r.offset + (itemBytes (items.take k)).length

/-- A reader that stops takes nothing. -/
theorem reads_nil (hstops : Stops r.next.1) (hstays : r.next.2 = r)
    (hend : r.next.1 = .ok none ↔ r.rest = []) : Reads r [] r.rest r.next.1 where
  valid := nofun
  bytes_eq := rfl
  stops := hstops
  stop_eq_none_iff := hend
  answer k := by
    rw [after_of_next_eq hstays, List.getElem?_nil]
    rfl
  offset k := by
    rw [after_of_next_eq hstays, List.take_nil]
    rfl

/-- A reader at an item takes it, and then what the reader behind it takes. -/
theorem Reads.cons (hi : i.Valid) (hrest : r.rest = i.bytes ++ rest) {left : Bytes}
    (h : Reads ⟨r.offset + i.bytes.length, rest⟩ items left stop) :
    Reads r (i :: items) left stop where
  valid := List.forall_mem_cons.mpr ⟨hi, h.valid⟩
  bytes_eq := by
    have hbytes : rest = itemBytes items ++ left := h.bytes_eq
    rw [hrest, hbytes, itemBytes_cons, List.append_assoc]
  stops := h.stops
  stop_eq_none_iff := h.stop_eq_none_iff
  answer k := by
    have hnext := next_of_item hi hrest
    cases k with
    | zero => exact congrArg Prod.fst hnext
    | succ k => rw [after_succ, hnext, h.answer k, List.getElem?_cons_succ]
  offset k := by
    cases k with
    | zero => rfl
    | succ k =>
      rw [after_succ, next_of_item hi hrest, h.offset k, List.take_succ_cons, itemBytes_cons,
        List.length_append]
      exact Nat.add_assoc ..

/-- All calls of any reader. The induction is on the number of bytes that it has not read, which
every item lowers. -/
theorem exists_items (r : FieldReader) : ∃ items rest stop, Reads r items rest stop := by
  induction hn : r.rest.length using Nat.strongRecOn generalizing r with
  | ind n ih =>
    rcases r.next_cases with ⟨i, rest, hi, hrest, -⟩ | ⟨hstops, hstays, hend⟩
    · have hshort : rest.length < n := by
        have hlong := hi.four_le_length
        rw [← hn, hrest, List.length_append]
        omega
      obtain ⟨items, left, stop, h⟩ := ih _ hshort ⟨r.offset + i.bytes.length, rest⟩ rfl
      exact ⟨i :: items, left, stop, h.cons hi hrest⟩
    · exact ⟨[], r.rest, r.next.1, reads_nil hstops hstays hend⟩

/-- The offset is the length of the items that were taken. -/
theorem Reads.offset_eq (h : Reads (ofBytes bs) items rest stop) (k : Nat) :
    ((ofBytes bs).after k).offset = (itemBytes (items.take k)).length := by
  rw [h.offset k]
  exact Nat.zero_add _

/-- What was read is the input up to the offset. -/
theorem Reads.take_offset (h : Reads (ofBytes bs) items rest stop) (k : Nat) :
    bs.take ((ofBytes bs).after k).offset = itemBytes (items.take k) := by
  have hbytes : bs = itemBytes items ++ rest := h.bytes_eq
  rw [h.offset_eq]
  conv_lhs => rw [hbytes, ← itemBytes_take_append_drop items k, List.append_assoc]
  exact List.take_left

/-- The reader stays within the input. -/
theorem Reads.offset_le (h : Reads (ofBytes bs) items rest stop) (k : Nat) :
    ((ofBytes bs).after k).offset ≤ bs.length := by
  rw [h.offset_eq, ← h.take_offset]
  exact List.length_take_le' ..

theorem Reads.length_eq (h : Reads (ofBytes bs) items rest stop) :
    bs.length = (itemBytes items).length + rest.length := by
  have hbytes : bs = itemBytes items ++ rest := h.bytes_eq
  rw [hbytes, List.length_append]

/-- The next call of a reader of `bs` takes the item `i`: it answers with the field that the item
writes, whose tag is the number of the item's digits, and moves on over the bytes of the item. -/
structure Takes (bs : Bytes) (r : FieldReader) (i : Item) : Prop where
  valid : i.Valid
  answer : r.next.1 = .ok (some i.field)
  tag : i.field.tag ≠ 0 ∧ i.field.tag.toNat = i.number
  offset_lt : r.offset < r.next.2.offset
  offset_le : r.next.2.offset ≤ bs.length
  bytes_eq : (bs.take r.next.2.offset).drop r.offset = i.bytes

/-- The next call of a reader of `bs` takes nothing: it answers with an error, or at the end and
only there with no field, and leaves the reader as it is. -/
structure Stays (bs : Bytes) (r : FieldReader) : Prop where
  stops : Stops r.next.1
  stays : r.next.2 = r
  stop_eq_none_iff : r.next.1 = .ok none ↔ r.offset = bs.length

/-- A call for which there is an item left takes it. -/
theorem Reads.takes (h : Reads (ofBytes bs) items rest stop) {k : Nat} (hk : items[k]? = some i) :
    Takes bs ((ofBytes bs).after k) i := by
  have hi : i.Valid := h.valid i (List.mem_of_getElem? hk)
  have hlonger : items.take (k + 1) = items.take k ++ [i] := by
    rw [List.take_add_one, hk, Option.toList_some]
  have hbytes : itemBytes (items.take (k + 1)) = itemBytes (items.take k) ++ i.bytes := by
    rw [hlonger, itemBytes_append, itemBytes_cons]
    exact congrArg _ (List.append_nil _)
  have hnumber := hi.toNat_tag
  refine ⟨hi, ?_, ⟨?_, hnumber⟩, ?_, ?_, ?_⟩
  · rw [h.answer k, hk]
    rfl
  · intro hzero
    have hpos := hi.number_pos
    rw [← hnumber, hzero] at hpos
    exact absurd hpos (by decide)
  · have hlong := hi.four_le_length
    rw [← after_succ_next, h.offset_eq, h.offset_eq, hbytes, List.length_append]
    omega
  · rw [← after_succ_next]
    exact h.offset_le (k + 1)
  · rw [← after_succ_next, h.take_offset, h.offset_eq, hbytes]
    exact List.drop_left

/-- A call for which no item is left takes nothing. -/
theorem Reads.stays (h : Reads (ofBytes bs) items rest stop) {k : Nat} (hk : items[k]? = none) :
    Stays bs ((ofBytes bs).after k) := by
  have hanswer : ((ofBytes bs).after k).next.1 = stop := by
    rw [h.answer k, hk]
    rfl
  have hall : items.take k = items :=
    List.take_of_length_le (List.getElem?_eq_none_iff.mp hk)
  refine ⟨hanswer ▸ h.stops, ?_, ?_⟩
  · rcases ((ofBytes bs).after k).next_cases with ⟨j, _, _, _, hnext⟩ | ⟨_, hstays, _⟩
    · rw [hnext] at hanswer
      exact absurd hanswer.symm (h.stops j.field)
    · exact hstays
  · have hlength := h.length_eq
    rw [hanswer, h.stop_eq_none_iff, h.offset_eq, hall, ← List.length_eq_zero_iff]
    omega

/-- Calls on any byte string, from its start. Each call takes the item at the reader, within the
input, or leaves the reader as it is. The items are at most a quarter as many as the bytes, the
calls answer with their fields one by one, and then with the end or an error for ever; and up to its
offset the input consists of the items that were taken. -/
theorem calls_tile (bs : Bytes) :
    (∀ k, (∃ i, Takes bs ((ofBytes bs).after k) i) ∨ Stays bs ((ofBytes bs).after k)) ∧
      ∃ (items : List Item) (stop : Except DecodeError (Option Field)),
        4 * items.length ≤ bs.length ∧ Stops stop ∧ ∀ k,
        ((ofBytes bs).after k).next.1 = items[k]?.elim stop (fun i => .ok (some i.field)) ∧
          ((ofBytes bs).after k).offset ≤ bs.length ∧
          bs.take ((ofBytes bs).after k).offset = itemBytes (items.take k) := by
  obtain ⟨items, rest, stop, h⟩ := exists_items (ofBytes bs)
  constructor
  · intro k
    cases hk : items[k]? with
    | some i => exact .inl ⟨i, h.takes hk⟩
    | none => exact .inr (h.stays hk)
  · have hmany := four_mul_length_le h.valid
    have hlength := h.length_eq
    exact ⟨items, stop, by omega, h.stops, fun k => ⟨h.answer k, h.offset_le k, h.take_offset k⟩⟩

end FieldReader

end FixProtocol
