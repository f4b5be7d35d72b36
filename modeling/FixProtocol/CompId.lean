import FixProtocol.Text.Utf8

/-!
# Identities

A session is known by the protocol version it speaks and by the names of its two sides.

- `CompId`: the name of one side, at most 32 bytes long.
- `CompId.ofText?`: a name fit for the wire, neither empty nor holding the field delimiter.
- `SessionId`: the identity of a session, seen from one side.
-/

namespace FixProtocol

/-- The name of one side of a session. -/
structure CompId where
  text : String
  fits : (Utf8.bytes text).length ≤ 32
deriving DecidableEq

namespace CompId

/-- The greatest length of a name, in bytes. -/
abbrev maxLength : Nat := 32

/-- A name of at most 32 bytes. -/
def ofShort? (text : String) : Option CompId :=
  if h : (Utf8.bytes text).length ≤ 32 then some ⟨text, h⟩ else none

/-- A name that can stand on the wire: not empty, without the field delimiter, at most 32 bytes. -/
def ofText? (text : String) : Option CompId :=
  if text = "" ∨ Bytes.soh ∈ Utf8.bytes text then none else ofShort? text

/-- The bytes of a name. -/
def bytes (id : CompId) : Bytes :=
  Utf8.bytes id.text

/-- What is said of a text that is no name. -/
def refusal : String := "insufficient capacity"

theorem ofText?_eq_some_iff {text : String} {id : CompId} :
    ofText? text = some id ↔
      id.text = text ∧ text ≠ "" ∧ Bytes.soh ∉ id.bytes ∧ id.bytes.length ≤ maxLength := by
  unfold ofText? ofShort?
  constructor
  · split
    · simp
    · next h =>
      split
      · next hlen =>
        intro e
        obtain rfl := Option.some.inj e
        exact ⟨rfl, fun e => h (Or.inl e), fun hm => h (Or.inr hm), hlen⟩
      · simp
  · rintro ⟨rfl, hne, hsoh, hlen⟩
    rw [if_neg (by rintro (e | e) <;> contradiction)]
    exact dif_pos hlen

end CompId

/-- The identity of a session: its protocol version and its two sides. -/
structure SessionId where
  beginString : String
  sender : CompId
  target : CompId
deriving DecidableEq

namespace SessionId

/-- Shows an identity as `version:sender->target`. -/
def text (id : SessionId) : String :=
  id.beginString ++ ":" ++ id.sender.text ++ "->" ++ id.target.text

/-- The same session seen from the other side. -/
def reversed (id : SessionId) : SessionId :=
  { id with sender := id.target, target := id.sender }

end SessionId

end FixProtocol
