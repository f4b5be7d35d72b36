import FixProtocol.Text.Visible

/-!
# Quoted text

A text inside an error message stands in double quotes, and characters in it that cannot be seen
are escaped.

- `Quoted.text s`: the text in quotes, with escapes.
-/

namespace FixProtocol.Quoted

/-- The escape of a hidden character: its code in lower-case hexadecimal. -/
def escapeCode (c : Char) : String :=
  "\\u\x7b" ++ String.ofList (Nat.toDigits 16 c.toNat) ++ "\x7d"

/-- A character as it stands between quotes. -/
def escape (c : Char) : String :=
  if c = '"' then "\\\""
  else if c = '\\' then "\\\\"
  else if c = '\t' then "\\t"
  else if c = '\n' then "\\n"
  else if c = '\r' then "\\r"
  else if c = '\x00' then "\\0"
  else if Visible.isVisible c then c.toString
  else escapeCode c

/-- The text in double quotes. -/
def text (s : String) : String :=
  "\"" ++ String.join (s.toList.map escape) ++ "\""

end FixProtocol.Quoted
