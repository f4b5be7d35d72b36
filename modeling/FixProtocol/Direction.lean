/-!
# Directions

- `Direction`: which way a message travels, seen from one side of a session.
-/

namespace FixProtocol

/-- Which way a message travels. -/
inductive Direction where
  | inbound
  | outbound
deriving DecidableEq, Repr

namespace Direction

/-- The name of a direction, in lower case. -/
def name : Direction → String
  | inbound => "inbound"
  | outbound => "outbound"

end Direction

end FixProtocol
