/-!
# Semantic values

What a spoken form stands for: a whole number or a text.
-/

namespace Colloquy

inductive Value
  | int (n : Int)
  | text (s : String)
  deriving DecidableEq, Repr

namespace Value

/-- The value as a reply speaks it. -/
def shown : Value → String
  | .int n => toString n
  | .text s => s

def asInt? : Value → Option Int
  | .int n => some n
  | .text _ => none

def asText? : Value → Option String
  | .int _ => none
  | .text s => some s

end Value

end Colloquy
