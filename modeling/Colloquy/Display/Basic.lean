/-!
# Displays

A display shows, line by line, what is being said. Lines may be highlighted in a color; a highlight
stays until another one is set.
-/

namespace Colloquy

/-- The colors of a terminal. -/
inductive TermColor
  | red
  | green
  | blue
  deriving DecidableEq, Repr

/-- Why a line could not be written. -/
structure WriteFailure where
  reason : String
  deriving DecidableEq, Repr

/-- A display in the state `σ`. -/
class Display (σ : Type) where
  writeLine : String → σ → Except WriteFailure Unit × σ
  /-- Sets the color of the lines to come; none is the usual one. -/
  setHighlight : Option TermColor → σ → σ

end Colloquy
