import Colloquy.Display.ByteSink
import Colloquy.Text.Utf8

/-!
# The console

A display that writes its lines to a sink as UTF-8. A highlighted line stands between the escape
sequences that set a foreground color and reset it. What these are is a matter of the terminal.
-/

namespace Colloquy

open Text

/-- The colors `κ` are those of a terminal. -/
class Terminal (κ : Type) where
  /-- The escape sequence that sets a color. -/
  escapeSequence : κ → String
  /-- The escape sequence that ends a color. -/
  resetSequence : String

/-- A terminal with 256 colors. The colors are shown in their bright shades. -/
instance : Terminal TermColor where
  escapeSequence
    | .red => "\x1b[38;5;9m"
    | .green => "\x1b[38;5;10m"
    | .blue => "\x1b[38;5;12m"
  resetSequence := "\x1b[0m"

structure Console (κ : Type := TermColor) where
  sink : ByteSink
  highlight : Option κ
  deriving DecidableEq, Repr

namespace Console

variable {κ : Type}

/-- A console over an empty sink, without a highlight. -/
def new (capacity : Option Nat) : Console κ := ⟨.empty capacity, none⟩

def setHighlight (highlight : Option κ) (console : Console κ) : Console κ :=
  { console with highlight }

variable [Terminal κ]

/-- What is written for a line, in pieces. -/
def pieces (highlight : Option κ) (line : String) : List String :=
  match highlight with
  | none => [line, "\n"]
  | some color => [Terminal.escapeSequence color, line, Terminal.resetSequence κ, "\n"]

/-- Writes a line, up to the first piece that the sink does not take. -/
def writeLine (line : String) (console : Console κ) : Except WriteFailure Unit × Console κ :=
  let (answer, sink) := ByteSink.writeAll ((pieces console.highlight line).map utf8) console.sink
  (answer, { console with sink })

instance [Terminal TermColor] : Display Console where
  writeLine := writeLine
  setHighlight := setHighlight

end Console

end Colloquy
