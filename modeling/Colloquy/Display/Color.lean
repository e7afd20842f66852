import Colloquy.Display.Basic
import Colloquy.Grammar.Slot

/-!
# Colors

The colors that the dialog knows, by the codes that stand for them in a grammar, and the colors of a
terminal in which they are shown.
-/

namespace Colloquy

inductive Color
  | red
  | green
  | blue
  deriving DecidableEq, Repr

namespace Color

def all : List Color := [.red, .green, .blue]

/-- The number that stands for the color. -/
def code : Color → Int
  | .red => 1
  | .green => 2
  | .blue => 3

def ofCode? (code : Int) : Option Color := all.find? (·.code == code)

/-- The name of the color as it is written. -/
def label : Color → String
  | .red => "Red"
  | .green => "Green"
  | .blue => "Blue"

/-- The name of the color as it is said. -/
def spoken : Color → String
  | .red => "red"
  | .green => "green"
  | .blue => "blue"

/-- The color of the terminal that shows the color. -/
def style : Color → TermColor
  | .red => .red
  | .green => .green
  | .blue => .blue

/-- The colors as entries of a choice, each standing for its code. -/
def entries : List Entry := all.map fun c => ⟨c.spoken, .int c.code⟩

theorem ofCode?_code (c : Color) : ofCode? c.code = some c := by
  cases c <;> rfl

end Color

end Colloquy
