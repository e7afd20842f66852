import Colloquy.Text.CodeRange

/-!
# Blanks

Words are held apart by the characters of the Unicode property `White_Space`. Zero-width
characters, such as U+200B and U+FEFF, are not among them and belong to the word they stand in.
-/

namespace Colloquy.Text

def blankRanges : List CodeRange := [
  ⟨0x0009, 0x000D⟩, ⟨0x0020, 0x0020⟩, ⟨0x0085, 0x0085⟩, ⟨0x00A0, 0x00A0⟩, ⟨0x1680, 0x1680⟩,
  ⟨0x2000, 0x200A⟩, ⟨0x2028, 0x2029⟩, ⟨0x202F, 0x202F⟩, ⟨0x205F, 0x205F⟩, ⟨0x3000, 0x3000⟩]

/-- `c` separates words. -/
def isBlank (c : Char) : Bool := inRanges blankRanges c

theorem isBlank_space : isBlank ' ' = true := by decide

theorem isBlank_newline : isBlank '\n' = true := by decide

end Colloquy.Text
