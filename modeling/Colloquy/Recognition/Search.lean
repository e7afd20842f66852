import Colloquy.Recognition.Pattern

/-!
# The search for a match

Patterns are laid over an utterance from left to right. Each takes the first of its spans for which
the patterns after it can take all the words that are left.
-/

namespace Colloquy.Pattern

/-- The spans of `patterns` over all the words of `heard`, which begin at position `start`, if they
can be laid over them. -/
def search : List Pattern → (start : Nat) → (heard : List String) → Option (List Span)
  | [], _, [] => some []
  | [], _, _ :: _ => none
  | p :: patterns, start, heard =>
    (p.takes start heard).findSome? fun (span, rest) =>
      (search patterns span.stop rest).map (span :: ·)

end Colloquy.Pattern
