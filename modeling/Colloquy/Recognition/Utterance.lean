import Colloquy.Recognition.Basic
import Colloquy.Recognition.Search

/-!
# Recognition of an utterance

A typed utterance is recognized if the patterns of the grammar can be laid over its words. The
report spells constrained words as the grammar does and free ones as they were typed; it is the less
confident, the more of the words were free.
-/

namespace Colloquy

open Text

/-! ## Confidence -/

/-- The number of words taken by free patterns. -/
def freeWords (patterns : List Pattern) (spans : List Span) : Nat :=
  ((patterns.zip spans).map fun (p, span) =>
    if p.isFree then span.stop - span.start else 0).foldr (· + ·) 0

/-- Half of the share of free words is lost from certainty, which is computed in the numbers `R`. -/
def certainty {R : Type} [OfScientific R] [Sub R] [Mul R] [Div R] (ofNat : Nat → R)
    (free total : Nat) : R :=
  1.0 - 0.5 * ofNat free / ofNat total

/-! ## Reports -/

/-- The report on typed words that were matched with the given spans. -/
def Recognition.ofSpans (typed : List String) (patterns : List Pattern) (spans : List Span) :
    Recognition :=
  let slots := (patterns.zip spans).zipIdx.map fun ((p, span), node) =>
    ⟨node, p.transcribe typed span, span.choice⟩
  { text := spaced (slots.map (·.text))
    confidence := certainty Float32.ofNat (freeWords patterns spans) typed.length
    slots }

/-- The report on an utterance of the given words. -/
def Grammar.recognizeWords (g : Grammar) (typed : List String) : Option Recognition :=
  (Pattern.search g.patterns 0 (typed.map lowercase)).map (.ofSpans typed g.patterns)

/-- The report on a line of text, if the grammar accepts it. A line without words is no
utterance. -/
def Grammar.recognize (g : Grammar) (line : String) : Option Recognition :=
  match words line with
  | [] => none
  | typed => g.recognizeWords typed

end Colloquy
