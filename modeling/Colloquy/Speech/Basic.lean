/-!
# Speeches

What a voice is asked to say: plain text, or text with markup for emphasis and pauses. Either way
there is a transcript, the words without the markup, for those who read along.
-/

namespace Colloquy

inductive Speech
  | plain (text : String)
  | marked (markup transcript : String)
  deriving DecidableEq, Repr

namespace Speech

/-- What the voice is given. -/
def contents : Speech → String
  | .plain text => text
  | .marked markup _ => markup

/-- What the listener hears. -/
def transcript : Speech → String
  | .plain text => text
  | .marked _ transcript => transcript

def isMarked : Speech → Bool
  | .plain _ => false
  | .marked _ _ => true

end Speech

end Colloquy
