/-!
# Recognitions

What an engine reports when it has heard a phrase: the transcript, how sure it is of it, and what it
heard in each slot. Nothing is assumed of a report; an engine may leave slots out, repeat them or
point to entries that do not exist.
-/

namespace Colloquy

/-- What was heard in the slot at position `node` of the grammar. `choice` is the position of the
entry that was spoken, if the engine knows it. -/
structure SlotMatch where
  node : Nat
  text : String
  choice : Option Nat
  deriving DecidableEq, Repr

structure Recognition where
  text : String
  confidence : Float32
  slots : List SlotMatch

end Colloquy
