/-!
# Faults of a grammar

The mistakes that are found while a grammar is composed.
-/

namespace Colloquy.Grammar

inductive Fault
  /-- A literal, or a spoken form of a choice, has no words. -/
  | emptyLiteral
  /-- A choice has no entries. -/
  | emptyChoice
  /-- Two entries of a choice are spoken alike. The later one is given, as it was written. -/
  | duplicateSpokenForm (spoken : String)
  /-- Two slots of a grammar have the same key. -/
  | duplicateKey (grammar key : String)
  /-- A grammar has no slots. -/
  | emptyGrammar (name : String)
  deriving DecidableEq, Repr

def Fault.message : Fault → String
  | .emptyLiteral => "literal phrase is empty"
  | .emptyChoice => "choice set has no entries"
  | .duplicateSpokenForm spoken =>
    "spoken form \"" ++ spoken ++ "\" appears more than once in the choice set"
  | .duplicateKey grammar key =>
    "semantic key \"" ++ key ++ "\" is already used in grammar \"" ++ grammar ++ "\""
  | .emptyGrammar name => "grammar \"" ++ name ++ "\" has no slots"

end Colloquy.Grammar
