import Colloquy.Grammar.Value

/-!
# Semantics of a phrase

The values that a phrase brought, each under the key of its slot, in the order of the grammar.
-/

namespace Colloquy

structure Semantics where
  entries : List (String × Value)
  deriving DecidableEq, Repr

/-- A value was asked for under a key that brought none. -/
structure MissingKey where
  key : String
  deriving DecidableEq, Repr

def MissingKey.message (m : MissingKey) : String :=
  "no semantic value for key \"" ++ m.key ++ "\""

namespace Semantics

def keys (s : Semantics) : List String := s.entries.map (·.1)

def size (s : Semantics) : Nat := s.entries.length

def isEmpty (s : Semantics) : Bool := s.entries.isEmpty

/-- The value under `key`, if it brought one. -/
def get? (s : Semantics) (key : String) : Option Value := s.entries.lookup key

def contains (s : Semantics) (key : String) : Bool := (s.get? key).isSome

/-- The value under a key that is expected to be there. -/
def get (s : Semantics) (key : String) : Except MissingKey Value :=
  match s.get? key with
  | some value => .ok value
  | none => .error ⟨key⟩

end Semantics

end Colloquy
