import Colloquy.Grammar.Slot

/-!
# Grammars

A grammar is a named row of slots that are spoken one after the other. A slot with a key reports its
value under it.
-/

namespace Colloquy

/-- A slot at its place in a grammar. -/
structure Node where
  key : Option String
  slot : Slot
  deriving DecidableEq, Repr

structure Grammar where
  name : String
  nodes : List Node
  deriving DecidableEq, Repr

namespace Grammar

/-- The keys of the slots that have one, in order. -/
def keys (g : Grammar) : List String := g.nodes.filterMap (·.key)

/-- The slot under `key`. -/
def slot? (g : Grammar) (key : String) : Option Slot :=
  (g.nodes.find? (·.key == some key)).map (·.slot)

/-- What composition vouches for: there are slots, no two share a key, and each literal has
words. -/
structure WellFormed (g : Grammar) : Prop where
  nodes_ne_nil : g.nodes ≠ []
  nodup_keys : g.keys.Nodup
  slots_sound : ∀ node ∈ g.nodes, node.slot.fault? = none

end Grammar

end Colloquy
