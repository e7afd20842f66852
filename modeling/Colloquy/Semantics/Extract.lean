import Colloquy.Grammar.Basic
import Colloquy.Recognition.Basic
import Colloquy.Semantics.Basic

/-!
# Extraction of values

The values of a phrase are read off the reported slots. A choice takes the entry the engine points
to, or else the first one spoken like the reported text; a dictation takes the text itself. Literals
and wildcards bring no value, and of several reports on one slot the first counts.
-/

namespace Colloquy

open Text

/-- The value of a choice: of the entry reported by position if there is such an entry, and
otherwise of the first entry that accepts the reported text. -/
def resolveChoice (entries : List Entry) (found : SlotMatch) : Option Value :=
  match found.choice.bind (entries[·]?) with
  | some entry => some entry.value
  | none => (entries.find? (·.accepts found.text)).map (·.value)

/-- The value that a slot brings, given the first report on it. -/
def Slot.value? (slot : Slot) (found : Option SlotMatch) : Option Value :=
  match slot with
  | .literal _ | .wildcard => none
  | .choice entries => found.bind (resolveChoice entries)
  | .dictation => some (.text ((found.map fun m => trimmed m.text).getD ""))

/-- The values of the slots that have a key, given the reports of an engine. -/
def Grammar.extract (g : Grammar) (found : List SlotMatch) : Semantics :=
  ⟨g.nodes.zipIdx.filterMap fun (node, position) =>
    match node.key, node.slot.value? (found.find? (·.node == position)) with
    | some key, some value => some (key, value)
    | _, _ => none⟩

end Colloquy
