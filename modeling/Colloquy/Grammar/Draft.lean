import Colloquy.Grammar.Basic

/-!
# Drafts of a grammar

A grammar is composed by appending slots in the order in which they are spoken. Each mistake is
reported when it is made, so a grammar that has been built is well formed.

* `wellFormed_of_build`: a draft that was reached by appending builds well-formed grammars only.
-/

namespace Colloquy.Grammar

/-- A grammar under composition. -/
structure Draft where
  name : String
  nodes : List Node
  deriving DecidableEq, Repr

namespace Draft

/-- The draft of a grammar called `name`, without slots. -/
def empty (name : String) : Draft := ⟨name, []⟩

/-- One of the slots has the key `key`. -/
def hasKey (d : Draft) (key : String) : Bool := d.nodes.any (·.key == some key)

/-- Appends a slot, under a key if there is one. A key in use is reported before a fault of the slot
itself. -/
def append (d : Draft) (key : Option String) (slot : Slot) : Except Fault Draft :=
  match key.filter d.hasKey, slot.fault? with
  | some used, _ => .error (.duplicateKey d.name used)
  | none, some fault => .error fault
  | none, none => .ok { d with nodes := d.nodes ++ [⟨key, slot⟩] }

/-- The grammar composed so far. -/
def build (d : Draft) : Except Fault Grammar :=
  match d.nodes with
  | [] => .error (.emptyGrammar d.name)
  | nodes => .ok ⟨d.name, nodes⟩

/-! ## Editing -/

/-- A request to whoever keeps a draft. -/
inductive Edit
  | append (key : Option String) (slot : Slot)
  | build
  deriving DecidableEq, Repr

/-- Carries out one request: the answer, with the grammar if one was built, and the draft that is
kept. A refused request changes nothing; after a grammar was built the draft starts afresh under the
same name. -/
def edit (d : Draft) : Edit → Except Fault (Option Grammar) × Draft
  | .append key slot =>
    match d.append key slot with
    | .ok longer => (.ok none, longer)
    | .error fault => (.error fault, d)
  | .build =>
    match d.build with
    | .ok g => (.ok (some g), empty d.name)
    | .error fault => (.error fault, d)

/-! ## What a draft keeps -/

/-- No two slots share a key, and each literal has words. -/
structure Sound (d : Draft) : Prop where
  nodup_keys : (d.nodes.filterMap (·.key)).Nodup
  slots_sound : ∀ node ∈ d.nodes, node.slot.fault? = none

theorem sound_empty (name : String) : (empty name).Sound :=
  ⟨List.nodup_nil, fun _ h => nomatch h⟩

theorem hasKey_iff {d : Draft} {key : String} :
    d.hasKey key = true ↔ key ∈ d.nodes.filterMap (·.key) := by
  simp [hasKey]

theorem Sound.append {d longer : Draft} {key : Option String} {slot : Slot} (h : d.Sound)
    (ha : d.append key slot = .ok longer) : longer.Sound := by
  unfold Draft.append at ha
  split at ha
  · cases ha
  · cases ha
  · next hkey hslot =>
    cases ha
    refine ⟨?_, ?_⟩
    · rw [List.filterMap_append]
      cases key with
      | none => simpa using h.nodup_keys
      | some k =>
        have hk : ¬ d.hasKey k = true := by simpa [Option.filter] using hkey
        rw [hasKey_iff] at hk
        simp only [List.filterMap_cons, List.filterMap_nil]
        rw [List.nodup_append]
        exact ⟨h.nodup_keys, by simp, by
          intro a ha b hb
          rw [List.mem_singleton] at hb
          exact hb ▸ fun he => hk (he ▸ ha)⟩
    · intro node hnode
      rcases List.mem_append.1 hnode with hold | hnew
      · exact h.slots_sound node hold
      · rw [List.mem_singleton] at hnew
        exact hnew ▸ hslot

theorem wellFormed_of_build {d : Draft} {g : Grammar} (h : d.Sound) (hb : d.build = .ok g) :
    g.WellFormed := by
  unfold build at hb
  split at hb
  · cases hb
  · next hne =>
    cases hb
    exact ⟨hne, h.nodup_keys, h.slots_sound⟩

end Draft

end Colloquy.Grammar
