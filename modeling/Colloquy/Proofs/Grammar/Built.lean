import Colloquy.Grammar.Draft

/-!
# Built grammars

A grammar is built by a row of requests to an empty draft, refused ones included. Composition
vouches for well-formedness and for nothing more: exactly the well-formed grammars can be built
(`built_iff_wellFormed`).
-/

namespace Colloquy.Grammar

namespace Draft

/-- The draft after a row of requests. -/
def after (d : Draft) (edits : List Edit) : Draft := edits.foldl (fun d e => (d.edit e).2) d

theorem after_cons (d : Draft) (e : Edit) (edits : List Edit) :
    d.after (e :: edits) = (d.edit e).2.after edits := rfl

theorem Sound.edit {d : Draft} (h : d.Sound) (e : Edit) : (d.edit e).2.Sound := by
  cases e with
  | append key slot =>
    cases happend : d.append key slot with
    | ok longer =>
      rw [Draft.edit, happend]
      exact h.append happend
    | error fault =>
      rw [Draft.edit, happend]
      exact h
  | build =>
    rw [Draft.edit]
    cases d.build with
    | ok g => exact sound_empty d.name
    | error fault => exact h

theorem Sound.after {d : Draft} (h : d.Sound) (edits : List Edit) : (d.after edits).Sound := by
  induction edits generalizing d with
  | nil => exact h
  | cons e edits ih => exact ih (h.edit e)

/-- A slot is appended if its key is new and it has no fault of its own. -/
theorem append_eq_ok {d : Draft} {node : Node}
    (hkeys : ((d.nodes ++ [node]).filterMap (·.key)).Nodup) (hslot : node.slot.fault? = none) :
    d.append node.key node.slot = .ok { d with nodes := d.nodes ++ [node] } := by
  have hunused : node.key.filter d.hasKey = none := by
    cases hkey : node.key with
    | none => rfl
    | some key =>
      rw [List.filterMap_append, List.nodup_append] at hkeys
      have hnew : ¬ d.hasKey key = true := by
        intro hused
        have hmem : key ∈ [node].filterMap (·.key) := by simp [hkey]
        exact hkeys.2.2 key (hasKey_iff.mp hused) key hmem rfl
      simp [Option.filter, hnew]
  rw [append, hunused, hslot]

/-- Sound slots may be appended one after the other. -/
theorem after_appends {d : Draft} {nodes : List Node}
    (hkeys : ((d.nodes ++ nodes).filterMap (·.key)).Nodup)
    (hslots : ∀ node ∈ nodes, node.slot.fault? = none) :
    d.after (nodes.map fun node => .append node.key node.slot) =
      { d with nodes := d.nodes ++ nodes } := by
  induction nodes generalizing d with
  | nil => rw [List.append_nil]; rfl
  | cons node nodes ih =>
    have hsplit : d.nodes ++ node :: nodes = d.nodes ++ [node] ++ nodes := by simp
    rw [hsplit] at hkeys ⊢
    have hfirst : ((d.nodes ++ [node]).filterMap (·.key)).Nodup := by
      rw [List.filterMap_append] at hkeys
      exact (List.nodup_append.mp hkeys).1
    have happend := append_eq_ok hfirst (hslots node List.mem_cons_self)
    have hedit : (d.edit (.append node.key node.slot)).2 =
        { d with nodes := d.nodes ++ [node] } := by
      rw [Draft.edit, happend]
    rw [List.map_cons, after_cons, hedit]
    exact ih hkeys fun later hlater => hslots later (List.mem_cons_of_mem _ hlater)

end Draft

/-- Requests to an empty draft led to a draft that builds the grammar. -/
def Built (g : Grammar) : Prop :=
  ∃ name edits, ((Draft.empty name).after edits).build = .ok g

theorem built_iff_wellFormed {g : Grammar} : g.Built ↔ g.WellFormed := by
  constructor
  · intro h
    obtain ⟨name, edits, hbuild⟩ := h
    have hsound := (Draft.sound_empty name).after edits
    exact Draft.wellFormed_of_build hsound hbuild
  · intro h
    have hkeys : (((Draft.empty g.name).nodes ++ g.nodes).filterMap (·.key)).Nodup := h.nodup_keys
    refine ⟨g.name, g.nodes.map fun node => .append node.key node.slot, ?_⟩
    rw [Draft.after_appends hkeys h.slots_sound]
    obtain ⟨name, nodes⟩ := g
    cases nodes with
    | nil => exact absurd rfl h.nodes_ne_nil
    | cons node nodes => rfl

end Colloquy.Grammar
