import Colloquy.Semantics.Extract
import Mathlib.Data.List.Basic

/-!
# Values under their keys

The values of a phrase come in the order of the grammar, each under the key of the slot that
brought it (`mem_extract_iff`). Of the slots with a key, choices and dictations bring values; if all
of them do, the keys of the values are theirs (`keys_extract`). In a grammar without repeated keys
each of these slots has its value, and nothing else, under its key (`get?_extract`). Where there is
one such slot, its value is the only one (`extract_eq_of_split`).
-/

namespace Colloquy

/-! ## Finding values -/

namespace Semantics

theorem get?_eq_some {values : Semantics} (hkeys : values.keys.Nodup) {key : String}
    {value : Value} (h : (key, value) ∈ values.entries) : values.get? key = some value := by
  obtain ⟨before, after, hsplit⟩ := List.append_of_mem h
  rw [get?, List.lookup_eq_some_iff]
  refine ⟨before, after, hsplit, fun other hother => ?_⟩
  rw [keys, hsplit, List.map_append, List.nodup_append] at hkeys
  have hne := hkeys.2.2 other.1 (List.mem_map_of_mem hother) key (by simp)
  exact bne_iff_ne.mpr hne.symm

theorem mem_of_get?_eq_some {values : Semantics} {key : String} {value : Value}
    (h : values.get? key = some value) : (key, value) ∈ values.entries := by
  rw [get?, List.lookup_eq_some_iff] at h
  obtain ⟨before, after, hsplit, -⟩ := h
  rw [hsplit]
  exact List.mem_append_right _ List.mem_cons_self

theorem get_eq_ok {values : Semantics} {key : String} {value : Value}
    (h : values.get? key = some value) : values.get key = .ok value := by
  rw [get, h]

/-- There is a value under every key. -/
theorem exists_get?_of_mem_keys {values : Semantics} (hkeys : values.keys.Nodup) {key : String}
    (h : key ∈ values.keys) : ∃ value, values.get? key = some value := by
  obtain ⟨⟨_, value⟩, hmem, rfl⟩ := List.mem_map.mp h
  exact ⟨value, get?_eq_some hkeys hmem⟩

theorem mem_keys_iff {values : Semantics} (hkeys : values.keys.Nodup) {key : String} :
    key ∈ values.keys ↔ ∃ value, values.get? key = some value := by
  constructor
  · exact exists_get?_of_mem_keys hkeys
  · rintro ⟨value, hvalue⟩
    exact List.mem_map_of_mem (mem_of_get?_eq_some hvalue)

end Semantics

/-! ## Extracted values -/

/-- The slot may stand for a value: it is a choice or a dictation. -/
def Slot.bringsValue : Slot → Bool
  | .choice _ | .dictation => true
  | .literal _ | .wildcard => false

theorem Slot.value?_eq_none {slot : Slot} (h : slot.bringsValue = false) (found : Option SlotMatch) :
    slot.value? found = none := by
  cases slot with
  | literal | wildcard => rfl
  | choice | dictation => cases h

namespace Grammar

/-- The keys of the slots that may bring a value, in order. -/
def valueKeys (g : Grammar) : List String :=
  (g.nodes.filter (·.slot.bringsValue)).filterMap (·.key)

theorem valueKeys_sublist (g : Grammar) : g.valueKeys.Sublist g.keys :=
  List.filter_sublist.filterMap Node.key

variable {g : Grammar} {found : List SlotMatch}

theorem mem_extract_iff {key : String} {value : Value} :
    (key, value) ∈ (g.extract found).entries ↔
      ∃ (p : Nat) (node : Node), g.nodes[p]? = some node ∧ node.key = some key ∧
        node.slot.value? (found.find? (·.node == p)) = some value := by
  simp only [extract, List.mem_filterMap, Prod.exists, List.mk_mem_zipIdx_iff_getElem?]
  constructor
  · intro h
    obtain ⟨node, p, hnode, hentry⟩ := h
    refine ⟨p, node, hnode, ?_⟩
    split at hentry
    · next hkey hvalue =>
      cases hentry
      exact ⟨hkey, hvalue⟩
    · cases hentry
  · intro h
    obtain ⟨p, node, hnode, hkey, hvalue⟩ := h
    refine ⟨node, p, hnode, ?_⟩
    rw [hkey, hvalue]

/-- The values have the keys of the slots that brought one. -/
theorem keys_extract_eq (g : Grammar) (found : List SlotMatch) :
    (g.extract found).keys =
      (g.nodes.zipIdx.filter fun both =>
        (both.1.slot.value? (found.find? (·.node == both.2))).isSome).filterMap
          fun both => both.1.key := by
  rw [Semantics.keys, extract, List.map_filterMap, List.filterMap_filter]
  apply List.filterMap_congr
  rintro ⟨node, p⟩ -
  dsimp only
  cases node.key with
  | none => simp
  | some key => cases node.slot.value? (found.find? (·.node == p)) <;> rfl

theorem keys_extract_sublist (g : Grammar) (found : List SlotMatch) :
    (g.extract found).keys.Sublist g.keys := by
  have hkeys : g.keys = g.nodes.zipIdx.filterMap fun both => both.1.key := by
    calc g.nodes.filterMap (·.key)
        = (g.nodes.zipIdx.map Prod.fst).filterMap (·.key) := by rw [List.zipIdx_map_fst]
      _ = g.nodes.zipIdx.filterMap fun both => both.1.key := List.filterMap_map
  rw [keys_extract_eq, hkeys]
  exact List.filter_sublist.filterMap _

/-- If every choice and every dictation brings a value, the values have the keys of these slots. -/
theorem keys_extract (h : ∀ (p : Nat) (node : Node), g.nodes[p]? = some node →
      (node.slot.value? (found.find? (·.node == p))).isSome = node.slot.bringsValue) :
    (g.extract found).keys = g.valueKeys := by
  have hfilter : (g.nodes.zipIdx.filter fun both =>
        (both.1.slot.value? (found.find? (·.node == both.2))).isSome) =
      g.nodes.zipIdx.filter fun both => both.1.slot.bringsValue := by
    apply List.filter_congr
    rintro ⟨node, p⟩ hmem
    exact h p node (List.mk_mem_zipIdx_iff_getElem?.mp hmem)
  calc (g.extract found).keys
      = (g.nodes.zipIdx.filter fun both => both.1.slot.bringsValue).filterMap
          fun both => both.1.key := by rw [keys_extract_eq, hfilter]
    _ = ((g.nodes.zipIdx.map Prod.fst).filter (·.slot.bringsValue)).filterMap (·.key) := by
        rw [List.filter_map, List.filterMap_map]
        rfl
    _ = g.valueKeys := by rw [List.zipIdx_map_fst, valueKeys]

/-- Where no key is repeated, a key stands for one slot. -/
theorem position_eq_of_key_eq (hkeys : g.keys.Nodup) {p q : Nat} {node other : Node}
    {key : String} (hnode : g.nodes[p]? = some node) (hother : g.nodes[q]? = some other)
    (hkey : node.key = some key) (hsame : other.key = some key) : p = q := by
  rw [keys, List.Nodup, List.pairwise_filterMap, List.pairwise_iff_getElem] at hkeys
  obtain ⟨hp, rfl⟩ := List.getElem?_eq_some_iff.mp hnode
  obtain ⟨hq, rfl⟩ := List.getElem?_eq_some_iff.mp hother
  rcases Nat.lt_trichotomy p q with hlt | heq | hgt
  · exact absurd rfl (hkeys p q hp hq hlt key hkey key hsame)
  · exact heq
  · exact absurd rfl (hkeys q p hq hp hgt key hsame key hkey)

/-- Under the key of a slot stands the value that the slot brought, if it brought one. -/
theorem get?_extract (hkeys : g.keys.Nodup) {p : Nat} {node : Node} {key : String}
    (hnode : g.nodes[p]? = some node) (hkey : node.key = some key) :
    (g.extract found).get? key = node.slot.value? (found.find? (·.node == p)) := by
  have hnodup := hkeys.sublist (keys_extract_sublist g found)
  cases hvalue : node.slot.value? (found.find? (·.node == p)) with
  | some value =>
    exact Semantics.get?_eq_some hnodup (mem_extract_iff.mpr ⟨p, node, hnode, hkey, hvalue⟩)
  | none =>
    cases hget : (g.extract found).get? key with
    | none => rfl
    | some value =>
      obtain ⟨q, other, hother, hsame, hbrought⟩ :=
        mem_extract_iff.mp (Semantics.mem_of_get?_eq_some hget)
      obtain rfl := position_eq_of_key_eq hkeys hnode hother hkey hsame
      rw [hnode, Option.some.injEq] at hother
      rw [← hother, hvalue] at hbrought
      cases hbrought

/-! ## Slots that bring no value -/

theorem extract_eq (g : Grammar) (found : List SlotMatch) :
    g.extract found = ⟨g.nodes.zipIdx.filterMap fun both => both.1.key.bind fun key =>
      (both.1.slot.value? (found.find? (·.node == both.2))).map (key, ·)⟩ := by
  unfold extract
  congr 1
  apply List.filterMap_congr
  rintro ⟨node, p⟩ -
  dsimp only
  cases node.key with
  | none => rfl
  | some key => cases node.slot.value? (found.find? (·.node == p)) <;> rfl

/-- Slots that may bring no value add none. -/
theorem filterMap_of_mute {nodes : List Node}
    (h : ∀ node ∈ nodes, node.slot.bringsValue = false) (start : Nat) (found : List SlotMatch) :
    ((nodes.zipIdx start).filterMap fun both => both.1.key.bind fun key =>
      (both.1.slot.value? (found.find? (·.node == both.2))).map (key, ·)) = [] := by
  rw [List.filterMap_eq_nil_iff]
  rintro ⟨node, p⟩ hmem
  have hnode : node ∈ nodes := List.fst_mem_of_mem_zipIdx hmem
  simp only [Slot.value?_eq_none (h node hnode), Option.map_none]
  cases node.key <;> rfl

theorem extract_eq_empty (h : ∀ node ∈ g.nodes, node.slot.bringsValue = false)
    (found : List SlotMatch) : g.extract found = ⟨[]⟩ := by
  rw [extract_eq, filterMap_of_mute h]

/-- Where one slot alone may bring a value, its value is the only one. -/
theorem extract_eq_of_split {first last : List Node} {key : String} {slot : Slot}
    (hnodes : g.nodes = first ++ ⟨some key, slot⟩ :: last)
    (hfirst : ∀ node ∈ first, node.slot.bringsValue = false)
    (hlast : ∀ node ∈ last, node.slot.bringsValue = false) (found : List SlotMatch) :
    g.extract found =
      ⟨((slot.value? (found.find? (·.node == first.length))).map (key, ·)).toList⟩ := by
  rw [extract_eq, hnodes, List.zipIdx_append, List.filterMap_append, filterMap_of_mute hfirst,
    List.nil_append, List.zipIdx_cons, List.filterMap_cons, filterMap_of_mute hlast, Nat.zero_add,
    Option.bind_some]
  cases slot.value? (found.find? (·.node == first.length)) <;> rfl

end Grammar

end Colloquy
