import Colloquy.Proofs.Grammar.Built
import Colloquy.Proofs.Semantics.Keys
import Colloquy.Proofs.Text.NormalForm
import Mathlib.Data.List.DropRight

/-!
# Composing grammars over any history

Requests to a draft are granted or refused, and a grammar may be built again and again. Whatever
was asked before, a draft holds what was appended, with success, since a grammar was built last
(`after_empty`). So the exchanges so far determine the answer to the next request, and every grammar
that is built consists of what was appended for it (`composing`).

* `append_cases`, `build_cases`: the ways in which a request can go.
* `slot?_eq_some_iff`: a key finds the slot that was appended under it.
-/

namespace Colloquy

open Text

/-- A literal without words. -/
def Slot.IsBlank (slot : Slot) : Prop := ∃ text, slot = .literal text ∧ words text = []

theorem Slot.fault?_eq_some_iff {slot : Slot} {fault : Grammar.Fault} :
    slot.fault? = some fault ↔ fault = .emptyLiteral ∧ slot.IsBlank := by
  cases slot with
  | literal text =>
    have hslot : (Slot.literal text).IsBlank ↔ words text = [] := by simp [IsBlank]
    rw [fault?, hslot, ← normalForm_eq_empty_iff]
    by_cases hblank : normalForm text = ""
    · rw [if_pos hblank, Option.some.injEq, and_iff_left hblank]
      exact eq_comm
    · rw [if_neg hblank]
      exact iff_of_false (by simp) fun h => hblank h.2
  | choice | wildcard | dictation => simp [fault?, IsBlank]

theorem Slot.fault?_eq_none_iff {slot : Slot} : slot.fault? = none ↔ ¬ slot.IsBlank := by
  rw [Option.eq_none_iff_forall_ne_some]
  simp only [ne_eq, fault?_eq_some_iff, not_and, forall_eq]

namespace Grammar

namespace Draft

/-! ## Requests with their answers -/

/-- A request to a draft, and the answer to it. -/
structure Exchange where
  request : Edit
  answer : Except Fault (Option Grammar)

/-- A grammar was asked for and built. -/
def Exchange.isBuilt : Exchange → Bool
  | ⟨.build, .ok _⟩ => true
  | _ => false

/-- What was appended, if that was asked for and not refused. -/
def Exchange.appended? : Exchange → Option Node
  | ⟨.append key slot, .ok _⟩ => some ⟨key, slot⟩
  | _ => none

/-- The exchanges that a row of requests to a draft leads to. -/
def exchanges (d : Draft) : List Edit → List Exchange
  | [] => []
  | e :: edits => ⟨e, (d.edit e).1⟩ :: (d.edit e).2.exchanges edits

/-- What was appended since a grammar was built last. -/
def pending (history : List Exchange) : List Node :=
  (history.rtakeWhile (!·.isBuilt)).filterMap Exchange.appended?

theorem exchanges_concat (d : Draft) (edits : List Edit) (e : Edit) :
    d.exchanges (edits ++ [e]) = d.exchanges edits ++ [⟨e, ((d.after edits).edit e).1⟩] := by
  induction edits generalizing d with
  | nil => rfl
  | cons first edits ih => rw [List.cons_append, exchanges, ih, exchanges, List.cons_append]; rfl

theorem pending_concat_built {history : List Exchange} {last : Exchange} (h : last.isBuilt = true) :
    pending (history ++ [last]) = [] := by
  rw [pending, List.rtakeWhile_concat_neg _ _ _ (by simp [h])]
  rfl

theorem pending_concat {history : List Exchange} {last : Exchange} (h : last.isBuilt = false) :
    pending (history ++ [last]) = pending history ++ last.appended?.toList := by
  rw [pending, List.rtakeWhile_concat_pos _ _ _ (by simp [h]), List.filterMap_append]
  cases hlast : last.appended? <;> simp [hlast, pending]

/-! ## One request -/

/-- A slot is refused for its key, or for its own fault, or appended behind the others. -/
theorem append_cases (d : Draft) (key : Option String) (slot : Slot) :
    (∃ used, key = some used ∧ d.hasKey used = true ∧
        d.append key slot = .error (.duplicateKey d.name used)) ∨
      (key.filter d.hasKey = none ∧ ∃ fault, slot.fault? = some fault ∧
        d.append key slot = .error fault) ∨
      (key.filter d.hasKey = none ∧ slot.fault? = none ∧
        d.append key slot = .ok { d with nodes := d.nodes ++ [⟨key, slot⟩] }) := by
  rw [append]
  cases hused : key.filter d.hasKey with
  | some used =>
    obtain ⟨hkey, hin⟩ := Option.filter_eq_some_iff.mp hused
    exact Or.inl ⟨used, hkey, hin, rfl⟩
  | none =>
    cases hfault : slot.fault? with
    | some fault => exact Or.inr (Or.inl ⟨rfl, fault, rfl, rfl⟩)
    | none => exact Or.inr (Or.inr ⟨rfl, rfl, rfl⟩)

/-- A grammar is refused, or built of all that was appended. -/
theorem build_cases (d : Draft) :
    (d.nodes = [] ∧ d.build = .error (.emptyGrammar d.name)) ∨
      (d.nodes ≠ [] ∧ d.build = .ok ⟨d.name, d.nodes⟩) := by
  unfold build
  split
  · next hnil => exact Or.inl ⟨hnil, rfl⟩
  · next hne => exact Or.inr ⟨hne, rfl⟩

/-- A request keeps a draft at what was appended since a grammar was built last. -/
theorem edit_snd {d : Draft} {history : List Exchange} (h : d.nodes = pending history) (e : Edit) :
    (d.edit e).2 = ⟨d.name, pending (history ++ [⟨e, (d.edit e).1⟩])⟩ := by
  obtain ⟨name, nodes⟩ := d
  subst h
  cases e with
  | append key slot =>
    rw [pending_concat rfl, edit]
    obtain ⟨used, -, -, happend⟩ | ⟨-, fault, -, happend⟩ | ⟨-, -, happend⟩ :=
      append_cases ⟨name, pending history⟩ key slot
    · rw [happend]
      simp [Exchange.appended?]
    · rw [happend]
      simp [Exchange.appended?]
    · rw [happend]
      simp [Exchange.appended?]
  | build =>
    rw [edit]
    obtain ⟨-, hbuild⟩ | ⟨-, hbuild⟩ := build_cases ⟨name, pending history⟩
    · rw [hbuild, pending_concat rfl]
      simp [Exchange.appended?]
    · rw [hbuild, pending_concat_built rfl]
      rfl

/-- What a draft holds is what was appended since a grammar was built last. -/
theorem after_empty (name : String) (edits : List Edit) :
    (empty name).after edits = ⟨name, pending ((empty name).exchanges edits)⟩ := by
  induction edits using List.reverseRecOn with
  | nil => rfl
  | append_singleton edits e ih =>
    have hlast : (empty name).after (edits ++ [e]) = (((empty name).after edits).edit e).2 :=
      List.foldl_append
    rw [hlast, exchanges_concat, ih]
    exact edit_snd rfl e

/-! ## The answer to the next request -/

variable {d : Draft} {e : Edit} {key : Option String} {slot : Slot} {fault : Fault} {g : Grammar}

theorem edit_build_iff :
    (d.edit .build).1 = .ok (some g) ↔ d.nodes ≠ [] ∧ g = ⟨d.name, d.nodes⟩ := by
  rw [edit]
  obtain ⟨hnil, hbuild⟩ | ⟨hne, hbuild⟩ := d.build_cases
  · rw [hbuild]
    exact iff_of_false (by simp) fun h => h.1 hnil
  · rw [hbuild, and_iff_right hne]
    simp only [Except.ok.injEq, Option.some.injEq]
    exact eq_comm

theorem edit_build_of_nil (h : d.nodes = []) :
    (d.edit .build).1 = .error (.emptyGrammar d.name) := by
  obtain ⟨-, hbuild⟩ | ⟨hne, -⟩ := d.build_cases
  · rw [edit, hbuild]
  · exact absurd h hne

/-- After a grammar was built, the draft is as good as new. -/
theorem edit_built (h : (d.edit .build).1 = .ok (some g)) : (d.edit .build).2 = empty d.name := by
  obtain ⟨hnil, -⟩ | ⟨-, hbuild⟩ := d.build_cases
  · exact absurd hnil (edit_build_iff.mp h).1
  · rw [edit, hbuild]

/-- A request that is refused changes nothing. -/
theorem edit_refused (h : (d.edit e).1 = .error fault) : (d.edit e).2 = d := by
  cases e with
  | append key slot =>
    rw [edit] at h ⊢
    cases happend : d.append key slot with
    | ok longer =>
      rw [happend] at h
      cases h
    | error fault => rfl
  | build =>
    rw [edit] at h ⊢
    cases hbuild : d.build with
    | ok g =>
      rw [hbuild] at h
      cases h
    | error fault => rfl

theorem hasKey_iff_exists {used : String} :
    d.hasKey used = true ↔ ∃ node ∈ d.nodes, node.key = some used := by simp [hasKey]

theorem edit_duplicate_iff {grammar used : String} :
    (d.edit (.append key slot)).1 = .error (.duplicateKey grammar used) ↔
      grammar = d.name ∧ key = some used ∧ ∃ node ∈ d.nodes, node.key = some used := by
  rw [← hasKey_iff_exists, edit]
  obtain ⟨known, rfl, hknown, happend⟩ | ⟨hunused, fault, hfault, happend⟩ |
    ⟨hunused, -, happend⟩ := d.append_cases key slot
  · rw [happend]
    constructor
    · intro h
      cases h
      exact ⟨rfl, rfl, hknown⟩
    · rintro ⟨rfl, hkey, -⟩
      cases hkey
      rfl
  · obtain ⟨rfl, -⟩ := Slot.fault?_eq_some_iff.mp hfault
    rw [happend]
    exact iff_of_false (by simp) fun h => Option.filter_eq_none_iff.mp hunused used h.2.1 h.2.2
  · rw [happend]
    exact iff_of_false (by simp) fun h => Option.filter_eq_none_iff.mp hunused used h.2.1 h.2.2

/-- A slot whose key is not in use is refused only for want of words. -/
theorem edit_unused (h : ∀ used, key = some used → ∀ node ∈ d.nodes, node.key ≠ some used) :
    ((d.edit (.append key slot)).1 = .error .emptyLiteral ↔ slot.IsBlank) ∧
      ((d.edit (.append key slot)).1 = .ok none ↔ ¬ slot.IsBlank) := by
  rw [edit]
  obtain ⟨known, hkey, hknown, -⟩ | ⟨-, fault, hfault, happend⟩ | ⟨-, hsound, happend⟩ :=
    d.append_cases key slot
  · obtain ⟨node, hnode, hsame⟩ := hasKey_iff_exists.mp hknown
    exact absurd hsame (h known hkey node hnode)
  · obtain ⟨rfl, hblank⟩ := Slot.fault?_eq_some_iff.mp hfault
    rw [happend]
    exact ⟨iff_of_true rfl hblank, iff_of_false (by simp) fun hno => hno hblank⟩
  · rw [happend]
    have hwords := Slot.fault?_eq_none_iff.mp hsound
    exact ⟨iff_of_false (by simp) hwords, iff_of_true rfl hwords⟩

end Draft

/-! ## Slots under their keys -/

theorem slot?_isSome_iff {g : Grammar} {key : String} : (g.slot? key).isSome ↔ key ∈ g.keys := by
  rw [slot?, Option.isSome_map, List.find?_isSome, keys, List.mem_filterMap]
  simp only [beq_iff_eq]

/-- A key finds the slot that was appended under it. -/
theorem slot?_eq_some_iff {g : Grammar} (h : g.keys.Nodup) {key : String} {slot : Slot} :
    g.slot? key = some slot ↔ ⟨some key, slot⟩ ∈ g.nodes := by
  rw [slot?, Option.map_eq_some_iff]
  constructor
  · rintro ⟨⟨_, _⟩, hfind, rfl⟩
    obtain rfl : _ = some key := by simpa using List.find?_some hfind
    exact List.mem_of_find?_eq_some hfind
  · intro hmem
    obtain ⟨p, hp⟩ := List.getElem?_of_mem hmem
    have hfound : (g.nodes.find? (·.key == some key)).isSome := by
      rw [List.find?_isSome]
      exact ⟨_, hmem, beq_self_eq_true _⟩
    obtain ⟨other, hfind⟩ := Option.isSome_iff_exists.mp hfound
    obtain ⟨q, hq⟩ := List.getElem?_of_mem (List.mem_of_find?_eq_some hfind)
    -- The slot that is found has the same key, so it is the same one.
    obtain rfl := position_eq_of_key_eq h hp hq rfl (by simpa using List.find?_some hfind)
    rw [hp, Option.some.injEq] at hq
    exact ⟨other, hfind, by rw [← hq]⟩

/-! ## Any history -/

/-- Requests to a draft of a grammar called `name`, in any order and refused ones included, lead to
a draft that answers the next request as follows, `held` being what was appended with success since
a grammar was built last.

* A grammar is built iff `held` is not empty; it consists of `held`.
* A key is refused iff it is used in `held`, whatever the slot.
* Otherwise a slot is refused iff it is a literal without words.
* What is refused changes nothing. What is built leaves the draft as good as new, so that all keys
  may be used again.
* A grammar that is built has slots, none a literal without words, and no key twice; its keys are
  those that find a slot, namely the one that was appended under it. -/
theorem composing (name : String) (edits : List Draft.Edit) :
    let d := (Draft.empty name).after edits
    let held := Draft.pending ((Draft.empty name).exchanges edits)
    (∀ g, (d.edit .build).1 = .ok (some g) ↔ held ≠ [] ∧ g = ⟨name, held⟩) ∧
      (held = [] → (d.edit .build).1 = .error (.emptyGrammar name)) ∧
      (∀ key slot grammar used,
        (d.edit (.append key slot)).1 = .error (.duplicateKey grammar used) ↔
          grammar = name ∧ key = some used ∧ ∃ node ∈ held, node.key = some used) ∧
      (∀ key slot, (∀ used, key = some used → ∀ node ∈ held, node.key ≠ some used) →
        ((d.edit (.append key slot)).1 = .error .emptyLiteral ↔ slot.IsBlank) ∧
          ((d.edit (.append key slot)).1 = .ok none ↔ ¬ slot.IsBlank)) ∧
      (∀ e fault, (d.edit e).1 = .error fault → (d.edit e).2 = d) ∧
      ∀ g, (d.edit .build).1 = .ok (some g) →
        (d.edit .build).2 = Draft.empty name ∧
          (∀ key slot, ¬ slot.IsBlank →
            ((d.edit .build).2.edit (.append key slot)).1 = .ok none) ∧
          g.nodes ≠ [] ∧ g.keys.Nodup ∧ (∀ node ∈ g.nodes, ¬ node.slot.IsBlank) ∧
          ∀ key, ((g.slot? key).isSome ↔ key ∈ g.keys) ∧
            ∀ slot, g.slot? key = some slot ↔ ⟨some key, slot⟩ ∈ held := by
  intro d held
  have hd : d = ⟨name, held⟩ := Draft.after_empty name edits
  have hsound : d.Sound := (Draft.sound_empty name).after edits
  rw [hd] at hsound ⊢
  refine ⟨fun g => Draft.edit_build_iff, fun hnil => Draft.edit_build_of_nil hnil,
    fun key slot grammar used => Draft.edit_duplicate_iff,
    fun key slot hunused => Draft.edit_unused hunused, fun e fault => Draft.edit_refused,
    fun g hbuilt => ?_⟩
  obtain ⟨hne, rfl⟩ := Draft.edit_build_iff.mp hbuilt
  have hnew := Draft.edit_built hbuilt
  have hkeys : (Grammar.mk name held).keys.Nodup := hsound.nodup_keys
  refine ⟨hnew, fun key slot hwords => ?_, hne, hkeys, fun node hnode => ?_,
    fun key => ⟨slot?_isSome_iff, fun slot => slot?_eq_some_iff hkeys⟩⟩
  · rw [hnew]
    exact (Draft.edit_unused fun _ _ _ hnode => by cases hnode).2.mpr hwords
  · exact Slot.fault?_eq_none_iff.mp (hsound.slots_sound node hnode)

/-- Requests of which some are refused, with a grammar built among them. -/
def secondOrder : List Draft.Edit :=
  [.build, .append none (.literal " "), .append (some "drink") .wildcard,
    .append (some "drink") .dictation, .append none (.literal "please"), .build,
    .append (some "drink") .dictation]

theorem composing_secondOrder :
    Draft.pending ((Draft.empty "order").exchanges secondOrder) = [⟨some "drink", .dictation⟩] ∧
      (((Draft.empty "order").after secondOrder).edit .build).1 =
        .ok (some ⟨"order", [⟨some "drink", .dictation⟩]⟩) ∧
      (((Draft.empty "order").after secondOrder).edit (.append (some "drink") (.literal ""))).1 =
        .error (.duplicateKey "order" "drink") ∧
      (((Draft.empty "order").after secondOrder).edit (.append (some "size") (.literal ""))).1 =
        .error .emptyLiteral := by
  have hheld : Draft.pending ((Draft.empty "order").exchanges secondOrder) =
      [⟨some "drink", .dictation⟩] := by decide +kernel
  obtain ⟨hbuild, -, hduplicate, hunused, -⟩ := composing "order" secondOrder
  rw [hheld] at hbuild hduplicate hunused
  refine ⟨hheld, (hbuild _).mpr ⟨List.cons_ne_nil _ _, rfl⟩,
    (hduplicate _ _ _ _).mpr ⟨rfl, rfl, _, List.mem_singleton_self _, rfl⟩,
    (hunused _ _ ?_).1.mpr ⟨"", rfl, rfl⟩⟩
  intro used hused node hnode
  rw [List.mem_singleton.mp hnode, ← hused]
  decide

end Grammar

end Colloquy
