import Colloquy.Proofs.Recognition.Certainty
import Colloquy.Proofs.Recognition.Saying

/-!
# Wider grammars

A slot covers another one if whatever says the other says it too (`Slot.Covers.saidIn`). So a
division of a line among the slots of a grammar is one among slots that cover them
(`Grammar.Covers.divides`), and the line stays recognized, though the search may take another
division now. Where there is no other one, a choice may be rearranged and nothing else is reported
(`recognize_of_covers`).
-/

namespace Colloquy

open Text Grammar

/-! ## Divisions of a line -/

theorem Slot.SaidBy.saidIn {heard : List String} {span : Span} {slot : Slot}
    (h : slot.SaidBy heard span) : slot.SaidIn (span.cut heard) := by
  cases slot with
  | literal text => exact h.2
  | choice entries =>
    obtain ⟨i, e, -, he, hcut⟩ := h
    exact ⟨e, List.mem_of_getElem? he, hcut⟩
  | wildcard | dictation => trivial

/-- The groups divide the words of the line among the slots, and each says its slot. -/
structure Grammar.Divides (g : Grammar) (line : String) (groups : List (List String)) : Prop where
  flatten_eq : groups.flatten = words line
  said : List.Forall₂ (fun node group => group ≠ [] ∧ node.slot.SaidIn (group.map lowercase))
    g.nodes groups

theorem Grammar.Derivation.forall₂_saidIn {heard : List String} {nodes : List Node} {start : Nat}
    {spans : List Span} (d : Derivation heard nodes start spans) {typed : List String}
    (htyped : typed.map lowercase = heard) :
    List.Forall₂ (fun node group => group ≠ [] ∧ node.slot.SaidIn (group.map lowercase)) nodes
      (spans.map (·.cut typed)) := by
  induction d with
  | done => exact .nil
  | @slot node nodes start span spans starts nonempty said rest ih =>
    have hlen : (span.cut typed).length = span.stop - span.start := by
      have htotal : (typed.map lowercase).length = typed.length := List.length_map _
      rw [htyped] at htotal
      exact length_cut (rest.start_le.trans_eq htotal)
    have hsaid := said.saidIn
    rw [← htyped, Span.cut_map] at hsaid
    have hne : span.cut typed ≠ [] := List.length_pos_iff.mp (by omega)
    exact .cons ⟨hne, hsaid⟩ ih

variable {g g' : Grammar} {line : String}

/-- The spans of a derivation divide the line. -/
theorem Grammar.Derivation.divides {spans : List Span}
    (d : Derivation (loweredWords line) g.nodes 0 spans) :
    g.Divides line (spans.map (·.cut (words line))) :=
  ⟨d.flatten_cut (length_loweredWords line).symm, d.forall₂_saidIn rfl⟩

/-- A line is recognized iff it has words and they can be divided among the slots. -/
theorem isSome_recognize_iff_divides :
    (g.recognize line).isSome = true ↔ words line ≠ [] ∧ ∃ groups, g.Divides line groups := by
  constructor
  · intro h
    obtain ⟨heard, hheard⟩ := Option.isSome_iff_exists.mp h
    obtain ⟨spans, -, d, -⟩ := exists_derivation hheard
    exact ⟨(recognize_eq_some_iff.mp hheard).1, _, d.divides⟩
  · rintro ⟨hwords, groups, hgroups⟩
    have hnodes : g.nodes ≠ [] := by
      intro hnil
      have hsaid := hgroups.said
      rw [hnil, List.forall₂_nil_left_iff] at hsaid
      rw [← hgroups.flatten_eq, hsaid] at hwords
      exact hwords rfl
    have hlowered : loweredWords line = (groups.map (·.map lowercase)).flatten := by
      rw [← List.map_flatten, hgroups.flatten_eq, loweredWords]
    rw [Option.isSome_iff_exists]
    refine exists_recognize_of_groups hnodes ?_ hlowered
    rw [List.forall₂_map_right_iff]
    exact hgroups.said.imp fun node group h => ⟨List.map_eq_nil_iff.not.mpr h.1, h.2⟩

/-! ## Slots that cover others -/

/-- Whatever says the other slot says this one. -/
inductive Slot.Covers : Slot → (other : Slot) → Prop
  /-- A literal covers one that has the same words. -/
  | literal {text other : String} (same : normalForm text = normalForm other) :
    Covers (.literal text) (.literal other)
  /-- A choice covers a literal that has the words of an entry. -/
  | entry {entries : List Entry} {other : String}
    (offered : normalForm other ∈ entries.map fun e => normalForm e.spoken) :
    Covers (.choice entries) (.literal other)
  /-- A choice covers one of which it offers every entry that has words. -/
  | entries {entries others : List Entry}
    (offered : ∀ e ∈ others, normalForm e.spoken ≠ "" →
      normalForm e.spoken ∈ entries.map fun e => normalForm e.spoken) :
    Covers (.choice entries) (.choice others)
  | wildcard {other : Slot} : Covers .wildcard other
  | dictation {other : Slot} : Covers .dictation other

theorem exists_saidIn_of_mem {entries : List Entry} {text : String}
    (h : normalForm text ∈ entries.map fun e => normalForm e.spoken) :
    (Slot.choice entries).SaidIn (loweredWords text) := by
  obtain ⟨e, he, hsame⟩ := List.mem_map.mp h
  exact ⟨e, he, (normalForm_eq_iff.mp hsame).symm⟩

theorem Slot.Covers.saidIn {slot other : Slot} (h : slot.Covers other) {group : List String}
    (hne : group ≠ []) (hsaid : other.SaidIn group) : slot.SaidIn group := by
  cases h with
  | literal same => exact hsaid.trans (normalForm_eq_iff.mp same).symm
  | entry offered => exact hsaid ▸ exists_saidIn_of_mem offered
  | entries offered =>
    obtain ⟨e, he, rfl⟩ := hsaid
    apply exists_saidIn_of_mem (offered e he _)
    rw [ne_eq, normalForm_eq_empty_iff, ← loweredWords_eq_nil_iff]
    exact hne
  | wildcard | dictation => trivial

/-- The slots of the grammar cover those of the other, one by one. Names and keys do not count. -/
def Grammar.Covers (g other : Grammar) : Prop :=
  List.Forall₂ (fun node node' : Node => node.slot.Covers node'.slot) g.nodes other.nodes

/-- A division is one among slots that cover the slots. -/
theorem Grammar.Covers.divides (h : g.Covers g') {groups : List (List String)}
    (hgroups : g'.Divides line groups) : g.Divides line groups := by
  obtain ⟨hflatten, hsaid⟩ := hgroups
  refine ⟨hflatten, ?_⟩
  clear hflatten
  unfold Covers at h
  generalize g.nodes = nodes at h ⊢
  generalize g'.nodes = nodes' at h hsaid
  induction h generalizing groups with
  | nil => exact hsaid
  | cons hcovers _ ih =>
    cases hsaid with
    | cons hfirst hrest =>
      exact .cons ⟨hfirst.1, hcovers.saidIn (List.map_eq_nil_iff.not.mpr hfirst.1) hfirst.2⟩
        (ih hrest)

theorem Grammar.Covers.isSome_recognize (h : g.Covers g')
    (hline : (g'.recognize line).isSome = true) : (g.recognize line).isSome = true := by
  obtain ⟨hwords, groups, hgroups⟩ := isSome_recognize_iff_divides.mp hline
  exact isSome_recognize_iff_divides.mpr ⟨hwords, groups, h.divides hgroups⟩

/-! ## Rearranged choices -/

/-- The slots are the same, or choices among the same words, in whatever order, as often as may be,
and in any case and spacing. Blank entries do not count. -/
inductive Slot.Rearranges : Slot → Slot → Prop
  | refl (slot : Slot) : Rearranges slot slot
  | entries {entries entries' : List Entry}
    (same : ∀ form, form ≠ "" → (form ∈ entries.map (fun e => normalForm e.spoken) ↔
      form ∈ entries'.map fun e => normalForm e.spoken)) :
    Rearranges (.choice entries) (.choice entries')

namespace Slot.Rearranges

variable {slot slot' : Slot}

theorem symm (h : slot.Rearranges slot') : slot'.Rearranges slot := by
  cases h with
  | refl => exact .refl slot
  | entries same => exact .entries fun form hform => (same form hform).symm

theorem covers (h : slot.Rearranges slot') : slot.Covers slot' := by
  cases h with
  | refl =>
    cases slot with
    | literal => exact .literal rfl
    | choice => exact .entries fun e he _ => List.mem_map_of_mem he
    | wildcard => exact .wildcard
    | dictation => exact .dictation
  | entries same => exact .entries fun e he hform => (same _ hform).mpr (List.mem_map_of_mem he)

theorem isFree_eq (h : slot.Rearranges slot') : slot.pattern.isFree = slot'.pattern.isFree := by
  cases h <;> rfl

end Slot.Rearranges

namespace Grammar

/-- The slots of the grammar rearrange those of the other, one by one. Names and keys do not
count. -/
def Rearranges (g other : Grammar) : Prop :=
  List.Forall₂ (fun node node' : Node => node.slot.Rearranges node'.slot) g.nodes other.nodes

namespace Rearranges

theorem symm (h : g.Rearranges g') : g'.Rearranges g :=
  (h.imp fun _ _ hslots => hslots.symm).flip

theorem covers (h : g.Rearranges g') : g.Covers g' := h.imp fun _ _ => Slot.Rearranges.covers

theorem map_isFree_eq (h : g.Rearranges g') :
    g.nodes.map (·.slot.pattern.isFree) = g'.nodes.map (·.slot.pattern.isFree) := by
  rw [← List.forall₂_eq_eq_eq, List.forall₂_map_left_iff, List.forall₂_map_right_iff]
  exact h.imp fun _ _ => Slot.Rearranges.isFree_eq

end Rearranges

end Grammar

/-! ## Reports on the same division -/

theorem normalForm_slots {spans : List Span}
    (d : Derivation (loweredWords line) g.nodes 0 spans) :
    (Recognition.ofSpans (words line) g.patterns spans).slots.map (normalForm ·.text) =
      (spans.map (·.cut (words line))).map fun group => spaced (group.map lowercase) := by
  have hlowered := congrArg (List.map spaced) (loweredWords_slots d)
  rw [List.map_map, List.map_map] at hlowered
  rw [List.map_map]
  exact hlowered

/-- Widening a grammar never loses an utterance: a grammar whose slots cover those of another one,
one by one, recognizes every line that the other recognizes. So choices may be rearranged, and the
same lines are recognized. What is reported on a line may differ then in the division of its words
only: if there is but one division, the reports are equally confident and say the same in every
slot. -/
theorem recognize_of_covers (g g' : Grammar) :
    (g'.Covers g → ∀ line, (g.recognize line).isSome = true →
        (g'.recognize line).isSome = true) ∧
      (g.Rearranges g' → ∀ line,
        ((g.recognize line).isSome = true ↔ (g'.recognize line).isSome = true) ∧
          ∀ heard heard', g.recognize line = some heard → g'.recognize line = some heard' →
            (∀ groups groups', g.Divides line groups → g.Divides line groups' →
              groups = groups') →
            heard.confidence = heard'.confidence ∧
              heard.slots.map (normalForm ·.text) = heard'.slots.map (normalForm ·.text)) := by
  refine ⟨fun h line => h.isSome_recognize, fun h line => ?_⟩
  refine ⟨⟨h.symm.covers.isSome_recognize, h.covers.isSome_recognize⟩,
    fun heard heard' hheard hheard' hunique => ?_⟩
  obtain ⟨spans, -, d, rfl⟩ := exists_derivation hheard
  obtain ⟨spans', -, d', rfl⟩ := exists_derivation hheard'
  have hcuts : spans.map (·.cut (words line)) = spans'.map (·.cut (words line)) :=
    hunique _ _ d.divides (h.covers.divides d'.divides)
  refine ⟨?_, ?_⟩
  · have hlen := (length_loweredWords line).symm
    have hfree : freeWords g.patterns spans = freeWords g'.patterns spans' := by
      rw [patterns, patterns, d.freeWords_eq hlen, d'.freeWords_eq hlen, hcuts,
        freeOf_congr h.map_isFree_eq]
    simp only [Recognition.ofSpans, hfree]
  · rw [normalForm_slots d, normalForm_slots d', hcuts]

/-- The slots of `orderTea`, each made wider: a literal among others, more entries in another order,
and free slots. -/
def widerTea : Grammar :=
  ⟨"order", [⟨none, .choice [⟨"we want", .int 1⟩, ⟨"I WANT", .int 2⟩]⟩,
    ⟨some "tea", .choice [⟨"green tea", .int 1⟩, ⟨"", .int 2⟩, ⟨"green", .int 3⟩]⟩,
    ⟨some "rest", .dictation⟩,
    ⟨none, .wildcard⟩]⟩

def greenTea : Grammar :=
  ⟨"tea", [⟨some "tea", .choice [⟨"Green", .int 1⟩, ⟨"green TEA", .int 2⟩]⟩]⟩

/-- The entries of `greenTea` in another order and case, one of them twice. -/
def rearrangedTea : Grammar :=
  ⟨"tea", [⟨some "tea", .choice [⟨"GREEN tea", .int 2⟩, ⟨"green", .int 1⟩,
    ⟨"Green\u2003tea", .int 3⟩]⟩]⟩

theorem recognize_of_covers_tea :
    (orderTea.recognize " i WANT green tea for Kai  Lee").isSome = true ∧
      (widerTea.recognize " i WANT green tea for Kai  Lee").isSome = true ∧
      ∃ heard heard', greenTea.recognize "green tea" = some heard ∧
        rearrangedTea.recognize "green tea" = some heard' ∧
        heard.confidence = heard'.confidence ∧
        heard.slots.map (normalForm ·.text) = heard'.slots.map (normalForm ·.text) := by
  have horder : (orderTea.recognize " i WANT green tea for Kai  Lee").isSome = true := by
    decide +kernel
  have hgreen : (greenTea.recognize "green tea").isSome = true := by decide +kernel
  have hwider : widerTea.Covers orderTea :=
    .cons (.entry (by decide +kernel)) (.cons (.entries (by decide +kernel))
      (.cons .dictation (.cons .wildcard .nil)))
  have hrearranged : greenTea.Rearranges rearrangedTea := by
    refine .cons (.entries fun form _ => ?_) .nil
    have hforms : [⟨"Green", .int 1⟩, ⟨"green TEA", .int 2⟩].map
        (fun e : Entry => normalForm e.spoken) = ["green", "green tea"] := by decide +kernel
    have hforms' : [⟨"GREEN tea", .int 2⟩, ⟨"green", .int 1⟩, ⟨"Green\u2003tea", .int 3⟩].map
        (fun e : Entry => normalForm e.spoken) = ["green tea", "green", "green tea"] := by
      decide +kernel
    rw [hforms, hforms']
    simp only [List.mem_cons, List.not_mem_nil, or_false]
    grind
  -- With one slot there is one division: the slot says the whole line.
  have hwhole (groups : List (List String)) (h : greenTea.Divides "green tea" groups) :
      groups = [words "green tea"] := by
    obtain ⟨hflatten, hsaid⟩ := h
    obtain ⟨group, rest, -, hnil, rfl⟩ := List.forall₂_cons_left_iff.mp hsaid
    rw [List.forall₂_nil_left_iff.mp hnil, List.flatten_singleton] at hflatten
    rw [List.forall₂_nil_left_iff.mp hnil, hflatten]
  obtain ⟨hiff, hreports⟩ := (recognize_of_covers greenTea rearrangedTea).2 hrearranged "green tea"
  obtain ⟨heard, hheard⟩ := Option.isSome_iff_exists.mp hgreen
  obtain ⟨heard', hheard'⟩ := Option.isSome_iff_exists.mp (hiff.mp hgreen)
  refine ⟨horder, (recognize_of_covers orderTea widerTea).1 hwider _ horder, heard, heard', hheard,
    hheard', ?_⟩
  exact hreports heard heard' hheard hheard' fun groups groups' h h' =>
    (hwhole groups h).trans (hwhole groups' h').symm

end Colloquy
