import Colloquy.Proofs.Recognition.Certainty

/-!
# Blank entries

A blank entry asks for the empty word, which is never said. So a choice without its blank entries
takes the same words in the same order (`takes_withoutBlanks`), and the search goes the same way but
for the numbers of the entries (`search_withoutBlanks`). The same is reported then, and the same
entries are recorded, none of them blank (`reported_withoutBlanks`).
-/

namespace Colloquy

open Text Grammar

/-! ## Choices without blank entries -/

/-- The entry is spoken without words. -/
def Entry.isBlank (e : Entry) : Bool := (words e.spoken).isEmpty

theorem Entry.isBlank_iff {e : Entry} : e.isBlank = true ↔ words e.spoken = [] := List.isEmpty_iff

/-- The slot without the blank ones of its entries. -/
def Slot.withoutBlanks : Slot → Slot
  | .choice entries => .choice (entries.filter (!·.isBlank))
  | slot => slot

def Node.withoutBlanks (node : Node) : Node := { node with slot := node.slot.withoutBlanks }

def Grammar.withoutBlanks (g : Grammar) : Grammar :=
  { g with nodes := g.nodes.map Node.withoutBlanks }

theorem Slot.isFree_withoutBlanks (slot : Slot) :
    slot.withoutBlanks.pattern.isFree = slot.pattern.isFree := by cases slot <;> rfl

theorem Grammar.map_isFree_withoutBlanks (g : Grammar) :
    g.withoutBlanks.nodes.map (·.slot.pattern.isFree) = g.nodes.map (·.slot.pattern.isFree) := by
  rw [withoutBlanks, List.map_map]
  exact List.map_congr_left fun node _ => node.slot.isFree_withoutBlanks

/-! ## The same stretches -/

/-- The stretch of words alone. -/
def Span.unnumbered (span : Span) : Span := { span with choice := none }

namespace Pattern

/-- The stretches that a choice takes, whatever the numbers of its options. -/
theorem takes_oneOf_unnumbered (options : List Wording) (start : Nat) (heard : List String) :
    ((oneOf options).takes start heard).map (Prod.map Span.unnumbered id) =
      options.filterMap fun w => (w.after? heard).map fun rest =>
        (⟨start, start + w.words.length, none⟩, rest) := by
  rw [takes, List.map_filterMap]
  conv_rhs => rw [← List.zipIdx_map_fst 0 options, List.filterMap_map]
  simp only [Option.map_map]
  rfl

theorem takes_withoutBlanks {heard : List String} (hne : ∀ w ∈ heard, w ≠ "") (slot : Slot)
    (start : Nat) :
    (slot.withoutBlanks.pattern.takes start heard).map (Prod.map Span.unnumbered id) =
      (slot.pattern.takes start heard).map (Prod.map Span.unnumbered id) := by
  cases slot with
  | literal | wildcard | dictation => rfl
  | choice entries =>
    rw [Slot.withoutBlanks, Slot.pattern, Slot.pattern, takes_oneOf_unnumbered,
      takes_oneOf_unnumbered, List.filterMap_map, List.filterMap_map, List.filterMap_filter]
    apply List.filterMap_congr
    intro e _
    cases hblank : e.isBlank with
    | false => rfl
    | true =>
      have hlowered := loweredWords_eq_nil_iff.mpr (Entry.isBlank_iff.mp hblank)
      rw [Function.comp_apply, Wording.after?_of_blank hne hlowered]
      rfl

theorem search_cons_unnumbered (p : Pattern) (patterns : List Pattern) (start : Nat)
    (heard : List String) :
    (search (p :: patterns) start heard).map (·.map Span.unnumbered) =
      ((p.takes start heard).map (Prod.map Span.unnumbered id)).findSome? fun (span, rest) =>
        ((search patterns span.stop rest).map (·.map Span.unnumbered)).map (span :: ·) := by
  rw [search, List.map_findSome?, List.findSome?_map]
  congr 1
  funext taken
  obtain ⟨span, rest⟩ := taken
  simp only [Function.comp_apply, Option.map_map]
  rfl

/-- The search for stretches does not see blank entries. -/
theorem search_withoutBlanks (nodes : List Node) {heard : List String} (hne : ∀ w ∈ heard, w ≠ "")
    (start : Nat) :
    (search (nodes.map (·.slot.withoutBlanks.pattern)) start heard).map (·.map Span.unnumbered) =
      (search (nodes.map (·.slot.pattern)) start heard).map (·.map Span.unnumbered) := by
  induction nodes generalizing start heard with
  | nil => rfl
  | cons node nodes ih =>
    rw [List.map_cons, List.map_cons, search_cons_unnumbered, search_cons_unnumbered,
      takes_withoutBlanks hne, ← List.head?_filterMap, ← List.head?_filterMap]
    congr 1
    apply List.filterMap_congr
    rintro ⟨span, rest⟩ hmem
    obtain ⟨⟨taken, other⟩, htaken, heq⟩ := List.mem_map.mp hmem
    obtain rfl : other = rest := congrArg Prod.snd heq
    obtain ⟨_, hheard, -⟩ := exists_taken_of_mem_takes htaken
    have hrest : ∀ w ∈ other, w ≠ "" := fun w hw => hne w (hheard ▸ List.mem_append_right _ hw)
    exact congrArg (Option.map _) (ih hrest span.stop)

end Pattern

/-! ## The same report -/

variable {g : Grammar} {line : String}

/-- The entry that is recorded for the slot. -/
def Slot.recorded? (choice : Option Nat) : Slot → Option Entry
  | .choice entries => choice.bind (entries[·]?)
  | .literal _ | .wildcard | .dictation => none

/-- The entry that is recorded for a choice is the first one that is spoken in the words that were
heard. -/
theorem recorded?_of_search {heard : List String} (hne : ∀ w ∈ heard, w ≠ "") {spans : List Span}
    (h : Pattern.search g.patterns 0 heard = some spans) {p : Nat} {node : Node} {span : Span}
    {entries : List Entry} (hnode : g.nodes[p]? = some node) (hspan : spans[p]? = some span)
    (hslot : node.slot = .choice entries) :
    node.slot.recorded? span.choice =
      entries.find? fun e => loweredWords e.spoken == span.cut heard := by
  have d := Pattern.derivation_of_search hne (Nat.zero_le _) h
  obtain ⟨-, -, hsaid⟩ := d.said_at hnode hspan
  obtain ⟨i, e, hi, he, hfirst⟩ := first_entry_of_search hne h hnode hspan hslot
  rw [hslot] at hsaid ⊢
  obtain ⟨j, e', hj, he', hcut⟩ := hsaid
  obtain rfl := Option.some.inj (hi.symm.trans hj)
  obtain rfl := Option.some.inj (he.symm.trans he')
  rw [Slot.recorded?, hi, Option.bind_some, he, hcut, eq_comm]
  exact find?_eq_of_first he (beq_self_eq_true _) fun k other hk hother =>
    beq_eq_false_iff_ne.mpr (hfirst k other hk hother)

theorem Grammar.patterns_withoutBlanks (g : Grammar) :
    g.withoutBlanks.patterns = g.nodes.map (·.slot.withoutBlanks.pattern) := by
  rw [patterns, withoutBlanks, List.map_map]
  rfl

theorem isSome_recognize_withoutBlanks (g : Grammar) (line : String) :
    (g.withoutBlanks.recognize line).isSome = true ↔ (g.recognize line).isSome = true := by
  have hne : ∀ w ∈ loweredWords line, w ≠ "" := fun _ => ne_empty_of_mem_loweredWords
  have hsearch := congrArg Option.isSome (Pattern.search_withoutBlanks g.nodes hne 0)
  rw [Option.isSome_map, Option.isSome_map, ← patterns_withoutBlanks] at hsearch
  rw [isSome_recognize_iff, isSome_recognize_iff, hsearch]
  rfl

/-- An entry that is spoken in words is found among those that are not blank. -/
theorem find?_withoutBlanks {group : List String} (hne : group ≠ []) (entries : List Entry) :
    (entries.filter (!·.isBlank)).find? (fun e => loweredWords e.spoken == group) =
      entries.find? fun e => loweredWords e.spoken == group := by
  rw [List.find?_filter]
  congr 1
  funext e
  rw [Bool.decide_and, Bool.decide_eq_true, Bool.decide_eq_true, Bool.and_eq_right_iff_imp]
  intro hsaid
  rw [beq_iff_eq] at hsaid
  rw [Bool.not_eq_true', ← Bool.not_eq_true, Entry.isBlank_iff, ← loweredWords_eq_nil_iff, hsaid]
  exact hne

theorem Slot.ReportedAs.text_withoutBlanks {slot : Slot} {p : Nat} {group : List String}
    {m m' : SlotMatch} (h : slot.ReportedAs p group m)
    (h' : slot.withoutBlanks.ReportedAs p group m')
    (hsame : slot.withoutBlanks.recorded? m'.choice = slot.recorded? m.choice) :
    m'.text = m.text := by
  have hspelling := h.spelling
  have hspelling' := h'.spelling
  cases slot with
  | literal | wildcard | dictation => exact hspelling'.trans hspelling.symm
  | choice entries =>
    obtain ⟨i, e, hi, he, htext⟩ := hspelling
    obtain ⟨i', e', hi', he', htext'⟩ := hspelling'
    simp only [Slot.withoutBlanks, Slot.recorded?, hi, hi', Option.bind_some, he, he',
      Option.some.injEq] at hsame
    rw [htext, htext', hsame]

theorem getElem?_withoutBlanks {p : Nat} {node : Node} (hnode : g.nodes[p]? = some node) :
    g.withoutBlanks.nodes[p]? = some node.withoutBlanks := by
  rw [withoutBlanks, List.getElem?_map, hnode, Option.map_some]

section

variable {spans spans' : List Span}
  (h : Pattern.search g.patterns 0 (loweredWords line) = some spans)
  (h' : Pattern.search g.withoutBlanks.patterns 0 (loweredWords line) = some spans')
include h h'

theorem cuts_withoutBlanks (ws : List String) :
    spans'.map (·.cut ws) = spans.map (·.cut ws) := by
  have hne : ∀ w ∈ loweredWords line, w ≠ "" := fun _ => ne_empty_of_mem_loweredWords
  have hsame := Pattern.search_withoutBlanks g.nodes hne 0
  rw [← patterns_withoutBlanks, h', ← patterns, h] at hsame
  have hcut := congrArg (List.map (·.cut ws)) (Option.some.inj hsame)
  rwa [List.map_map, List.map_map] at hcut

theorem freeWords_withoutBlanks :
    freeWords g.withoutBlanks.patterns spans' = freeWords g.patterns spans := by
  have hlen := (length_loweredWords line).symm
  rw [patterns, patterns, (derivation_of_line h).freeWords_eq hlen,
    (derivation_of_line h').freeWords_eq hlen, cuts_withoutBlanks h h',
    freeOf_congr g.map_isFree_withoutBlanks]

/-- Without blank entries a choice records the same entry, which is not blank. -/
theorem recorded?_withoutBlanks {p : Nat} {node : Node} {span span' : Span}
    (hnode : g.nodes[p]? = some node) (hspan : spans[p]? = some span)
    (hspan' : spans'[p]? = some span')
    (hcut : span'.cut (loweredWords line) = span.cut (loweredWords line)) :
    node.slot.withoutBlanks.recorded? span'.choice = node.slot.recorded? span.choice ∧
      ∀ e, node.slot.recorded? span.choice = some e → words e.spoken ≠ [] := by
  have hne : ∀ w ∈ loweredWords line, w ≠ "" := fun _ => ne_empty_of_mem_loweredWords
  have hgroup : span.cut (loweredWords line) ≠ [] := by
    obtain ⟨hlt, hle, -⟩ := (derivation_of_line h).said_at hnode hspan
    have hlen := length_cut hle
    exact List.length_pos_iff.mp (by omega)
  cases hslot : node.slot with
  | literal | wildcard | dictation => exact ⟨rfl, nofun⟩
  | choice entries =>
    have hrecorded := recorded?_of_search hne h hnode hspan hslot
    have hslot' : node.withoutBlanks.slot = .choice (entries.filter (!·.isBlank)) := by
      rw [Node.withoutBlanks, hslot]
      rfl
    have hrecorded' := recorded?_of_search hne h' (getElem?_withoutBlanks hnode) hspan' hslot'
    rw [hslot'] at hrecorded'
    rw [hslot] at hrecorded
    refine ⟨?_, fun e he => ?_⟩
    · rw [Slot.withoutBlanks, hrecorded', hrecorded, hcut, find?_withoutBlanks hgroup]
    · rw [hrecorded] at he
      have hsaid := List.find?_some he
      rw [beq_iff_eq] at hsaid
      rw [ne_eq, ← loweredWords_eq_nil_iff, hsaid]
      exact hgroup

/-- The report on a slot, and the one without blank entries. -/
theorem slot_withoutBlanks {p : Nat} {node : Node} (hnode : g.nodes[p]? = some node) :
    ∃ m m', (Recognition.ofSpans (words line) g.patterns spans).slots[p]? = some m ∧
      (Recognition.ofSpans (words line) g.withoutBlanks.patterns spans').slots[p]? = some m' ∧
      m'.text = m.text ∧
      node.slot.withoutBlanks.recorded? m'.choice = node.slot.recorded? m.choice ∧
      ∀ e, node.slot.recorded? m.choice = some e → words e.spoken ≠ [] := by
  obtain ⟨span, m, hspan, hm, hreport, hreported⟩ := reported_at (derivation_of_line h) hnode
  obtain ⟨span', m', hspan', hm', hreport', hreported'⟩ :=
    reported_at (derivation_of_line h') (getElem?_withoutBlanks hnode)
  have hcut (ws : List String) : span'.cut ws = span.cut ws := by
    have hcuts := congrArg (·[p]?) (cuts_withoutBlanks h h' ws)
    simpa only [List.getElem?_map, hspan, hspan', Option.map_some, Option.some.injEq] using hcuts
  obtain ⟨hsame, hspoken⟩ := recorded?_withoutBlanks h h' hnode hspan hspan' (hcut _)
  have hchoice : m.choice = span.choice := by rw [hreport]
  have hchoice' : m'.choice = span'.choice := by rw [hreport']
  rw [← hchoice, ← hchoice'] at hsame
  rw [← hchoice] at hspoken
  rw [hcut] at hreported'
  exact ⟨m, m', hm, hm', hreported.text_withoutBlanks hreported' hsame, hsame, hspoken⟩

theorem texts_withoutBlanks :
    (Recognition.ofSpans (words line) g.withoutBlanks.patterns spans').slots.map (·.text) =
      (Recognition.ofSpans (words line) g.patterns spans).slots.map (·.text) := by
  have hlen := length_slots (derivation_of_line h)
  have hlen' := length_slots (derivation_of_line h')
  have hcount : g.withoutBlanks.nodes.length = g.nodes.length := List.length_map _
  rw [hcount] at hlen'
  apply List.ext_getElem?
  intro p
  rw [List.getElem?_map, List.getElem?_map]
  cases hnode : g.nodes[p]? with
  | none =>
    have hp := List.getElem?_eq_none_iff.mp hnode
    rw [List.getElem?_eq_none (hlen.trans_le hp), List.getElem?_eq_none (hlen'.trans_le hp)]
  | some node =>
    obtain ⟨m, m', hm, hm', htext, -⟩ := slot_withoutBlanks h h' hnode
    rw [hm, hm', Option.map_some, Option.map_some, htext]

end

/-- Blank entries are not heard. Without them the same is reported of the same entries, though these
have other numbers; and no recorded entry is blank. -/
theorem reported_withoutBlanks {heard heard' : Recognition} (h : g.recognize line = some heard)
    (h' : g.withoutBlanks.recognize line = some heard') :
    heard'.text = heard.text ∧ heard'.confidence = heard.confidence ∧
      ∀ (p : Nat) (node : Node), g.nodes[p]? = some node →
        ∃ m m', heard.slots[p]? = some m ∧ heard'.slots[p]? = some m' ∧ m'.text = m.text ∧
          node.slot.withoutBlanks.recorded? m'.choice = node.slot.recorded? m.choice ∧
          ∀ e, node.slot.recorded? m.choice = some e → words e.spoken ≠ [] := by
  obtain ⟨-, spans, hsearch, rfl⟩ := recognize_eq_some_iff.mp h
  obtain ⟨-, spans', hsearch', rfl⟩ := recognize_eq_some_iff.mp h'
  refine ⟨congrArg spaced (texts_withoutBlanks hsearch hsearch'), ?_, fun p node hnode =>
    slot_withoutBlanks hsearch hsearch' hnode⟩
  simp only [Recognition.ofSpans, freeWords_withoutBlanks hsearch hsearch']

end Colloquy
