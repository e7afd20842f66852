import Colloquy.Proofs.Recognition.Transcript
import Mathlib.Data.List.Forall2

/-!
# Case and spacing

A grammar may be written, and a line typed, in any case and with any spacing. The search compares
words only and never looks at their spelling (`search_unspelled`), so grammars that ask for the same
words take the same spans of lines that say the same (`Alike.search_eq`). What is reported then
differs in spelling at most, and only where the spelling of the grammar or of the line does
(`recognize_alike`).
-/

namespace Colloquy

open Text Grammar

/-! ## The search without spelling -/

/-- The wording in no spelling. -/
def Wording.unspelled (w : Wording) : Wording := { w with spelling := "" }

theorem Wording.unspelled_ofText {text text' : String} (h : normalForm text = normalForm text') :
    (ofText text).unspelled = (ofText text').unspelled := by
  rw [normalForm_eq_iff] at h
  simp only [unspelled, ofText, h]

namespace Pattern

/-- The pattern with its wordings in no spelling. -/
def unspelled : Pattern → Pattern
  | .fixed w => .fixed w.unspelled
  | .oneOf options => .oneOf (options.map Wording.unspelled)
  | .free => .free

theorem isFree_unspelled (p : Pattern) : p.unspelled.isFree = p.isFree := by cases p <;> rfl

theorem takes_unspelled (p : Pattern) (start : Nat) (heard : List String) :
    p.unspelled.takes start heard = p.takes start heard := by
  cases p with
  | fixed | free => rfl
  | oneOf options =>
    rw [unspelled, takes, takes, List.zipIdx_map, List.filterMap_map]
    rfl

theorem search_unspelled (patterns : List Pattern) (start : Nat) (heard : List String) :
    search (patterns.map unspelled) start heard = search patterns start heard := by
  induction patterns generalizing start heard with
  | nil => rfl
  | cons p patterns ih => simp only [List.map_cons, search, takes_unspelled, ih]

end Pattern

theorem freeWords_unspelled (patterns : List Pattern) (spans : List Span) :
    freeWords (patterns.map Pattern.unspelled) spans = freeWords patterns spans := by
  simp only [freeWords, List.zip_map_left, List.map_map, Function.comp_def, Prod.map,
    Pattern.isFree_unspelled, id_eq]

/-! ## Grammars that ask for the same words -/

/-- The slots are of the same kind and ask for the same words in the same order, in whatever case
and spacing. Entries may stand for different values. -/
inductive Slot.Alike : Slot → Slot → Prop
  | literal {text text' : String} (same : normalForm text = normalForm text') :
    Alike (.literal text) (.literal text')
  | choice {entries entries' : List Entry}
    (same : entries.map (fun e => normalForm e.spoken) =
      entries'.map (fun e => normalForm e.spoken)) :
    Alike (.choice entries) (.choice entries')
  | wildcard : Alike .wildcard .wildcard
  | dictation : Alike .dictation .dictation

theorem Slot.Alike.unspelled_eq {slot slot' : Slot} (h : slot.Alike slot') :
    slot.pattern.unspelled = slot'.pattern.unspelled := by
  cases h with
  | literal same => exact congrArg Pattern.fixed (Wording.unspelled_ofText same)
  | @choice entries entries' same =>
    simp only [Slot.pattern, Pattern.unspelled, List.map_map, Pattern.oneOf.injEq]
    rw [← List.forall₂_eq_eq_eq, List.forall₂_map_left_iff, List.forall₂_map_right_iff] at same ⊢
    exact same.imp fun e e' => Wording.unspelled_ofText
  | wildcard | dictation => rfl

namespace Grammar

/-- The slots of the grammars are alike, one by one. Names and keys do not count. -/
def Alike (g g' : Grammar) : Prop :=
  List.Forall₂ (fun node node' : Node => node.slot.Alike node'.slot) g.nodes g'.nodes

namespace Alike

variable {g g' : Grammar}

theorem unspelled_eq (h : g.Alike g') :
    g.patterns.map Pattern.unspelled = g'.patterns.map Pattern.unspelled := by
  rw [patterns, patterns, List.map_map, List.map_map, ← List.forall₂_eq_eq_eq,
    List.forall₂_map_left_iff, List.forall₂_map_right_iff]
  exact h.imp fun node node' => Slot.Alike.unspelled_eq

theorem search_eq (h : g.Alike g') (start : Nat) (heard : List String) :
    Pattern.search g.patterns start heard = Pattern.search g'.patterns start heard := by
  rw [← Pattern.search_unspelled, h.unspelled_eq, Pattern.search_unspelled]

theorem freeWords_eq (h : g.Alike g') (spans : List Span) :
    freeWords g.patterns spans = freeWords g'.patterns spans := by
  rw [← freeWords_unspelled, h.unspelled_eq, freeWords_unspelled]

end Alike

end Grammar

/-! ## Reports on lines that say the same -/

/-- A free slot is reported as it was typed, whatever the grammar. -/
theorem Slot.Alike.transcribe_eq {slot slot' : Slot} (h : slot.Alike slot')
    (hfree : slot.pattern.isFree = true) (typed : List String) (span : Span) :
    slot.pattern.transcribe typed span = slot'.pattern.transcribe typed span := by
  cases h with
  | literal | choice => cases hfree
  | wildcard | dictation => rfl

/-- Case and spacing never matter, neither in a grammar nor in a line. If two grammars ask for the
same words and two lines say the same, the first grammar recognizes the first line iff the second
recognizes the second. The reports are then equally confident, record the same entries, and say the
same in every slot: in the same spelling where the slot that asks for words is the same, and where
the words of a free slot were typed in the same way. -/
theorem recognize_alike (g g' : Grammar) (line line' : String) (hg : g.Alike g')
    (hline : normalForm line = normalForm line') :
    ((g.recognize line).isSome = true ↔ (g'.recognize line').isSome = true) ∧
      ∀ heard heard', g.recognize line = some heard → g'.recognize line' = some heard' →
        heard.confidence = heard'.confidence ∧
          heard.slots.length = g.nodes.length ∧ heard'.slots.length = g'.nodes.length ∧
          ∀ (p : Nat) (node node' : Node), g.nodes[p]? = some node → g'.nodes[p]? = some node' →
            ∃ m m', heard.slots[p]? = some m ∧ heard'.slots[p]? = some m' ∧
              m.node = p ∧ m'.node = p ∧ m.choice = m'.choice ∧
              normalForm m.text = normalForm m'.text ∧
              (node.slot.pattern.isFree = false → node.slot = node'.slot → m.text = m'.text) ∧
              (node.slot.pattern.isFree = true → words line = words line' → m.text = m'.text) := by
  rw [normalForm_eq_iff] at hline
  refine ⟨?_, ?_⟩
  · rw [isSome_recognize_iff, isSome_recognize_iff, hline, hg.search_eq]
  intro heard heard' h h'
  obtain ⟨spans, hsearch, d, rfl⟩ := exists_derivation h
  obtain ⟨spans', hsearch', d', rfl⟩ := exists_derivation h'
  obtain rfl : spans = spans' := by
    rw [hg.search_eq, hline, hsearch', Option.some.injEq] at hsearch
    exact hsearch.symm
  refine ⟨?_, length_slots d, length_slots d', ?_⟩
  · simp only [Recognition.ofSpans, hg.freeWords_eq, length_words_eq hline]
  intro p node node' hnode hnode'
  obtain ⟨span, m, hspan, hm, hreport, hreported⟩ := reported_at d hnode
  obtain ⟨span', m', hspan', hm', hreport', hreported'⟩ := reported_at d' hnode'
  obtain rfl : span = span' := Option.some.inj (hspan.symm.trans hspan')
  have hsaid := (d.said_at hnode hspan).2.2
  have hslots : node.slot.Alike node'.slot := by
    obtain ⟨hp, rfl⟩ := List.getElem?_eq_some_iff.mp hnode
    obtain ⟨hp', rfl⟩ := List.getElem?_eq_some_iff.mp hnode'
    exact hg.get hp hp'
  have hcut : (span.cut (words line)).map lowercase = (span.cut (words line')).map lowercase := by
    rw [← Span.cut_map, ← Span.cut_map]
    exact congrArg span.cut hline
  refine ⟨m, m', hm, hm', hreported.node, hreported'.node, ?_, ?_, ?_, ?_⟩
  · rw [hreport, hreport']
  · rw [hreported.normal, hreported'.normal, hcut]
  · intro hfree hsame
    rw [hreport, hreport', ← hsame]
    exact hsaid.transcribe_eq hfree
  · intro hfree hwords
    rw [hreport, hreport', ← hwords]
    exact hslots.transcribe_eq hfree _ _

/-- The grammar `orderTea` in another case and spacing, and with other keys and values. -/
def shoutedTea : Grammar :=
  ⟨"ORDER", [⟨none, .literal "i\u2003WANT "⟩,
    ⟨some "leaf", .choice [⟨" GREEN", .text "plain"⟩, ⟨"Green\u00a0tea", .text "tea"⟩]⟩,
    ⟨none, .wildcard⟩,
    ⟨some "who", .dictation⟩]⟩

theorem recognize_alike_shoutedTea :
    orderTea.Alike shoutedTea ∧
      normalForm " i WANT green tea for Kai  Lee" =
        normalForm "I want\tGREEN Tea FOR kai lee\u3000" ∧
      ∃ heard heard', orderTea.recognize " i WANT green tea for Kai  Lee" = some heard ∧
        shoutedTea.recognize "I want\tGREEN Tea FOR kai lee\u3000" = some heard' ∧
        heard.confidence = heard'.confidence ∧
        heard.slots.map (·.text) = ["I want", "Green", "tea", "for Kai Lee"] ∧
        ∃ m', heard'.slots[3]? = some m' ∧ normalForm m'.text = "for kai lee" := by
  have halike : orderTea.Alike shoutedTea :=
    .cons (.literal (by decide +kernel)) (.cons (.choice (by decide +kernel))
      (.cons .wildcard (.cons .dictation .nil)))
  have hsays : normalForm " i WANT green tea for Kai  Lee" =
      normalForm "I want\tGREEN Tea FOR kai lee\u3000" := by decide +kernel
  have htexts : (orderTea.recognize " i WANT green tea for Kai  Lee").map (·.slots.map (·.text)) =
      some ["I want", "Green", "tea", "for Kai Lee"] := by decide +kernel
  obtain ⟨heard, hheard, hslots⟩ := Option.map_eq_some_iff.mp htexts
  obtain ⟨hiff, hreports⟩ := recognize_alike _ _ _ _ halike hsays
  obtain ⟨heard', hheard'⟩ := Option.isSome_iff_exists.mp (hiff.mp (hheard ▸ rfl))
  obtain ⟨hconfidence, -, -, hat⟩ := hreports heard heard' hheard hheard'
  obtain ⟨m, m', hm, hm', -, -, -, hnormal, -⟩ := hat 3 _ _ rfl rfl
  have htext : m.text = "for Kai Lee" := by
    have hlast := congrArg (·[3]?) hslots
    rw [List.getElem?_map, hm] at hlast
    exact Option.some.inj hlast
  refine ⟨halike, hsays, heard, heard', hheard, hheard', hconfidence, hslots, m', hm', ?_⟩
  rw [← hnormal, htext]
  decide +kernel

end Colloquy
