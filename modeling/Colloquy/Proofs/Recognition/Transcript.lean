import Colloquy.Proofs.Recognition.Report

/-!
# Transcripts

A line that is recognized is divided into groups of words, one for each slot, and the transcript
says these groups one after the other: constrained ones in the spelling of the grammar, free ones as
they were typed. Nothing is lost, invented or put in another order (`recognize_groups`).

* `flatten_cut`: the spans of a derivation cut the words of a line up without a gap.
* `reported_at`: what is reported on each slot.
* `loweredWords_transcript`: a transcript has the lowered words of the line.
-/

namespace Colloquy

open Text Grammar

/-! ## Words cut out of a line -/

theorem Span.cut_map (span : Span) (f : String → String) (ws : List String) :
    span.cut (ws.map f) = (span.cut ws).map f := by
  rw [cut, cut, List.map_drop, List.map_take]

theorem Span.mem_of_mem_cut {span : Span} {w : String} {ws : List String} (h : w ∈ span.cut ws) :
    w ∈ ws :=
  List.mem_of_mem_take (List.mem_of_mem_drop h)

theorem isWord_of_mem_cut {span : Span} {line w : String} (h : w ∈ span.cut (words line)) :
    IsWord w :=
  isWord_of_mem_words (Span.mem_of_mem_cut h)

/-- The spans of a derivation cut the words up without a gap. -/
theorem Grammar.Derivation.flatten_cut {heard : List String} {nodes : List Node} {start : Nat}
    {spans : List Span} (d : Derivation heard nodes start spans) {ws : List String}
    (hlen : ws.length = heard.length) : (spans.map (·.cut ws)).flatten = ws.drop start := by
  induction d with
  | done => rw [← hlen, List.drop_length]; rfl
  | @slot node nodes start span spans starts nonempty said rest ih =>
    have hstart : span.start ≤ (ws.take span.stop).length := by
      have hstop := rest.start_le
      rw [List.length_take, hlen]
      omega
    rw [List.map_cons, List.flatten_cons, ih, Span.cut, ← starts,
      ← List.drop_append_of_le_length hstart, List.take_append_drop]

/-! ## Slots as they are reported -/

theorem derivation_of_line {g : Grammar} {line : String} {spans : List Span}
    (h : Pattern.search g.patterns 0 (loweredWords line) = some spans) :
    Derivation (loweredWords line) g.nodes 0 spans :=
  Pattern.derivation_of_search (fun _ => ne_empty_of_mem_loweredWords) (Nat.zero_le _) h

theorem exists_derivation {g : Grammar} {line : String} {heard : Recognition}
    (h : g.recognize line = some heard) :
    ∃ spans, Pattern.search g.patterns 0 (loweredWords line) = some spans ∧
      Derivation (loweredWords line) g.nodes 0 spans ∧
        heard = .ofSpans (words line) g.patterns spans := by
  obtain ⟨-, spans, hsearch, hheard⟩ := recognize_eq_some_iff.mp h
  exact ⟨spans, hsearch, derivation_of_line hsearch, hheard⟩

/-- The spelling of the text that is reported on a slot in which the words `group` were heard. -/
def Slot.Spells (group : List String) (m : SlotMatch) : Slot → Prop
  | .literal text => m.text = spaced (words text)
  | .choice entries =>
    ∃ i e, m.choice = some i ∧ entries[i]? = some e ∧ m.text = spaced (words e.spoken)
  | .wildcard | .dictation => m.text = spaced group

/-- The report `m` on the slot at position `p`, in which the words `group` were heard. -/
structure Slot.ReportedAs (p : Nat) (group : List String) (m : SlotMatch) (slot : Slot) :
    Prop where
  node : m.node = p
  nonempty : group ≠ []
  choice : m.choice.isSome = true ↔ ∃ entries, slot = .choice entries
  normal : normalForm m.text = spaced (group.map lowercase)
  spelling : slot.Spells group m

theorem Slot.ReportedAs.loweredWords_text {p : Nat} {group : List String} {m : SlotMatch}
    {slot : Slot} (h : slot.ReportedAs p group m) (hgroup : ∀ w ∈ group, IsWord w) :
    loweredWords m.text = group.map lowercase := by
  have hlowered : ∀ w ∈ group.map lowercase, IsWord w := by
    intro w hw
    obtain ⟨v, hv, rfl⟩ := List.mem_map.mp hw
    exact isWord_lowercase (hgroup v hv)
  rw [← words_normalForm, h.normal, words_spaced hlowered]

/-- The text that is reported on a slot is made of words, one space apart. -/
theorem Slot.ReportedAs.exists_words {p : Nat} {group : List String} {m : SlotMatch} {slot : Slot}
    (h : slot.ReportedAs p group m) (hgroup : ∀ w ∈ group, IsWord w) :
    ∃ ws, (∀ w ∈ ws, IsWord w) ∧ m.text = spaced ws := by
  have hspelling := h.spelling
  cases slot with
  | literal text => exact ⟨words text, fun _ => isWord_of_mem_words, hspelling⟩
  | choice entries =>
    obtain ⟨i, e, -, -, htext⟩ := hspelling
    exact ⟨words e.spoken, fun _ => isWord_of_mem_words, htext⟩
  | wildcard | dictation => exact ⟨group, hgroup, hspelling⟩

theorem normalForm_spaced_words (text : String) :
    normalForm (spaced (words text)) = spaced (loweredWords text) := by
  rw [normalForm, loweredWords_spaced_words]

theorem transcribe_choice {entries : List Entry} {typed : List String} {span : Span} {i : Nat}
    {e : Entry} (hi : span.choice = some i) (he : entries[i]? = some e) :
    (Slot.choice entries).pattern.transcribe typed span = spaced (words e.spoken) := by
  simp only [Slot.pattern, Pattern.transcribe, hi, Option.bind_some, List.getElem?_map, he,
    Option.map_some, Wording.ofText]

/-- A slot that asks for words is reported in its own spelling, whatever was typed. -/
theorem Slot.SaidBy.transcribe_eq {heard typed typed' : List String} {span : Span} {slot : Slot}
    (h : slot.SaidBy heard span) (hfree : slot.pattern.isFree = false) :
    slot.pattern.transcribe typed span = slot.pattern.transcribe typed' span := by
  cases slot with
  | literal text => rfl
  | choice entries =>
    obtain ⟨i, e, hi, he, -⟩ := h
    rw [transcribe_choice hi he, transcribe_choice hi he]
  | wildcard | dictation => cases hfree

/-- A stretch that says a slot is reported as the slot says. -/
theorem Slot.SaidBy.reportedAs {slot : Slot} {typed : List String} {span : Span}
    (htyped : ∀ w ∈ typed, IsWord w) (hlt : span.start < span.stop)
    (hle : span.stop ≤ typed.length) (hsaid : slot.SaidBy (typed.map lowercase) span) (p : Nat) :
    slot.ReportedAs p (span.cut typed)
      ⟨p, slot.pattern.transcribe typed span, span.choice⟩ := by
  have hlen := length_cut hle
  have hne : span.cut typed ≠ [] := List.length_pos_iff.mp (by omega)
  have hgroup : ∀ w ∈ span.cut typed, IsWord w := fun w hw => htyped w (Span.mem_of_mem_cut hw)
  cases slot with
  | literal text =>
    obtain ⟨hnone, hcut⟩ := hsaid
    rw [Span.cut_map] at hcut
    refine ⟨rfl, hne, by simp [hnone], ?_, rfl⟩
    rw [hcut]
    exact normalForm_spaced_words text
  | choice entries =>
    obtain ⟨i, e, hi, he, hcut⟩ := hsaid
    rw [Span.cut_map] at hcut
    have htext : (Slot.choice entries).pattern.transcribe typed span = spaced (words e.spoken) :=
      transcribe_choice hi he
    refine ⟨rfl, hne, by simp [hi], ?_, ⟨i, e, hi, he, htext⟩⟩
    rw [hcut, htext]
    exact normalForm_spaced_words e.spoken
  | wildcard | dictation =>
    have hnone : span.choice = none := hsaid
    refine ⟨rfl, hne, by simp [hnone], ?_, rfl⟩
    have hwords := words_spaced hgroup
    rw [normalForm, loweredWords]
    exact congrArg (fun ws => spaced (ws.map lowercase)) hwords

/-- Each pattern with a span is reported at its position. -/
theorem getElem?_slots (typed : List String) (patterns : List Pattern) (spans : List Span)
    (p : Nat) :
    (Recognition.ofSpans typed patterns spans).slots[p]? =
      ((patterns.zip spans)[p]?).map fun (pattern, span) =>
        ⟨p, pattern.transcribe typed span, span.choice⟩ := by
  simp only [Recognition.ofSpans, List.getElem?_map, List.getElem?_zipIdx, Option.map_map,
    Nat.zero_add]
  rfl

theorem getElem?_slots_ofSpans {typed : List String} {patterns : List Pattern} {spans : List Span}
    {p : Nat} {pattern : Pattern} {span : Span} (hpattern : patterns[p]? = some pattern)
    (hspan : spans[p]? = some span) :
    (Recognition.ofSpans typed patterns spans).slots[p]? =
      some ⟨p, pattern.transcribe typed span, span.choice⟩ := by
  have hzip : (patterns.zip spans)[p]? = some (pattern, span) :=
    List.getElem?_zip_eq_some.mpr ⟨hpattern, hspan⟩
  rw [getElem?_slots, hzip, Option.map_some]

theorem getElem?_patterns {g : Grammar} {p : Nat} {node : Node} (h : g.nodes[p]? = some node) :
    g.patterns[p]? = some node.slot.pattern := by
  rw [patterns, List.getElem?_map, h, Option.map_some]

variable {g : Grammar} {line : String} {spans : List Span}

theorem length_slots (d : Derivation (loweredWords line) g.nodes 0 spans) :
    (Recognition.ofSpans (words line) g.patterns spans).slots.length = g.nodes.length := by
  simp [Recognition.ofSpans, patterns, d.length_eq]

/-- Each slot of a recognized line has a span, and is reported as the words in it say. -/
theorem reported_at (d : Derivation (loweredWords line) g.nodes 0 spans) {p : Nat} {node : Node}
    (hnode : g.nodes[p]? = some node) :
    ∃ span m, spans[p]? = some span ∧
      (Recognition.ofSpans (words line) g.patterns spans).slots[p]? = some m ∧
      m = ⟨p, node.slot.pattern.transcribe (words line) span, span.choice⟩ ∧
      node.slot.ReportedAs p (span.cut (words line)) m := by
  have hp : p < spans.length := by
    rw [d.length_eq]
    exact (List.getElem?_eq_some_iff.mp hnode).1
  have hspan : spans[p]? = some spans[p] := List.getElem?_eq_getElem hp
  obtain ⟨hlt, hle, hsaid⟩ := d.said_at hnode hspan
  rw [length_loweredWords] at hle
  exact ⟨spans[p], _, hspan, getElem?_slots_ofSpans (getElem?_patterns hnode) hspan, rfl,
    Slot.SaidBy.reportedAs (fun _ => isWord_of_mem_words) hlt hle hsaid p⟩

theorem reported_of_mem (d : Derivation (loweredWords line) g.nodes 0 spans) {m : SlotMatch}
    (hm : m ∈ (Recognition.ofSpans (words line) g.patterns spans).slots) :
    ∃ node ∈ g.nodes, ∃ span ∈ spans,
      node.slot.ReportedAs m.node (span.cut (words line)) m := by
  obtain ⟨p, hp⟩ := List.getElem?_of_mem hm
  have hlt := (List.getElem?_eq_some_iff.mp hp).1
  rw [length_slots d] at hlt
  have hnode : g.nodes[p]? = some g.nodes[p] := List.getElem?_eq_getElem hlt
  obtain ⟨span, m', hspan, hm', -, hreported⟩ := reported_at d hnode
  rw [hp, Option.some.injEq] at hm'
  subst hm'
  refine ⟨g.nodes[p], List.getElem_mem hlt, span, List.mem_of_getElem? hspan, ?_⟩
  rw [hreported.node]
  exact hreported

/-! ## The words of a transcript -/

theorem loweredWords_slots (d : Derivation (loweredWords line) g.nodes 0 spans) :
    (Recognition.ofSpans (words line) g.patterns spans).slots.map (fun m => loweredWords m.text) =
      spans.map fun span => (span.cut (words line)).map lowercase := by
  apply List.ext_getElem?
  intro p
  rw [List.getElem?_map, List.getElem?_map]
  cases hnode : g.nodes[p]? with
  | none =>
    have hp := List.getElem?_eq_none_iff.mp hnode
    have hslot := List.getElem?_eq_none ((length_slots d) ▸ hp)
    have hspan := List.getElem?_eq_none (d.length_eq ▸ hp)
    rw [hslot, hspan]
    rfl
  | some node =>
    obtain ⟨span, m, hspan, hm, -, hreported⟩ := reported_at d hnode
    have hwords := hreported.loweredWords_text fun _ => isWord_of_mem_cut
    rw [hspan, hm, Option.map_some, Option.map_some, hwords]

theorem loweredWords_transcript (d : Derivation (loweredWords line) g.nodes 0 spans) :
    loweredWords (Recognition.ofSpans (words line) g.patterns spans).text = loweredWords line := by
  let slots := (Recognition.ofSpans (words line) g.patterns spans).slots
  have hlen := (length_loweredWords line).symm
  calc loweredWords (spaced (slots.map (·.text)))
      = (slots.map fun m => loweredWords m.text).flatten := by
        rw [loweredWords_spaced, List.flatMap_map, List.flatMap_def]
    _ = (spans.map fun span => (span.cut (words line)).map lowercase).flatten := by
        rw [loweredWords_slots d]
    _ = (spans.map fun span => span.cut (words line)).flatten.map lowercase := by
        rw [List.map_flatten, List.map_map]
        rfl
    _ = loweredWords line := by
        rw [d.flatten_cut hlen, List.drop_zero, loweredWords]

/-- A line that is recognized is divided into non-empty groups of words, one for each slot in order.
The report has one entry for each slot, which says the group in other words at most: in the spelling
of the grammar where the slot asks for words, and as it was typed where it does not. The transcript
is made of these entries, and says the same as the line. -/
theorem recognize_groups (g : Grammar) (line : String) (heard : Recognition)
    (h : g.recognize line = some heard) :
    heard.slots.length = g.nodes.length ∧
      (∃ groups : List (List String), groups.length = g.nodes.length ∧ groups.flatten = words line ∧
        ∀ (p : Nat) (node : Node), g.nodes[p]? = some node →
          ∃ group m, groups[p]? = some group ∧ heard.slots[p]? = some m ∧
            node.slot.ReportedAs p group m) ∧
      heard.text = spaced (heard.slots.map (·.text)) ∧
      normalForm heard.text = normalForm line := by
  obtain ⟨spans, -, d, rfl⟩ := exists_derivation h
  have hcount : (words line).length = (loweredWords line).length := (List.length_map _).symm
  refine ⟨length_slots d, ⟨spans.map (·.cut (words line)), ?_, ?_, ?_⟩, rfl, ?_⟩
  · rw [List.length_map, d.length_eq]
  · rw [d.flatten_cut hcount, List.drop_zero]
  · intro p node hnode
    obtain ⟨span, m, hspan, hm, -, hreported⟩ := reported_at d hnode
    exact ⟨span.cut (words line), m, by rw [List.getElem?_map, hspan, Option.map_some], hm,
      hreported⟩
  · rw [normalForm_eq_iff]
    exact loweredWords_transcript d

/-- A grammar with a slot of each kind, in which one entry is spoken like the beginning of
another. -/
def orderTea : Grammar :=
  ⟨"order", [⟨none, .literal "I  want"⟩,
    ⟨some "tea", .choice [⟨"Green", .int 1⟩, ⟨"green  TEA", .int 2⟩]⟩,
    ⟨some "rest", .wildcard⟩,
    ⟨some "name", .dictation⟩]⟩

theorem recognize_groups_orderTea :
    ∃ heard, orderTea.recognize " i WANT green tea for Kai  Lee" = some heard ∧
      heard.slots.map (·.text) = ["I want", "Green", "tea", "for Kai Lee"] ∧
      heard.text = "I want Green tea for Kai Lee" ∧
      normalForm heard.text = normalForm " i WANT green tea for Kai  Lee" := by
  have htexts : (orderTea.recognize " i WANT green tea for Kai  Lee").map (·.slots.map (·.text)) =
      some ["I want", "Green", "tea", "for Kai Lee"] := by decide +kernel
  obtain ⟨heard, hheard, hslots⟩ := Option.map_eq_some_iff.mp htexts
  obtain ⟨-, -, htext, hnormal⟩ := recognize_groups orderTea _ heard hheard
  refine ⟨heard, hheard, hslots, ?_, hnormal⟩
  rw [htext, hslots]
  decide +kernel

end Colloquy
