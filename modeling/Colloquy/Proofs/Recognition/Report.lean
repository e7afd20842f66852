import Colloquy.Proofs.Recognition.LeastDerivation
import Colloquy.Proofs.Text.NormalForm
import Colloquy.Recognition.Utterance

/-!
# Reports on an utterance

What is reported on a line comes from the least derivation of its words (`recognize_eq_some_iff`),
slot by slot in the order of the grammar (`find?_slots_ofSpans`). Since no derivation comes before
the one that is reported, the entry recorded for a choice is the first one spoken in the words that
were heard (`first_entry_of_search`).
-/

namespace Colloquy

open Text Grammar

/-! ## The reported derivation -/

theorem ne_empty_of_mem_loweredWords {line w : String} (h : w ∈ loweredWords line) : w ≠ "" := by
  intro hw
  have hword := (isWord_of_mem_loweredWords h).1
  rw [hw] at hword
  exact hword rfl

theorem recognize_eq_some_iff {g : Grammar} {line : String} {heard : Recognition} :
    g.recognize line = some heard ↔
      words line ≠ [] ∧ ∃ spans, Pattern.search g.patterns 0 (loweredWords line) = some spans ∧
        heard = .ofSpans (words line) g.patterns spans := by
  unfold recognize loweredWords
  cases hwords : words line with
  | nil => simp
  | cons w ws =>
    dsimp only
    rw [recognizeWords, Option.map_eq_some_iff]
    constructor
    · intro h
      obtain ⟨spans, hspans, hheard⟩ := h
      exact ⟨List.cons_ne_nil _ _, spans, hspans, hheard.symm⟩
    · intro h
      obtain ⟨-, spans, hspans, hheard⟩ := h
      exact ⟨spans, hspans, hheard.symm⟩

theorem loweredWords_eq_nil_iff {line : String} : loweredWords line = [] ↔ words line = [] :=
  List.map_eq_nil_iff

/-- Whether a line is recognized depends on its lowered words alone. -/
theorem isSome_recognize_iff {g : Grammar} {line : String} :
    (g.recognize line).isSome = true ↔
      loweredWords line ≠ [] ∧ (Pattern.search g.patterns 0 (loweredWords line)).isSome = true := by
  simp only [Option.isSome_iff_exists, recognize_eq_some_iff, ne_eq, loweredWords_eq_nil_iff]
  constructor
  · rintro ⟨heard, hne, spans, hspans, -⟩
    exact ⟨hne, spans, hspans⟩
  · rintro ⟨hne, spans, hspans⟩
    exact ⟨_, hne, spans, hspans, rfl⟩

/-! ## Reported slots -/

/-- The slot at each position is reported once. -/
theorem find?_slots_ofSpans {typed : List String} {patterns : List Pattern} {spans : List Span}
    {p : Nat} {pattern : Pattern} {span : Span} (hpattern : patterns[p]? = some pattern)
    (hspan : spans[p]? = some span) :
    (Recognition.ofSpans typed patterns spans).slots.find? (·.node == p) =
      some ⟨p, pattern.transcribe typed span, span.choice⟩ := by
  have hzip : (patterns.zip spans)[p]? = some (pattern, span) :=
    List.getElem?_zip_eq_some.mpr ⟨hpattern, hspan⟩
  obtain ⟨hp, hget⟩ := List.getElem?_eq_some_iff.mp hzip
  rw [List.find?_eq_some_iff_getElem]
  refine ⟨beq_self_eq_true p, p, ?_, ?_, ?_⟩
  · simpa [Recognition.ofSpans] using hp
  · simp [Recognition.ofSpans, hget]
  · intro j hj
    have hne : j ≠ p := Nat.ne_of_lt hj
    simpa [Recognition.ofSpans] using hne

/-! ## Recorded entries -/

/-- The first entry that has a property is found by it. -/
theorem find?_eq_of_first {entries : List Entry} {q : Entry → Bool} {i : Nat} {e : Entry}
    (he : entries[i]? = some e) (hq : q e = true)
    (hfirst : ∀ j e', j < i → entries[j]? = some e' → q e' = false) :
    entries.find? q = some e := by
  obtain ⟨hi, hget⟩ := List.getElem?_eq_some_iff.mp he
  rw [List.find?_eq_some_iff_getElem]
  refine ⟨hq, i, hi, hget, fun j hj => ?_⟩
  rw [hfirst j _ hj (List.getElem?_eq_getElem (Nat.lt_trans hj hi)), Bool.not_false]

/-- The entry recorded for a choice is the first one that is spoken in the same words: an earlier
one would belong to a derivation that comes before the one that is found. -/
theorem first_entry_of_search {heard : List String} (hne : ∀ w ∈ heard, w ≠ "")
    {nodes : List Node} {spans : List Span}
    (h : Pattern.searchFrom heard nodes 0 = some spans) {p : Nat} {node : Node} {span : Span}
    {entries : List Entry} (hnode : nodes[p]? = some node) (hspan : spans[p]? = some span)
    (hslot : node.slot = .choice entries) :
    ∃ i e, span.choice = some i ∧ entries[i]? = some e ∧
      ∀ j e', j < i → entries[j]? = some e' →
        loweredWords e'.spoken ≠ loweredWords e.spoken := by
  have d := Pattern.derivation_of_search hne (Nat.zero_le _) h
  obtain ⟨-, -, hsaid⟩ := d.said_at hnode hspan
  rw [hslot] at hsaid
  obtain ⟨i, e, hi, he, hcut⟩ := hsaid
  refine ⟨i, e, hi, he, ?_⟩
  intro j e' hj he' hsame
  let other : Span := { span with choice := some j }
  have hother : node.slot.SaidBy heard other := by
    rw [hslot]
    exact ⟨j, e', rfl, he', hcut.trans hsame.symm⟩
  have hprefers : node.slot.Prefers other span := by
    rw [hslot]
    exact ⟨j, i, rfl, hi, hj⟩
  have hbefore := before_set hnode hspan hprefers
  have hderived : Derivation heard nodes 0 (spans.set p other) :=
    d.set hnode hspan rfl rfl hother
  rcases Pattern.least_of_search hne h hderived with heq | hafter
  · rw [heq] at hbefore
    exact hbefore.asymm hbefore
  · exact hbefore.asymm hafter

end Colloquy
