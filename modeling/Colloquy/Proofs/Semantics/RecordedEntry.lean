import Colloquy.Proofs.Recognition.Report
import Colloquy.Semantics.Extract
import Mathlib.Data.List.Basic

/-!
# Recorded entries and spoken forms

A choice may be resolved by the entry that was recorded, or by the reported text. For reports on
typed lines the two never disagree (`extract_forgetChoice`), though entries may be blank or share
their normal form: the text is the spoken form of the recorded entry, and that entry is the first
one with its normal form.
-/

namespace Colloquy

open Text Grammar

/-! ## Choices -/

/-- The same report without the position of the entry. -/
def SlotMatch.forgetChoice (m : SlotMatch) : SlotMatch := { m with choice := none }

theorem Entry.accepts_spaced_words_iff {e : Entry} {text : String} :
    e.accepts (spaced (words text)) = true ↔ loweredWords e.spoken = loweredWords text := by
  rw [accepts, beq_iff_eq, normalForm_eq_iff, loweredWords_spaced_words]

/-- A choice recorded at the first entry with its normal form is found again by the spoken form of
that entry. -/
theorem resolveChoice_forgetChoice {entries : List Entry} {i : Nat} {e : Entry}
    (he : entries[i]? = some e)
    (hfirst : ∀ j e', j < i → entries[j]? = some e' →
      loweredWords e'.spoken ≠ loweredWords e.spoken) (node : Nat) :
    resolveChoice entries ⟨node, spaced (words e.spoken), none⟩ =
      resolveChoice entries ⟨node, spaced (words e.spoken), some i⟩ := by
  have hfind : entries.find? (·.accepts (spaced (words e.spoken))) = some e := by
    refine find?_eq_of_first he (Entry.accepts_spaced_words_iff.mpr rfl) fun j e' hj he' => ?_
    rw [← Bool.not_eq_true, Entry.accepts_spaced_words_iff]
    exact hfirst j e' hj he'
  simp only [resolveChoice, Option.bind_none, Option.bind_some, hfind, he, Option.map_some]

/-! ## Extraction -/

/-- The values depend on the reports on slots with a key alone. -/
theorem extract_congr_of_keys {g : Grammar} {found found' : List SlotMatch}
    (h : ∀ (p : Nat) (node : Node) (key : String), g.nodes[p]? = some node →
      node.key = some key →
      node.slot.value? (found.find? (·.node == p)) =
        node.slot.value? (found'.find? (·.node == p))) :
    g.extract found = g.extract found' := by
  unfold extract
  congr 1
  apply List.filterMap_congr
  rintro ⟨node, p⟩ hmem
  dsimp only
  cases hkey : node.key with
  | none => rfl
  | some key => rw [h p node key (List.mk_mem_zipIdx_iff_getElem?.mp hmem) hkey]

theorem extract_congr {g : Grammar} {found found' : List SlotMatch}
    (h : ∀ (p : Nat) (node : Node), g.nodes[p]? = some node →
      node.slot.value? (found.find? (·.node == p)) =
        node.slot.value? (found'.find? (·.node == p))) :
    g.extract found = g.extract found' :=
  extract_congr_of_keys fun p node _ hnode _ => h p node hnode

theorem find?_map_forgetChoice (found : List SlotMatch) (p : Nat) :
    (found.map SlotMatch.forgetChoice).find? (·.node == p) =
      (found.find? (·.node == p)).map SlotMatch.forgetChoice :=
  List.find?_map ..

/-- The values of a phrase that was typed do not depend on the recorded positions: the reported
texts alone bring the same values. -/
theorem extract_forgetChoice (g : Grammar) (line : String) (heard : Recognition)
    (h : g.recognize line = some heard) :
    g.extract heard.slots = g.extract (heard.slots.map SlotMatch.forgetChoice) := by
  obtain ⟨-, spans, hsearch, rfl⟩ := recognize_eq_some_iff.mp h
  have hne : ∀ w ∈ loweredWords line, w ≠ "" := fun _ => ne_empty_of_mem_loweredWords
  have d := Pattern.derivation_of_search hne (Nat.zero_le _) hsearch
  apply extract_congr
  intro p node hnode
  have hp : p < spans.length := by
    rw [d.length_eq]
    exact (List.getElem?_eq_some_iff.mp hnode).1
  have hspan : spans[p]? = some spans[p] := List.getElem?_eq_getElem hp
  have hpattern : g.patterns[p]? = some node.slot.pattern := by
    rw [patterns, List.getElem?_map, hnode, Option.map_some]
  rw [find?_map_forgetChoice, find?_slots_ofSpans hpattern hspan, Option.map_some]
  cases hslot : node.slot with
  | literal | wildcard | dictation => rfl
  | choice entries =>
    obtain ⟨i, e, hi, he, hfirst⟩ := first_entry_of_search hne hsearch hnode hspan hslot
    have htext : (Slot.choice entries).pattern.transcribe (words line) spans[p] =
        spaced (words e.spoken) := by
      simp only [Slot.pattern, Pattern.transcribe, hi, Option.bind_some, List.getElem?_map, he,
        Option.map_some, Wording.ofText]
    simp only [Slot.value?, Option.bind_some, SlotMatch.forgetChoice, htext, hi]
    exact (resolveChoice_forgetChoice he hfirst p).symm

/-- A grammar with a blank entry and two entries of the same normal form. -/
def repeatedTea : Grammar :=
  ⟨"tea", [⟨some "tea", .choice [⟨" ", .int 0⟩, ⟨"Green  TEA", .int 1⟩, ⟨"green tea", .int 2⟩]⟩,
    ⟨none, .literal "please"⟩]⟩

theorem extract_forgetChoice_repeatedTea :
    ∃ heard, repeatedTea.recognize "GREEN tea  please" = some heard ∧
      repeatedTea.extract (heard.slots.map SlotMatch.forgetChoice) = ⟨[("tea", .int 1)]⟩ := by
  have hvalue : (repeatedTea.recognize "GREEN tea  please").map (repeatedTea.extract ·.slots) =
      some ⟨[("tea", .int 1)]⟩ := by decide +kernel
  obtain ⟨heard, hheard, hextract⟩ := Option.map_eq_some_iff.mp hvalue
  refine ⟨heard, hheard, ?_⟩
  rw [← extract_forgetChoice repeatedTea _ heard hheard, hextract]

end Colloquy
