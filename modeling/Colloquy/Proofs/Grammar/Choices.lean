import Colloquy.Grammar.Slot
import Colloquy.Proofs.Text.NormalForm
import Mathlib.Data.List.Nodup

/-!
# Choices told apart

A choice is composed entry by entry, and each spoken form is held against those met before. Exactly
the rows of entries are accepted whose spoken forms have words and normal forms of their own
(`ofEntries_eq_ok_iff`), so what is said stands for one entry at most (`position_of_accepted`).
-/

namespace Colloquy

open Text

namespace Slot

/-- Entries are without a fault iff each has words, and a normal form that neither was met before
nor comes again. -/
theorem entryFault?_eq_none_iff {met : List String} {entries : List Entry} :
    entryFault? met entries = none ↔
      (∀ e ∈ entries, normalForm e.spoken ≠ "" ∧ normalForm e.spoken ∉ met) ∧
        (entries.map fun e => normalForm e.spoken).Nodup := by
  induction entries generalizing met with
  | nil => simp [entryFault?]
  | cons e rest ih =>
    rw [entryFault?]
    by_cases hblank : normalForm e.spoken = ""
    · simp [hblank]
    by_cases hmet : normalForm e.spoken ∈ met
    · simp [hblank, hmet]
    rw [if_neg hblank, if_neg hmet, ih, List.map_cons, List.nodup_cons, List.forall_mem_cons]
    simp only [List.mem_cons, not_or, List.mem_map, not_exists, not_and]
    constructor
    · rintro ⟨hrest, hnodup⟩
      exact ⟨⟨⟨hblank, hmet⟩, fun later hlater => ⟨(hrest later hlater).1, (hrest later hlater).2.2⟩⟩,
        fun later hlater => (hrest later hlater).2.1, hnodup⟩
    · rintro ⟨⟨-, hrest⟩, hnew, hnodup⟩
      exact ⟨fun later hlater => ⟨(hrest later hlater).1, hnew later hlater,
        (hrest later hlater).2⟩, hnodup⟩

theorem ofEntries_eq_ok_iff {entries : List Entry} {slot : Slot} :
    ofEntries entries = .ok slot ↔
      slot = .choice entries ∧ entries ≠ [] ∧ (∀ e ∈ entries, words e.spoken ≠ []) ∧
        (entries.map fun e => normalForm e.spoken).Nodup := by
  have hwords (e : Entry) : words e.spoken ≠ [] ↔ normalForm e.spoken ≠ "" :=
    not_congr normalForm_eq_empty_iff.symm
  cases entries with
  | nil => simp [ofEntries]
  | cons e rest =>
    have hfault : entryFault? [] (e :: rest) = none ↔ _ := entryFault?_eq_none_iff
    unfold ofEntries
    cases h : entryFault? [] (e :: rest) with
    | none =>
      rw [h] at hfault
      obtain ⟨hforms, hnodup⟩ := hfault.mp rfl
      simp only [Except.ok.injEq]
      constructor
      · rintro rfl
        exact ⟨rfl, List.cons_ne_nil _ _, fun e he => (hwords e).mpr (hforms e he).1, hnodup⟩
      · rintro ⟨rfl, -⟩
        rfl
    | some fault =>
      rw [h] at hfault
      constructor
      · intro hok
        cases hok
      · rintro ⟨-, -, hforms, hnodup⟩
        have hnone := hfault.mpr ⟨fun e he => ⟨(hwords e).mp (hforms e he), by simp⟩, hnodup⟩
        cases hnone

/-- Of an accepted choice, no two entries are said in the same words. -/
theorem position_of_accepted {entries : List Entry} {slot : Slot}
    (h : ofEntries entries = .ok slot) {i j : Nat} {e e' : Entry} (he : entries[i]? = some e)
    (he' : entries[j]? = some e') (hsame : normalForm e.spoken = normalForm e'.spoken) : i = j := by
  obtain ⟨-, -, -, hnodup⟩ := ofEntries_eq_ok_iff.mp h
  have hi := (List.getElem?_eq_some_iff.mp he).1
  apply (List.getElem?_inj (by simpa using hi) hnodup).mp
  rw [List.getElem?_map, List.getElem?_map, he, he', Option.map_some, Option.map_some, hsame]

end Slot

end Colloquy
