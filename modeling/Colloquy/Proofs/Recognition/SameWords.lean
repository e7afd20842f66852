import Colloquy.Proofs.Grammar.FirstFault
import Colloquy.Proofs.Recognition.Report
import Colloquy.Proofs.Text.LowerCase

/-!
# One notion of equal words

Words are compared in three places: when a choice is composed, when an utterance is matched, and
when an entry is looked up by a text. The first and the last compare normal forms, and the second
one lists of lowered words. A normal form split at its single spaces gives those words back
(`Wording.ofText_words_eq_splitSpaces`), so all three agree on every text
(`words_compared_alike`). A blank text is the one whose normal form splits into an empty word; it is
said by no utterance.
-/

namespace Colloquy

open Text

/-! ## Texts split at single spaces -/

/-- The pieces of a text between single spaces. -/
def Text.splitSpaces (text : String) : List String := (text.toList.splitOn ' ').map String.ofList

/-- Words written one space apart are split into these words again. -/
theorem Text.splitSpaces_spaced {ws : List String} (hne : ws ≠ []) (h : ∀ w ∈ ws, IsWord w) :
    splitSpaces (spaced ws) = ws := by
  have hspace : " ".toList = [' '] := rfl
  have hwords : ∀ cs ∈ ws.map String.toList, ' ' ∉ cs := by
    intro cs hcs hmem
    obtain ⟨w, hw, rfl⟩ := List.mem_map.mp hcs
    exact Bool.eq_false_iff.mp ((h w hw).2 ' ' hmem) isBlank_space
  have hcut := List.splitOn_intercalate ' ' hwords (List.map_eq_nil_iff.not.mpr hne)
  rw [splitSpaces, spaced, String.toList_intercalate, hspace, hcut, List.map_map]
  exact (List.map_congr_left fun w _ => String.ofList_toList).trans ws.map_id

namespace Wording

theorem ofText_words_of_blank {text : String} (h : loweredWords text = []) :
    (ofText text).words = [""] := by
  rw [ofText, h]

/-- The words of a wording are the pieces of the normal form between single spaces. -/
theorem ofText_words_eq_splitSpaces (text : String) :
    (ofText text).words = splitSpaces (normalForm text) := by
  by_cases hblank : loweredWords text = []
  · rw [ofText_words_of_blank hblank, normalForm, hblank]
    rfl
  · rw [ofText_words hblank, normalForm,
      splitSpaces_spaced hblank fun _ => isWord_of_mem_loweredWords]

/-- A wording is held against the lowered words of a text in the same way as the normal forms of
both texts are held against each other. -/
theorem ofText_words_eq_iff {text other : String} (h : loweredWords other ≠ []) :
    (ofText text).words = loweredWords other ↔ normalForm text = normalForm other := by
  rw [normalForm_eq_iff]
  by_cases hblank : loweredWords text = []
  · rw [ofText_words_of_blank hblank, hblank]
    constructor
    · intro heq
      have hempty : "" ∈ loweredWords other := heq ▸ List.mem_singleton_self ""
      exact absurd rfl (ne_empty_of_mem_loweredWords hempty)
    · intro heq
      exact absurd heq.symm h
  · rw [ofText_words hblank]

end Wording

/-! ## The three places -/

/-- Normal forms are final. The words of a wording are the pieces of a normal form between single
spaces: for a text with words these are its words in lower case, one space apart they are the normal
form, and the spelling has the same one; for a blank text there is the empty word alone, which no
utterance begins with. An entry accepts a text with words iff the words of its wording are those of
the text in lower case, and this is also when the entry is refused as a repetition of one of the
accepted ones. -/
theorem words_compared_alike (s t : String) (value : Value) :
    normalForm (normalForm s) = normalForm s ∧
      (Wording.ofText s).words = splitSpaces (normalForm s) ∧
      (words s ≠ [] → (Wording.ofText s).words = (words s).map lowercase ∧
        spaced (Wording.ofText s).words = normalForm s ∧
        normalForm (Wording.ofText s).spelling = normalForm s) ∧
      (words s = [] → (Wording.ofText s).words = [""] ∧
        ∀ heard, (∀ w ∈ heard, w ≠ "") → (Wording.ofText s).after? heard = none) ∧
      (words t ≠ [] → ((Entry.mk s value).accepts t = true ↔
        (Wording.ofText s).words = (words t).map lowercase)) ∧
      (words s ≠ [] → ∀ entries slot, Slot.ofEntries entries = .ok slot →
        (Slot.ofEntries (entries ++ [⟨s, value⟩]) = .error (.duplicateSpokenForm s) ↔
          ∃ e ∈ entries, (Wording.ofText s).words = (words e.spoken).map lowercase)) := by
  refine ⟨normalForm_normalForm s, Wording.ofText_words_eq_splitSpaces s, ?_, ?_, ?_, ?_⟩
  · intro hwords
    have hlowered := Wording.ofText_words (loweredWords_eq_nil_iff.not.mpr hwords)
    refine ⟨hlowered, congrArg spaced hlowered, ?_⟩
    exact normalForm_eq_iff.mpr (loweredWords_spaced_words s)
  · intro hblank
    have hlowered := loweredWords_eq_nil_iff.mpr hblank
    refine ⟨Wording.ofText_words_of_blank hlowered, ?_⟩
    exact fun heard hne => Wording.after?_of_blank hne hlowered
  · intro hwords
    have hlowered := loweredWords_eq_nil_iff.not.mpr hwords
    exact beq_iff_eq.trans (Wording.ofText_words_eq_iff hlowered).symm
  · intro hwords entries slot haccepted
    have hforms := (Slot.ofEntries_eq_ok_iff.mp haccepted).2.2.1
    let last : Entry := ⟨s, value⟩
    have hlast : words last.spoken ≠ [] := hwords
    refine (Slot.ofEntries_concat_eq_duplicate_iff haccepted hlast).trans
      (exists_congr fun e => and_congr_right fun he => ?_)
    have hlowered := loweredWords_eq_nil_iff.not.mpr (hforms e he)
    exact eq_comm.trans (Wording.ofText_words_eq_iff hlowered).symm

/-- A sigma that ends a word is lowered to its final form in all three places. -/
theorem words_compared_alike_bigTea :
    (words " ΜΈΓΑΣ\tTEA" ≠ [] ∧ (Wording.ofText " ΜΈΓΑΣ\tTEA").words = ["μέγας", "tea"] ∧
        splitSpaces (normalForm " ΜΈΓΑΣ\tTEA") = ["μέγας", "tea"]) ∧
      (words "Μέγας  tea" ≠ [] ∧ (Entry.mk " ΜΈΓΑΣ\tTEA" (.int 1)).accepts "Μέγας  tea" = true) ∧
      (∃ slot, Slot.ofEntries [⟨"tea", .int 0⟩, ⟨"μέγας Tea", .int 2⟩] = .ok slot ∧
        Slot.ofEntries ([⟨"tea", .int 0⟩, ⟨"μέγας Tea", .int 2⟩] ++ [⟨" ΜΈΓΑΣ\tTEA", .int 1⟩]) =
          .error (.duplicateSpokenForm " ΜΈΓΑΣ\tTEA")) ∧
      words "\t " = [] ∧ (∀ w ∈ ["tea"], w ≠ "") ∧
        (Wording.ofText "\t ").after? ["tea"] = none := by
  have hbig : words " ΜΈΓΑΣ\tTEA" ≠ [] := by decide +kernel
  have htea : words "Μέγας  tea" ≠ [] := by decide +kernel
  have hblank : words "\t " = [] := by decide +kernel
  have hheard : ∀ w ∈ ["tea"], w ≠ "" := by decide
  have hlowered : (words " ΜΈΓΑΣ\tTEA").map lowercase = ["μέγας", "tea"] := by decide +kernel
  have haccepted : Slot.ofEntries [⟨"tea", .int 0⟩, ⟨"μέγας Tea", .int 2⟩] =
      .ok (.choice [⟨"tea", .int 0⟩, ⟨"μέγας Tea", .int 2⟩]) := by decide +kernel
  obtain ⟨-, hsplit, hwords, -, haccepts, hrepeats⟩ :=
    words_compared_alike " ΜΈΓΑΣ\tTEA" "Μέγας  tea" (.int 1)
  obtain ⟨-, -, -, hunsaid, -⟩ := words_compared_alike "\t " "tea" (.int 1)
  have hwording := (hwords hbig).1.trans hlowered
  have hsaid : (words "Μέγας  tea").map lowercase = ["μέγας", "tea"] := by decide +kernel
  have hmet : (words "μέγας Tea").map lowercase = ["μέγας", "tea"] := by decide +kernel
  have hmember : Entry.mk "μέγας Tea" (.int 2) ∈ [⟨"tea", .int 0⟩, ⟨"μέγας Tea", .int 2⟩] :=
    List.mem_cons_of_mem _ List.mem_cons_self
  have hrepeated := (hrepeats hbig _ _ haccepted).mpr ⟨_, hmember, hwording.trans hmet.symm⟩
  exact ⟨⟨hbig, hwording, hsplit.symm.trans hwording⟩,
    ⟨htea, (haccepts htea).mpr (hwording.trans hsaid.symm)⟩, ⟨_, haccepted, hrepeated⟩,
    hblank, hheard, (hunsaid hblank).2 _ hheard⟩

end Colloquy
