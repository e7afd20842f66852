import Colloquy.Proofs.Dialog.Acts
import Colloquy.Proofs.Semantics.Keys
import Colloquy.Proofs.Semantics.Selecting
import Colloquy.Proofs.Text.NormalForm

/-!
# Answers to a turn

What is heard in a turn is whatever the engine reports: slots may be missing, repeated or at odds
with themselves. Of the report a turn takes account of one slot, the one behind its fixed words, and
of that only the first mention. It names a color (`Recognition.NamesColor`) or stands for a name
(`Recognition.nameHeard`).

* `resolveChoice_colors`: a choice of colors stands for the code of the color that is named.
* `favoriteColor?_eq_some_iff`: the color that a dialog takes for the favorite one is that color.
-/

namespace Colloquy

open Text

/-! ## Colors and names in a report -/

namespace Color

theorem mem_all (color : Color) : color ∈ all := by cases color <;> decide

/-- No two colors are called alike. -/
theorem eq_of_normalForm_eq {a b : Color} (h : normalForm a.label = normalForm b.label) : a = b := by
  have hall : ∀ a ∈ all, ∀ b ∈ all, normalForm a.label = normalForm b.label → a = b := by
    decide +kernel
  exact hall a (mem_all a) b (mem_all b) h

theorem normalForm_spoken (color : Color) : normalForm color.spoken = normalForm color.label := by
  have hall : ∀ color ∈ all, normalForm color.spoken = normalForm color.label := by
    decide +kernel
  exact hall color (mem_all color)

end Color

/-- A report on a slot names a color: by its position among the colors, or by its text if it points
to none of them. -/
inductive SlotMatch.Names (found : SlotMatch) : Color → Prop
  | position {i : Nat} {color : Color} (hchoice : found.choice = some i)
    (hcolor : Color.all[i]? = some color) : Names found color
  | text {color : Color} (hout : ∀ i, found.choice = some i → Color.all.length ≤ i)
    (htext : normalForm color.label = normalForm found.text) : Names found color

theorem SlotMatch.Names.unique {found : SlotMatch} {a b : Color} (h : found.Names a)
    (h' : found.Names b) : a = b := by
  cases h with
  | @position i _ hchoice hcolor =>
    cases h' with
    | position hchoice' hcolor' =>
      rw [hchoice, Option.some.injEq] at hchoice'
      rw [← hchoice', hcolor, Option.some.injEq] at hcolor'
      exact hcolor'
    | text hout htext =>
      rw [List.getElem?_eq_none (hout i hchoice)] at hcolor
      cases hcolor
  | text hout htext =>
    cases h' with
    | @position i _ hchoice hcolor =>
      rw [List.getElem?_eq_none (hout i hchoice)] at hcolor
      cases hcolor
    | text hout' htext' => exact Color.eq_of_normalForm_eq (htext.trans htext'.symm)

/-- The entry of a color in a choice of colors. -/
def Color.entry (color : Color) : Entry := ⟨color.spoken, .int color.code⟩

/-- The entry of a choice of colors that a report selects is that of a color it names. -/
theorem SlotMatch.Selects.exists_names {found : SlotMatch} {e : Entry}
    (h : found.Selects Color.entries e) : ∃ color, found.Names color ∧ e = color.entry := by
  have hmem : e ∈ Color.all.map Color.entry := h.mem
  cases h with
  | @position i hchoice he =>
    have hentries : Color.entries[i]? = Color.all[i]?.map Color.entry := List.getElem?_map
    rw [hentries, Option.map_eq_some_iff] at he
    obtain ⟨color, hcolor, rfl⟩ := he
    exact ⟨color, .position hchoice hcolor, rfl⟩
  | text hout hsplit hsame =>
    obtain ⟨color, -, rfl⟩ := List.mem_map.mp hmem
    exact ⟨color, .text hout (color.normalForm_spoken.symm.trans hsame), rfl⟩

/-- A report that names a color selects an entry. -/
theorem SlotMatch.Names.exists_selects {found : SlotMatch} {color : Color} (h : found.Names color) :
    ∃ e, found.Selects Color.entries e := by
  rw [exists_selects_iff]
  cases h with
  | position hchoice hcolor =>
    exact Or.inl ⟨_, hchoice, (List.getElem?_eq_some_iff.mp hcolor).1⟩
  | text hout htext =>
    have he : color.entry ∈ Color.entries := List.mem_map_of_mem color.mem_all
    exact Or.inr ⟨color.entry, he, color.normalForm_spoken.trans htext⟩

/-- A choice of colors is resolved to the code of the color that the report names. -/
theorem resolveChoice_colors {found : SlotMatch} {value : Value} :
    resolveChoice Color.entries found = some value ↔
      ∃ color, found.Names color ∧ value = .int color.code := by
  rw [SlotMatch.resolveChoice_eq_some_iff]
  constructor
  · rintro ⟨e, hselects, rfl⟩
    obtain ⟨color, hnames, rfl⟩ := hselects.exists_names
    exact ⟨color, hnames, rfl⟩
  · rintro ⟨color, hnames, rfl⟩
    obtain ⟨e, hselects⟩ := hnames.exists_selects
    obtain ⟨other, hother, rfl⟩ := hselects.exists_names
    rw [hnames.unique hother]
    exact ⟨other.entry, hselects, rfl⟩

/-! ## What a report stands for -/

namespace Recognition

/-- What was reported first on the slot behind the fixed words of a turn. -/
def answer? (heard : Recognition) : Option SlotMatch := heard.slots.find? (·.node == 1)

/-- The color that was heard. -/
def NamesColor (heard : Recognition) (color : Color) : Prop :=
  ∃ found, heard.answer? = some found ∧ found.Names color

/-- The name that was heard, empty if there was none. -/
def nameHeard (heard : Recognition) : String :=
  (heard.answer?.map fun found => trimmed found.text).getD ""

/-- What is told about a phrase that was reported. -/
def told (heard : Recognition) : String :=
  "I'm " ++ Number.wholeText (heard.confidence * 100.0) ++ "% sure you just said " ++ heard.text

theorem NamesColor.unique {heard : Recognition} {a b : Color} (h : heard.NamesColor a)
    (h' : heard.NamesColor b) : a = b := by
  obtain ⟨found, hfound, hnames⟩ := h
  obtain ⟨found', hfound', hnames'⟩ := h'
  rw [hfound, Option.some.injEq] at hfound'
  exact hnames.unique (hfound' ▸ hnames')

end Recognition

namespace Turn

variable {heard : Recognition}

/-- Under the key of the color stands the code of the color that was heard. -/
theorem get?_colorKey {value : Value} :
    (favoriteColor.grammar.extract heard.slots).get? colorKey = some value ↔
      ∃ color, heard.NamesColor color ∧ value = .int color.code := by
  have hnode : favoriteColor.grammar.nodes[1]? = some ⟨some colorKey, .choice Color.entries⟩ := rfl
  have hget : (favoriteColor.grammar.extract heard.slots).get? colorKey =
      heard.answer?.bind (resolveChoice Color.entries) :=
    Grammar.get?_extract favoriteColor.wellFormed_grammar.nodup_keys hnode rfl
  rw [hget, Option.bind_eq_some_iff]
  simp only [resolveChoice_colors, Recognition.NamesColor]
  constructor
  · rintro ⟨found, hfound, color, hnames, rfl⟩
    exact ⟨color, ⟨found, hfound, hnames⟩, rfl⟩
  · rintro ⟨color, ⟨found, hfound, hnames⟩, rfl⟩
    exact ⟨found, hfound, color, hnames, rfl⟩

theorem get?_nameKey_wildcard :
    (wildcardName.grammar.extract heard.slots).get? nameKey = none := by
  have hnode : wildcardName.grammar.nodes[1]? = some ⟨some nameKey, .wildcard⟩ := rfl
  exact Grammar.get?_extract wildcardName.wellFormed_grammar.nodup_keys hnode rfl

theorem get?_nameKey_dictation :
    (dictatedName.grammar.extract heard.slots).get? nameKey = some (.text heard.nameHeard) := by
  have hnode : dictatedName.grammar.nodes[1]? = some ⟨some nameKey, .dictation⟩ := rfl
  exact Grammar.get?_extract dictatedName.wellFormed_grammar.nodup_keys hnode rfl

end Turn

namespace Dialog

/-- The favorite color is the color that was heard. -/
theorem favoriteColor?_eq_some_iff {heard : Recognition} {color : Color} :
    favoriteColor? (.ofRecognition Turn.favoriteColor.grammar heard) = some color ↔
      heard.NamesColor color := by
  rw [favoriteColor?, Option.bind_eq_some_iff]
  constructor
  · rintro ⟨code, hcode, hcolor⟩
    obtain ⟨value, hvalue, hint⟩ := Option.bind_eq_some_iff.mp hcode
    obtain ⟨named, hnamed, rfl⟩ := Turn.get?_colorKey.mp hvalue
    cases hint
    rw [Color.ofCode?_code, Option.some.injEq] at hcolor
    exact hcolor ▸ hnamed
  · intro hnamed
    refine ⟨color.code, ?_, Color.ofCode?_code color⟩
    exact Option.bind_eq_some_iff.mpr ⟨_, Turn.get?_colorKey.mpr ⟨color, hnamed, rfl⟩, rfl⟩

/-- A turn replies to a color, or to a name that was dictated, or not at all. -/
theorem reply_cases {σ : Type} [Voice σ] [Display σ] (turn : Turn) (heard : Recognition) :
    (∃ color, turn = .favoriteColor ∧ heard.NamesColor color ∧
        (reply turn (.ofRecognition turn.grammar heard) : Act σ Unit) = do
          setHighlight (some color.style)
          say (praise color)) ∨
      (turn = .dictatedName ∧
        (reply turn (.ofRecognition turn.grammar heard) : Act σ Unit) =
          say (.plain ("Hi " ++ heard.nameHeard ++ "!"))) ∨
      (turn ≠ .dictatedName ∧ (turn = .favoriteColor → ∀ color, ¬ heard.NamesColor color) ∧
        (reply turn (.ofRecognition turn.grammar heard) : Act σ Unit) = pure ()) := by
  cases turn with
  | greeting | freeChoice => exact Or.inr (Or.inr ⟨by decide, fun h => absurd h (by decide), rfl⟩)
  | favoriteColor =>
    rw [reply]
    cases hcolor : favoriteColor? (.ofRecognition Turn.favoriteColor.grammar heard) with
    | some color =>
      refine Or.inl ⟨color, rfl, favoriteColor?_eq_some_iff.mp hcolor, ?_⟩
      dsimp only
      rw [say_acknowledgement]
    | none =>
      refine Or.inr (Or.inr ⟨by decide, fun _ color hnames => ?_, rfl⟩)
      rw [favoriteColor?_eq_some_iff.mpr hnames] at hcolor
      cases hcolor
  | wildcardName =>
    rw [reply, Phrase.ofRecognition, Turn.get?_nameKey_wildcard]
    exact Or.inr (Or.inr ⟨by decide, fun h => absurd h (by decide), rfl⟩)
  | dictatedName =>
    rw [reply, Phrase.ofRecognition, Turn.get?_nameKey_dictation]
    exact Or.inr (Or.inl ⟨rfl, rfl⟩)

end Dialog

end Colloquy
