import Colloquy.Text.Words

/-!
# Normal forms

Lowering turns no letter into a blank (`isBlank_lowerChar`), so a lowered word is still one word
(`isWord_lowercase`) and a normal form is read back as the words it was made of
(`words_normalForm`). Therefore texts have the same normal form exactly when they agree word by word
in lower case (`normalForm_eq_iff`), whatever their spacing (`loweredWords_spaced_words`).
-/

namespace Colloquy.Text

/-! ## Lowered letters -/

/-- The small letters of a run all lie on one side of every range of blanks. -/
theorem caseRuns_apart : ∀ run ∈ caseRuns, ∀ r ∈ blankRanges,
    r.last < run.small ∨ run.small + (run.last - run.first) < r.first := by decide +kernel

theorem blankRanges_pos : ∀ r ∈ blankRanges, 0 < r.first := by decide

theorem isBlank_eq_false_iff {c : Char} :
    isBlank c = false ↔ ∀ r ∈ blankRanges, c.toNat < r.first ∨ r.last < c.toNat := by
  rw [← Bool.not_eq_true, isBlank, inRanges_iff]
  constructor
  · intro h r hr
    have hout : ¬ (r.first ≤ c.toNat ∧ c.toNat ≤ r.last) := fun hin => h ⟨r, hr, hin⟩
    omega
  · intro h hin
    obtain ⟨r, hr, hfirst, hlast⟩ := hin
    have := h r hr
    omega

theorem toNat_ofNat_eq (n : Nat) : (Char.ofNat n).toNat = n ∨ (Char.ofNat n).toNat = 0 := by
  by_cases h : n.isValidChar
  · apply Or.inl
    rw [Char.ofNat, dif_pos h]
    rfl
  · apply Or.inr
    rw [Char.ofNat, dif_neg h]
    rfl

/-- A lowered character is a small letter of the table, or it was left as it is. -/
theorem mem_lowerChar {c d : Char} (h : d ∈ lowerChar c) :
    d = 'i' ∨ d = '\u0307' ∨
      (∃ run ∈ caseRuns, run.covers c.toNat = true ∧
        d = Char.ofNat (run.small + (c.toNat - run.first))) ∨
      d = c ∧ lowerChar c = [c] := by
  unfold lowerChar at h ⊢
  by_cases hdotted : c = '\u0130'
  · rw [if_pos hdotted] at h
    rcases List.mem_cons.mp h with rfl | h
    · exact Or.inl rfl
    · exact Or.inr (Or.inl (List.mem_singleton.mp h))
  · rw [if_neg hdotted] at h ⊢
    cases hrun : caseRuns.find? (·.covers c.toNat) with
    | none =>
      rw [hrun] at h
      exact Or.inr (Or.inr (Or.inr ⟨List.mem_singleton.mp h, rfl⟩))
    | some run =>
      have hcovers := List.find?_some hrun
      rw [hrun] at h
      exact Or.inr (Or.inr (Or.inl
        ⟨run, List.mem_of_find?_eq_some hrun, hcovers, List.mem_singleton.mp h⟩))

/-- Lowering turns no letter into a blank. -/
theorem isBlank_lowerChar {c : Char} (h : isBlank c = false) :
    ∀ d ∈ lowerChar c, isBlank d = false := by
  intro d hd
  rcases mem_lowerChar hd with rfl | rfl | ⟨run, hrun, hcovers, rfl⟩ | ⟨rfl, -⟩
  · decide
  · decide
  · simp only [CaseRun.covers, Bool.and_eq_true, decide_eq_true_eq] at hcovers
    rw [isBlank_eq_false_iff]
    intro r hr
    have hapart := caseRuns_apart run hrun r hr
    have hpos := blankRanges_pos r hr
    have hcode := toNat_ofNat_eq (run.small + (c.toNat - run.first))
    omega
  · exact h

theorem lowerChar_ne_nil (c : Char) : lowerChar c ≠ [] := by
  unfold lowerChar
  by_cases hdotted : c = '\u0130'
  · rw [if_pos hdotted]
    exact List.cons_ne_nil _ _
  · rw [if_neg hdotted]
    cases caseRuns.find? (·.covers c.toNat) <;> exact List.cons_ne_nil _ _

/-! ## Lowered words -/

/-- The characters of a lowered text come each from one of its characters, but for the final
sigma. -/
theorem mem_lowerAfter {before cs : List Char} {d : Char} (h : d ∈ lowerAfter before cs) :
    d = 'ς' ∨ ∃ c ∈ cs, d ∈ lowerChar c := by
  induction cs generalizing before with
  | nil => cases h
  | cons c cs ih =>
    rw [lowerAfter] at h
    rcases List.mem_append.mp h with h | h
    · by_cases hsigma : (c = 'Σ' && endsWord before cs) = true
      · rw [if_pos hsigma] at h
        exact Or.inl (List.mem_singleton.mp h)
      · rw [if_neg hsigma] at h
        exact Or.inr ⟨c, List.mem_cons_self, h⟩
    · refine (ih h).imp_right ?_
      rintro ⟨later, hlater, hd⟩
      exact ⟨later, List.mem_cons_of_mem _ hlater, hd⟩

theorem isBlank_lowerAfter {before cs : List Char} (h : ∀ c ∈ cs, isBlank c = false) :
    ∀ d ∈ lowerAfter before cs, isBlank d = false := by
  intro d hd
  rcases mem_lowerAfter hd with rfl | ⟨c, hc, hd⟩
  · decide
  · exact isBlank_lowerChar (h c hc) d hd

theorem lowerAfter_ne_nil {before cs : List Char} (h : cs ≠ []) : lowerAfter before cs ≠ [] := by
  cases cs with
  | nil => exact absurd rfl h
  | cons c cs =>
    rw [lowerAfter]
    apply List.append_ne_nil_of_left_ne_nil
    by_cases hsigma : (c = 'Σ' && endsWord before cs) = true
    · rw [if_pos hsigma]
      exact List.cons_ne_nil _ _
    · rw [if_neg hsigma]
      exact lowerChar_ne_nil c

theorem isWord_lowercase {w : String} (h : IsWord w) : IsWord (lowercase w) := by
  unfold IsWord lowercase
  rw [String.toList_ofList]
  exact ⟨lowerAfter_ne_nil h.1, isBlank_lowerAfter h.2⟩

theorem isWord_of_mem_loweredWords {text w : String} (h : w ∈ loweredWords text) : IsWord w := by
  obtain ⟨v, hv, rfl⟩ := List.mem_map.mp h
  exact isWord_lowercase (isWord_of_mem_words hv)

theorem length_loweredWords (text : String) : (loweredWords text).length = (words text).length :=
  List.length_map _

/-- Texts that say the same have equally many words. -/
theorem length_words_eq {a b : String} (h : loweredWords a = loweredWords b) :
    (words a).length = (words b).length := by
  rw [← length_loweredWords, h, length_loweredWords]

theorem flatMap_loweredWords (texts : List String) :
    texts.flatMap loweredWords = (texts.flatMap words).map lowercase := by
  rw [List.map_flatMap]
  rfl

/-! ## Normal forms -/

theorem words_normalForm (text : String) : words (normalForm text) = loweredWords text :=
  words_spaced fun _ => isWord_of_mem_loweredWords

/-- Texts have the same normal form iff they agree word by word in lower case. -/
theorem normalForm_eq_iff {a b : String} :
    normalForm a = normalForm b ↔ loweredWords a = loweredWords b := by
  constructor
  · intro h
    rw [← words_normalForm a, h, words_normalForm]
  · intro h
    rw [normalForm, h, normalForm]

/-- A normal form is empty iff the text has no words. -/
theorem normalForm_eq_empty_iff {text : String} : normalForm text = "" ↔ words text = [] := by
  have hempty : normalForm text = normalForm "" ↔ loweredWords text = loweredWords "" :=
    normalForm_eq_iff
  exact hempty.trans List.map_eq_nil_iff

theorem loweredWords_spaced (texts : List String) :
    loweredWords (spaced texts) = texts.flatMap loweredWords := by
  rw [loweredWords, words_spaced_texts, List.map_flatMap]
  rfl

/-- Spacing does not count. -/
theorem loweredWords_spaced_words (text : String) :
    loweredWords (spaced (words text)) = loweredWords text := by
  rw [loweredWords, words_spaced fun _ => isWord_of_mem_words, loweredWords]

end Colloquy.Text
