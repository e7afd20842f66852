import Colloquy.Proofs.Text.NormalForm

/-!
# Lower case is final

No small letter in the table of runs is a capital of it (`caseRuns_miss`), so the characters that
lowering gives are left as they are when they are lowered again (`lowerChar_of_mem`). Therefore a
text in lower case stays as it is (`lowercase_lowercase`), and so does a text in normal form
(`normalForm_normalForm`).
-/

namespace Colloquy.Text

/-! ## Small letters of the table -/

/-- The small letters of `run` are no capitals of `other`. Where the two overlap, the capitals of
`other` take every second place and the small letters stand between them. -/
def CaseRun.misses (run other : CaseRun) : Bool :=
  (run.small + (run.last - run.first)).blt other.first || other.last.blt run.small ||
    (run.step == 2 || run.first == run.last) && other.step == 2 &&
      (run.small + other.first) % 2 == 1

theorem CaseRun.covers_small_eq_false {run other : CaseRun} (h : run.misses other = true)
    {code : Nat} (hcode : run.covers code = true) :
    other.covers (run.small + (code - run.first)) = false := by
  simp only [misses, Bool.or_eq_true, Bool.and_eq_true, Nat.blt_eq, beq_iff_eq] at h
  simp only [covers, Bool.and_eq_true, decide_eq_true_eq, beq_iff_eq] at hcode
  obtain ⟨⟨hfirst, hlast⟩, hstep⟩ := hcode
  rw [← Bool.not_eq_true]
  simp only [covers, Bool.and_eq_true, decide_eq_true_eq, beq_iff_eq]
  rintro ⟨⟨hfirst', hlast'⟩, hstep'⟩
  obtain (hbelow | habove) | ⟨⟨hplace, hsecond⟩, hbetween⟩ := h
  · omega
  · omega
  · rw [hsecond] at hstep'
    rcases hplace with htwo | hone
    · rw [htwo] at hstep
      omega
    · omega

theorem caseRuns_miss : ∀ run ∈ caseRuns, caseRuns.all run.misses = true := by decide +kernel

theorem caseRuns_covers_zero : ∀ run ∈ caseRuns, run.covers 0 = false := by decide +kernel

/-- The dotted capital I is no small letter. -/
theorem caseRuns_undotted : ∀ run ∈ caseRuns,
    run.small + (run.last - run.first) < 0x130 ∨ 0x130 < run.small := by decide +kernel

/-! ## Characters lowered twice -/

theorem lowerChar_of_uncovered {c : Char} (hdotted : c ≠ '\u0130')
    (h : ∀ run ∈ caseRuns, run.covers c.toNat = false) : lowerChar c = [c] := by
  have hnone : caseRuns.find? (·.covers c.toNat) = none := by
    rw [List.find?_eq_none]
    exact fun run hrun => Bool.eq_false_iff.mp (h run hrun)
  rw [lowerChar, if_neg hdotted, hnone]

/-- The small letter of a capital is left as it is. -/
theorem lowerChar_small {run : CaseRun} (hrun : run ∈ caseRuns) {code : Nat}
    (hcode : run.covers code = true) :
    lowerChar (Char.ofNat (run.small + (code - run.first))) =
      [Char.ofNat (run.small + (code - run.first))] := by
  have hvalue := toNat_ofNat_eq (run.small + (code - run.first))
  apply lowerChar_of_uncovered
  · intro hdotted
    have hcovers := hcode
    simp only [CaseRun.covers, Bool.and_eq_true, decide_eq_true_eq] at hcovers
    have hapart := caseRuns_undotted run hrun
    have hcap : ('\u0130' : Char).toNat = 0x130 := rfl
    rw [hdotted, hcap] at hvalue
    omega
  · intro other hother
    rcases hvalue with hsmall | hzero
    · rw [hsmall]
      have hmiss := List.all_eq_true.mp (caseRuns_miss run hrun) other hother
      exact CaseRun.covers_small_eq_false hmiss hcode
    · rw [hzero]
      exact caseRuns_covers_zero other hother

/-- The characters that lowering gives are left as they are. -/
theorem lowerChar_of_mem {c d : Char} (h : d ∈ lowerChar c) : lowerChar d = [d] := by
  rcases mem_lowerChar h with rfl | rfl | ⟨run, hrun, hcovers, rfl⟩ | ⟨rfl, hself⟩
  · decide
  · decide
  · exact lowerChar_small hrun hcovers
  · exact hself

/-! ## Texts lowered twice -/

theorem lowerChar_of_mem_lowerAfter {before cs : List Char} {d : Char}
    (h : d ∈ lowerAfter before cs) : lowerChar d = [d] := by
  rcases mem_lowerAfter h with rfl | ⟨c, -, hd⟩
  · decide
  · exact lowerChar_of_mem hd

/-- A text is left as it is if each of its characters is. A capital sigma is none of them, so the
rule for the end of a word has no say. -/
theorem lowerAfter_eq_self {before cs : List Char} (h : ∀ c ∈ cs, lowerChar c = [c]) :
    lowerAfter before cs = cs := by
  induction cs generalizing before with
  | nil => rfl
  | cons c cs ih =>
    obtain ⟨hc, hrest⟩ := List.forall_mem_cons.mp h
    have hsigma : c ≠ 'Σ' := by
      rintro rfl
      exact absurd hc (by decide)
    rw [lowerAfter, decide_eq_false hsigma, Bool.false_and, if_neg Bool.false_ne_true, hc, ih hrest,
      List.singleton_append]

theorem lowercase_lowercase (text : String) : lowercase (lowercase text) = lowercase text := by
  have hself : lowerAfter [] (lowerAfter [] text.toList) = lowerAfter [] text.toList :=
    lowerAfter_eq_self fun _ => lowerChar_of_mem_lowerAfter
  rw [lowercase, lowercase, String.toList_ofList, hself]

/-! ## Normal forms -/

theorem map_lowercase_loweredWords (text : String) :
    (loweredWords text).map lowercase = loweredWords text := by
  rw [loweredWords, List.map_map]
  exact List.map_congr_left fun w _ => lowercase_lowercase w

/-- A normal form is its own normal form. -/
theorem normalForm_normalForm (text : String) : normalForm (normalForm text) = normalForm text := by
  rw [normalForm_eq_iff, loweredWords, words_normalForm, map_lowercase_loweredWords]

end Colloquy.Text
