import Colloquy.Proofs.Recognition.Transcript
import Mathlib.Data.List.Forall2

/-!
# Saying a grammar

Whoever says the slots of a grammar one after the other is understood: the groups of words are a
derivation of the whole (`exists_derivation_of_groups`), so the line is recognized
(`exists_recognize_of_groups`), though the search may divide it in another way. It may not where
literals are concerned: a literal takes as many words as it has, so the words behind a row of
literals are always the same (`Derivation.behind_literals`).
-/

namespace Colloquy

open Text Grammar

/-! ## Lines that say every slot -/

/-- The lowered words of the group say the slot. -/
def Slot.SaidIn (group : List String) : Slot → Prop
  | .literal text => group = loweredWords text
  | .choice entries => ∃ e ∈ entries, group = loweredWords e.spoken
  | .wildcard | .dictation => True

/-- What lies between the words before it and the words behind it is cut out by its span. -/
theorem Span.cut_append (before group after : List String) (choice : Option Nat) :
    Span.cut ⟨before.length, before.length + group.length, choice⟩ (before ++ (group ++ after)) =
      group := by
  rw [cut, ← List.append_assoc, ← List.length_append, List.take_left, List.drop_left]

theorem Slot.SaidIn.exists_span {slot : Slot} {group : List String} (h : slot.SaidIn group)
    (before after : List String) :
    ∃ choice, slot.SaidBy (before ++ (group ++ after))
      ⟨before.length, before.length + group.length, choice⟩ := by
  have hcut := Span.cut_append before group after
  cases slot with
  | literal text => exact ⟨none, rfl, (hcut none).trans h⟩
  | choice entries =>
    obtain ⟨e, he, rfl⟩ := h
    obtain ⟨i, hi⟩ := List.getElem?_of_mem he
    exact ⟨some i, i, e, rfl, hi, hcut (some i)⟩
  | wildcard | dictation => exact ⟨none, rfl⟩

/-- Groups of words that say the slots one after the other are a derivation of the whole. -/
theorem exists_derivation_of_groups {nodes : List Node} {groups : List (List String)}
    (h : List.Forall₂ (fun node group => group ≠ [] ∧ node.slot.SaidIn group) nodes groups)
    (before : List String) :
    ∃ spans, Derivation (before ++ groups.flatten) nodes before.length spans := by
  induction h generalizing before with
  | nil =>
    rw [List.flatten_nil, List.append_nil]
    exact ⟨[], .done⟩
  | @cons node group nodes groups hfirst _ ih =>
    obtain ⟨hne, hsaid⟩ := hfirst
    have hpos := List.length_pos_iff.mpr hne
    obtain ⟨choice, hsaid⟩ := hsaid.exists_span before groups.flatten
    obtain ⟨spans, d⟩ := ih (before ++ group)
    rw [List.append_assoc, List.length_append] at d
    rw [List.flatten_cons]
    exact ⟨_, .slot rfl (by dsimp only; omega) hsaid d⟩

/-- A line that says every slot of a grammar is recognized. -/
theorem exists_recognize_of_groups {g : Grammar} {line : String} {groups : List (List String)}
    (hnodes : g.nodes ≠ [])
    (h : List.Forall₂ (fun node group => group ≠ [] ∧ node.slot.SaidIn group) g.nodes groups)
    (hline : loweredWords line = groups.flatten) : ∃ heard, g.recognize line = some heard := by
  obtain ⟨spans, d⟩ := exists_derivation_of_groups h []
  rw [List.nil_append, ← hline, List.length_nil] at d
  rw [← Option.isSome_iff_exists, isSome_recognize_iff]
  refine ⟨?_, Pattern.search_isSome (fun _ => ne_empty_of_mem_loweredWords) d⟩
  obtain ⟨name, nodes⟩ := g
  cases h with
  | nil => exact absurd rfl hnodes
  | cons hfirst =>
    rw [hline, List.flatten_cons]
    exact List.append_ne_nil_of_left_ne_nil hfirst.1 _

/-! ## Literals in a derivation -/

/-- The nodes are literals with these texts. -/
def Grammar.Literals (nodes : List Node) (texts : List String) : Prop :=
  nodes.map (·.slot) = texts.map .literal

theorem Grammar.Derivation.start_of_nil {heard : List String} {start : Nat} {spans : List Span}
    (d : Derivation heard [] start spans) : start = heard.length := by
  cases d
  rfl

/-- A row of literals takes as many words as the literals have. -/
theorem Grammar.Derivation.behind_literals {heard : List String} {first last : List Node}
    {texts : List String} (hfirst : Literals first texts) {start : Nat} {spans : List Span}
    (d : Derivation heard (first ++ last) start spans) :
    ∃ before behind, spans = before ++ behind ∧ before.length = first.length ∧
      Derivation heard last (start + (texts.flatMap loweredWords).length) behind := by
  induction first generalizing texts start spans with
  | nil =>
    obtain rfl : texts = [] := List.map_eq_nil_iff.mp hfirst.symm
    exact ⟨[], spans, rfl, rfl, d⟩
  | cons node first ih =>
    cases texts with
    | nil => cases hfirst
    | cons text texts =>
      obtain ⟨hslot, hrest⟩ := List.cons.inj hfirst
      cases d with
      | @slot _ _ _ span spans starts nonempty said rest =>
        dsimp only at hslot
        rw [hslot] at said
        have hlen := length_cut rest.start_le
        rw [said.2] at hlen
        obtain ⟨before, behind, rfl, hcount, d⟩ := ih hrest rest
        refine ⟨span :: before, behind, rfl, congrArg (· + 1) hcount, ?_⟩
        have hstop : start + ((text :: texts).flatMap loweredWords).length =
            span.stop + (texts.flatMap loweredWords).length := by
          rw [List.flatMap_cons, List.length_append]
          omega
        rw [hstop]
        exact d

/-- Between literals the only other slot takes the words between theirs. -/
theorem Grammar.Derivation.between_literals {heard : List String} {first last : List Node}
    {node : Node} {texts texts' : List String} (hfirst : Literals first texts)
    (hlast : Literals last texts') {spans : List Span}
    (d : Derivation heard (first ++ node :: last) 0 spans) :
    ∃ span, spans[first.length]? = some span ∧
      span.start = (texts.flatMap loweredWords).length ∧
      span.stop + (texts'.flatMap loweredWords).length = heard.length := by
  obtain ⟨before, behind, rfl, hcount, d⟩ := d.behind_literals hfirst
  rw [Nat.zero_add] at d
  cases d with
  | @slot _ _ _ span spans starts nonempty said rest =>
    refine ⟨span, ?_, starts, ?_⟩
    · rw [← hcount, List.getElem?_append_right (Nat.le_refl _), Nat.sub_self]
      rfl
    · rw [← List.append_nil last] at rest
      obtain ⟨_, _, -, -, d⟩ := rest.behind_literals hlast
      exact d.start_of_nil

end Colloquy
