import Colloquy.Proofs.Recognition.Transcript
import Mathlib.Algebra.Order.Field.Rat
import Mathlib.Algebra.Order.Field.Basic
import Mathlib.Tactic.Positivity
import Mathlib.Tactic.FieldSimp
import Mathlib.Tactic.NormNum.OfScientific
import Mathlib.Tactic.Ring

/-!
# The share of free words

Every slot takes a word at least, and the spans of a derivation take every word once
(`takenBy_add_takenBy`). So there are at least as many free words as free slots, and at least as
many others as other slots. The certainty of a report, computed without rounding, lies between one
half and one therefore, and comes to these bounds only where no slot is free, or no other slot is
there (`certainty_bounds`).
-/

namespace Colloquy

open Text Grammar

/-! ## Words taken by some of the slots -/

/-- The number of words in the spans of the patterns that satisfy `q`. -/
def takenBy (q : Pattern → Bool) (patterns : List Pattern) (spans : List Span) : Nat :=
  ((patterns.zip spans).map fun (p, span) =>
    if q p then span.stop - span.start else 0).foldr (· + ·) 0

theorem freeWords_eq_takenBy (patterns : List Pattern) (spans : List Span) :
    freeWords patterns spans = takenBy Pattern.isFree patterns spans := rfl

theorem takenBy_cons (q : Pattern → Bool) (p : Pattern) (patterns : List Pattern) (span : Span)
    (spans : List Span) : takenBy q (p :: patterns) (span :: spans) =
      (if q p then span.stop - span.start else 0) + takenBy q patterns spans := rfl

theorem takenBy_eq_zero {q : Pattern → Bool} {patterns : List Pattern}
    (h : ∀ p ∈ patterns, q p = false) (spans : List Span) : takenBy q patterns spans = 0 := by
  induction patterns generalizing spans with
  | nil => rfl
  | cons p patterns ih =>
    obtain ⟨hp, hrest⟩ := List.forall_mem_cons.mp h
    cases spans with
    | nil => rfl
    | cons span spans => rw [takenBy_cons, hp, ih hrest, if_neg Bool.false_ne_true]

theorem takenBy_append (q : Pattern → Bool) {patterns : List Pattern} {spans : List Span}
    (hlen : patterns.length = spans.length) (patterns' : List Pattern) (spans' : List Span) :
    takenBy q (patterns ++ patterns') (spans ++ spans') =
      takenBy q patterns spans + takenBy q patterns' spans' := by
  induction patterns generalizing spans with
  | nil =>
    obtain rfl : spans = [] := List.length_eq_zero_iff.mp hlen.symm
    exact (Nat.zero_add _).symm
  | cons p patterns ih =>
    cases spans with
    | nil => cases hlen
    | cons span spans =>
      rw [List.cons_append, List.cons_append, takenBy_cons, takenBy_cons,
        ih (Nat.succ.inj hlen), Nat.add_assoc]

namespace Grammar.Derivation

variable {heard : List String} {nodes : List Node} {start : Nat} {spans : List Span}

/-- Every slot takes a word at least. -/
theorem countP_le_takenBy (d : Derivation heard nodes start spans) (q : Pattern → Bool) :
    nodes.countP (q ·.slot.pattern) ≤ takenBy q (nodes.map (·.slot.pattern)) spans := by
  induction d with
  | done => exact Nat.le_refl _
  | @slot node nodes start span spans starts nonempty said rest ih =>
    rw [List.map_cons, takenBy_cons, List.countP_cons]
    split <;> omega

/-- Some slots take no word only where there are none of them. -/
theorem takenBy_eq_zero_iff (d : Derivation heard nodes start spans) (q : Pattern → Bool) :
    takenBy q (nodes.map (·.slot.pattern)) spans = 0 ↔
      ∀ node ∈ nodes, q node.slot.pattern = false := by
  constructor
  · intro h
    have hcount := d.countP_le_takenBy q
    rw [h, Nat.le_zero, List.countP_eq_zero] at hcount
    exact fun node hnode => Bool.eq_false_iff.mpr (hcount node hnode)
  · intro h
    exact takenBy_eq_zero (List.forall_mem_map.mpr h) spans

/-- The spans take every word once. -/
theorem takenBy_add_takenBy (d : Derivation heard nodes start spans) (q : Pattern → Bool) :
    start + (takenBy q (nodes.map (·.slot.pattern)) spans +
      takenBy (!q ·) (nodes.map (·.slot.pattern)) spans) = heard.length := by
  induction d with
  | done => rfl
  | @slot node nodes start span spans starts nonempty said rest ih =>
    rw [List.map_cons, takenBy_cons, takenBy_cons]
    cases q node.slot.pattern <;> simp <;> omega

end Grammar.Derivation

/-! ## Free words -/

/-- The words of the groups that belong to free slots. -/
def Grammar.freeOf (nodes : List Node) (groups : List (List String)) : List String :=
  (List.zipWith (fun node group => if node.slot.pattern.isFree then group else []) nodes
    groups).flatten

theorem Grammar.freeOf_cons (node : Node) (nodes : List Node) (group : List String)
    (groups : List (List String)) : freeOf (node :: nodes) (group :: groups) =
      (if node.slot.pattern.isFree then group else []) ++ freeOf nodes groups := rfl

theorem Grammar.freeOf_congr {nodes nodes' : List Node}
    (h : nodes.map (·.slot.pattern.isFree) = nodes'.map (·.slot.pattern.isFree))
    (groups : List (List String)) : freeOf nodes groups = freeOf nodes' groups := by
  have hfrees (ns : List Node) : freeOf ns groups = (List.zipWith
      (fun (free : Bool) group => if free then group else []) (ns.map (·.slot.pattern.isFree))
        groups).flatten := by
    rw [List.zipWith_map_left]
    rfl
  rw [hfrees nodes, h, hfrees nodes']

theorem Grammar.Derivation.freeWords_eq {heard : List String} {nodes : List Node} {start : Nat}
    {spans : List Span} (d : Derivation heard nodes start spans) {ws : List String}
    (hlen : ws.length = heard.length) :
    freeWords (nodes.map (·.slot.pattern)) spans =
      (freeOf nodes (spans.map (·.cut ws))).length := by
  rw [freeWords_eq_takenBy]
  induction d with
  | done => rfl
  | @slot node nodes start span spans starts nonempty said rest ih =>
    have hcut := length_cut (hlen ▸ rest.start_le)
    rw [List.map_cons, List.map_cons, takenBy_cons, freeOf_cons, List.length_append, ih]
    split
    · rw [hcut]
    · rfl

theorem Slot.ReportedAs.words_text {p : Nat} {group : List String} {m : SlotMatch} {slot : Slot}
    (h : slot.ReportedAs p group m) (hfree : slot.pattern.isFree = true)
    (hgroup : ∀ w ∈ group, IsWord w) : words m.text = group := by
  have hspelling := h.spelling
  cases slot with
  | literal | choice => cases hfree
  | wildcard | dictation => exact hspelling ▸ words_spaced hgroup

/-- What is reported on free slots are the words that they took. -/
theorem freeOf_slots {g : Grammar} {line : String} {spans : List Span}
    (d : Derivation (loweredWords line) g.nodes 0 spans) :
    freeOf g.nodes ((Recognition.ofSpans (words line) g.patterns spans).slots.map
      fun m => words m.text) = freeOf g.nodes (spans.map (·.cut (words line))) := by
  unfold freeOf
  congr 1
  apply List.ext_getElem?
  intro p
  rw [List.getElem?_zipWith, List.getElem?_zipWith, List.getElem?_map, List.getElem?_map]
  cases hnode : g.nodes[p]? with
  | none => rfl
  | some node =>
    obtain ⟨span, m, hspan, hm, -, hreported⟩ := reported_at d hnode
    rw [hspan, hm, Option.map_some, Option.map_some]
    dsimp only
    split
    · next hfree => rw [hreported.words_text hfree fun _ => isWord_of_mem_cut]
    · rfl

/-! ## Certainty without rounding -/

section

variable {free total : Nat}

theorem certainty_rat (free total : Nat) :
    (certainty Nat.cast free total : ℚ) = 1 - free / (2 * total) := by
  have hhalf : (0.5 : ℚ) * free / total = free / (2 * total) := by
    rw [mul_comm (2 : ℚ), ← div_div]
    ring
  have hone : (1.0 : ℚ) = 1 := by norm_num
  rw [certainty, hhalf, hone]

theorem certainty_le_one : (certainty Nat.cast free total : ℚ) ≤ 1 := by
  have hshare : (0 : ℚ) ≤ free / (2 * total) := by positivity
  rw [certainty_rat]
  exact sub_le_self 1 hshare

theorem certainty_eq_one_iff (htotal : 1 ≤ total) :
    (certainty Nat.cast free total : ℚ) = 1 ↔ free = 0 := by
  have hne : (2 * total : ℚ) ≠ 0 := by positivity
  rw [certainty_rat, sub_eq_self, div_eq_zero_iff, or_iff_left hne, Nat.cast_eq_zero]

/-- What certainty is more than one half is half of the share of the other words. -/
theorem certainty_eq (htotal : 1 ≤ total) :
    (certainty Nat.cast free total : ℚ) = 1 / 2 + (total - free) / (2 * total) := by
  have hne : (total : ℚ) ≠ 0 := by positivity
  rw [certainty_rat]
  field_simp
  ring

theorem half_le_certainty (htotal : 1 ≤ total) (h : free ≤ total) :
    1 / 2 ≤ (certainty Nat.cast free total : ℚ) := by
  have hrest : (0 : ℚ) ≤ total - free := sub_nonneg.mpr (Nat.cast_le.mpr h)
  have hshare : (0 : ℚ) ≤ (total - free) / (2 * total) := by positivity
  rw [certainty_eq htotal]
  exact le_add_of_nonneg_right hshare

theorem certainty_eq_half_iff (htotal : 1 ≤ total) :
    (certainty Nat.cast free total : ℚ) = 1 / 2 ↔ free = total := by
  have hne : (2 * total : ℚ) ≠ 0 := by positivity
  rw [certainty_eq htotal, add_eq_left, div_eq_zero_iff, or_iff_left hne, sub_eq_zero,
    Nat.cast_inj, eq_comm]

end

/-- The certainty of a report is computed from two counts, that of the words of the line and that of
the words that are reported in free slots. The first is not zero. Each free slot has one of the free
words at least, and each other slot one of the others. So the certainty, computed without rounding,
lies between one half and one; it is one iff no slot is free, and one half iff every slot is. -/
theorem certainty_bounds (g : Grammar) (line : String) (heard : Recognition)
    (h : g.recognize line = some heard) :
    ∃ spans, Pattern.search g.patterns 0 (loweredWords line) = some spans ∧
      heard = .ofSpans (words line) g.patterns spans ∧
      let free := freeWords g.patterns spans
      let total := (words line).length
      let exact : ℚ := certainty Nat.cast free total
      heard.confidence = certainty Float32.ofNat free total ∧ 1 ≤ total ∧
        free = (freeOf g.nodes (heard.slots.map fun m => words m.text)).length ∧
        g.nodes.countP (·.slot.pattern.isFree) ≤ free ∧ free ≤ total ∧
        g.nodes.countP (!·.slot.pattern.isFree) ≤ total - free ∧
        exact = 1 - free / (2 * total) ∧ 1 / 2 ≤ exact ∧ exact ≤ 1 ∧
        (exact = 1 ↔ ∀ node ∈ g.nodes, node.slot.pattern.isFree = false) ∧
        (exact = 1 / 2 ↔ ∀ node ∈ g.nodes, node.slot.pattern.isFree = true) := by
  have hwords := (recognize_eq_some_iff.mp h).1
  obtain ⟨spans, hsearch, d, rfl⟩ := exists_derivation h
  refine ⟨spans, hsearch, rfl, ?_⟩
  intro free total exact
  have htotal : 1 ≤ total := List.length_pos_iff.mpr hwords
  let constrained := takenBy (!·.isFree) g.patterns spans
  have hsum : free + constrained = total := by
    have hall := d.takenBy_add_takenBy Pattern.isFree
    rw [length_loweredWords, Nat.zero_add] at hall
    exact hall
  have hfree : g.nodes.countP (·.slot.pattern.isFree) ≤ free := d.countP_le_takenBy _
  have hconstrained : g.nodes.countP (!·.slot.pattern.isFree) ≤ constrained :=
    d.countP_le_takenBy (!·.isFree)
  have hcount : free = (freeOf g.nodes (spans.map (·.cut (words line)))).length :=
    d.freeWords_eq (length_loweredWords line).symm
  refine ⟨rfl, htotal, hcount.trans (congrArg List.length (freeOf_slots d).symm), hfree, by omega,
    by omega, certainty_rat free total, half_le_certainty htotal (by omega), certainty_le_one,
    ?_, ?_⟩
  · rw [certainty_eq_one_iff htotal]
    exact d.takenBy_eq_zero_iff Pattern.isFree
  · have hnone : constrained = 0 ↔ ∀ node ∈ g.nodes, (!node.slot.pattern.isFree) = false :=
      d.takenBy_eq_zero_iff (!·.isFree)
    simp only [Bool.not_eq_false'] at hnone
    rw [certainty_eq_half_iff htotal, ← hnone]
    omega

/-- A grammar of free slots only. -/
def anyRemark : Grammar := ⟨"remark", [⟨none, .wildcard⟩, ⟨some "rest", .dictation⟩]⟩

theorem certainty_bounds_orderTea :
    (∃ heard, orderTea.recognize " i WANT green tea for Kai  Lee" = some heard ∧
        heard.confidence = certainty Float32.ofNat 4 7 ∧
        (freeOf orderTea.nodes (heard.slots.map fun m => words m.text)).length = 4 ∧
        (certainty Nat.cast 4 7 : ℚ) = 5 / 7) ∧
      ∃ heard, anyRemark.recognize "well  done" = some heard ∧
        heard.confidence = certainty Float32.ofNat 2 2 ∧
        (certainty Nat.cast 2 2 : ℚ) = 1 / 2 := by
  have htea : (orderTea.recognize " i WANT green tea for Kai  Lee").isSome = true := by
    decide +kernel
  have hremark : (anyRemark.recognize "well  done").isSome = true := by decide +kernel
  obtain ⟨tea, htea⟩ := Option.isSome_iff_exists.mp htea
  obtain ⟨remark, hremark⟩ := Option.isSome_iff_exists.mp hremark
  refine ⟨⟨tea, htea, ?_⟩, remark, hremark, ?_⟩
  · obtain ⟨spans, hsearch, -, hconfidence, -, hfree, -, -, -, hexact, -⟩ :=
      certainty_bounds orderTea _ tea htea
    obtain rfl : [⟨0, 2, none⟩, ⟨2, 3, some 0⟩, ⟨3, 4, none⟩, ⟨4, 7, none⟩] = spans := by
      rw [← Option.some.injEq, ← hsearch]
      decide +kernel
    have htaken : freeWords orderTea.patterns
        [⟨0, 2, none⟩, ⟨2, 3, some 0⟩, ⟨3, 4, none⟩, ⟨4, 7, none⟩] = 4 := by decide +kernel
    have htyped : (words " i WANT green tea for Kai  Lee").length = 7 := by decide +kernel
    rw [htaken, htyped] at hconfidence hexact
    exact ⟨hconfidence, hfree.symm.trans htaken, hexact.trans (by norm_num)⟩
  · obtain ⟨spans, hsearch, -, hconfidence, -, -, -, -, -, -, -, -, -, hall⟩ :=
      certainty_bounds anyRemark _ remark hremark
    obtain rfl : [⟨0, 1, none⟩, ⟨1, 2, none⟩] = spans := by
      rw [← Option.some.injEq, ← hsearch]
      decide +kernel
    exact ⟨hconfidence, hall.mpr (by decide)⟩

end Colloquy
