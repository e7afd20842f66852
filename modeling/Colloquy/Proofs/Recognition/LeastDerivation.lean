import Colloquy.Proofs.Recognition.Derivation

/-!
# The search finds the least derivation

The spans that a slot may take are exactly those that say it (`mem_takes_pattern`), and they are
tried in the order in which the slot prefers them (`pairwise_takes`). Therefore the first span from
which the search can go on belongs to the least derivation, and a search that comes back empty has
tried every derivation.

* `search_isSome`: an utterance with a derivation is found.
* `derivation_of_search`, `least_of_search`: what is found is a derivation, and no other one comes
  before it.
* `search_eq_least`: both together, for the utterance as a whole.
-/

namespace Colloquy

open Text Grammar

/-! ## Words that are taken off an utterance -/

theorem Wording.ofText_words {text : String} (h : loweredWords text ≠ []) :
    (Wording.ofText text).words = loweredWords text := by
  unfold Wording.ofText
  cases hw : loweredWords text with
  | nil => exact absurd hw h
  | cons => rfl

/-- A blank text asks for the empty word, so an utterance without it begins with the wording only
if it begins with the words of the text. -/
theorem Wording.ofText_append_iff {heard rest : List String} (hne : ∀ w ∈ heard, w ≠ "")
    {text : String} :
    heard = (ofText text).words ++ rest ↔
      loweredWords text ≠ [] ∧ heard = loweredWords text ++ rest := by
  by_cases hw : loweredWords text = []
  · simp only [hw, ne_eq, not_true_eq_false, false_and, iff_false]
    intro h
    have hblank : (ofText text).words = [""] := by
      unfold ofText
      rw [hw]
    rw [hblank] at h
    exact hne "" (h ▸ List.mem_cons_self) rfl
  · rw [ofText_words hw]
    exact ⟨fun h => ⟨hw, h⟩, fun h => h.2⟩

/-- No utterance begins with a blank text. -/
theorem Wording.after?_of_blank {heard : List String} (hne : ∀ w ∈ heard, w ≠ "") {text : String}
    (h : loweredWords text = []) : (ofText text).after? heard = none := by
  rw [Option.eq_none_iff_forall_ne_some]
  intro rest hrest
  rw [after?_eq_some_iff, ofText_append_iff hne] at hrest
  exact hrest.1 h

/-- The words `taken` come first from position `start` on iff a span of their length cuts them
out. -/
theorem drop_eq_append_iff {heard taken rest : List String} {start stop : Nat}
    (hstop : stop = start + taken.length) (hlt : start < stop) :
    heard.drop start = taken ++ rest ↔
      stop ≤ heard.length ∧ (heard.take stop).drop start = taken ∧ rest = heard.drop stop := by
  subst hstop
  rw [List.drop_take, Nat.add_sub_cancel_left]
  constructor
  · intro h
    have hlen := congrArg List.length h
    rw [List.length_drop, List.length_append] at hlen
    refine ⟨by omega, ?_, ?_⟩
    · rw [h, List.take_left]
    · rw [← List.drop_drop, h, List.drop_left]
  · intro h
    obtain ⟨-, htaken, rfl⟩ := h
    have h := List.take_append_drop taken.length (heard.drop start)
    rw [htaken, List.drop_drop] at h
    exact h.symm

theorem length_cut {heard : List String} {span : Span} (h : span.stop ≤ heard.length) :
    (span.cut heard).length = span.stop - span.start := by
  rw [Span.cut, List.length_drop, List.length_take, Nat.min_eq_left h]

/-! ## What a slot takes -/

/-- A pattern takes words off the utterance, as many as its span is long. -/
theorem Pattern.exists_taken_of_mem_takes {p : Pattern} {start : Nat} {heard rest : List String}
    {span : Span} (h : (span, rest) ∈ p.takes start heard) :
    ∃ taken, heard = taken ++ rest ∧ span.start = start ∧ span.stop = start + taken.length := by
  cases p with
  | fixed w =>
    obtain ⟨hheard, rfl⟩ := mem_takes_fixed.mp h
    exact ⟨w.words, hheard, rfl, rfl⟩
  | oneOf options =>
    obtain ⟨_, w, -, hheard, rfl⟩ := mem_takes_oneOf.mp h
    exact ⟨w.words, hheard, rfl, rfl⟩
  | free =>
    obtain ⟨taken, -, hheard, rfl⟩ := mem_takes_free.mp h
    exact ⟨taken, hheard, rfl, rfl⟩

/-- A wording takes one span: the words of its text, if there are any. -/
theorem takes_ofText_iff {heard rest : List String} (hne : ∀ w ∈ heard, w ≠ "") {text : String}
    {start : Nat} {span : Span} {choice : Option Nat} :
    heard.drop start = (Wording.ofText text).words ++ rest ∧
        span = ⟨start, start + (Wording.ofText text).words.length, choice⟩ ↔
      span.start = start ∧ start < span.stop ∧ span.stop ≤ heard.length ∧
        (span.choice = choice ∧ span.cut heard = loweredWords text) ∧
        rest = heard.drop span.stop := by
  rw [Wording.ofText_append_iff fun w hw => hne w (List.mem_of_mem_drop hw)]
  constructor
  · intro h
    obtain ⟨⟨hw, h⟩, rfl⟩ := h
    have hpos := List.length_pos_iff.mpr hw
    rw [Wording.ofText_words hw]
    obtain ⟨hle, hcut, hrest⟩ := (drop_eq_append_iff rfl (by omega)).mp h
    exact ⟨rfl, by dsimp only; omega, hle, ⟨rfl, hcut⟩, hrest⟩
  · intro h
    obtain ⟨rfl, hlt, hle, ⟨rfl, hcut⟩, hrest⟩ := h
    have hlen := length_cut hle
    rw [hcut] at hlen
    have hw : loweredWords text ≠ [] := List.length_pos_iff.mp (by omega)
    refine ⟨⟨hw, (drop_eq_append_iff (by omega) hlt).mpr ⟨hle, hcut, hrest⟩⟩, ?_⟩
    rw [Wording.ofText_words hw, hlen, Nat.add_sub_cancel' (Nat.le_of_lt hlt)]

/-- A slot takes exactly the stretches that say it, each with the words behind it. -/
theorem mem_takes_pattern {heard : List String} (hne : ∀ w ∈ heard, w ≠ "") {slot : Slot}
    {start : Nat} {span : Span} {rest : List String} :
    (span, rest) ∈ slot.pattern.takes start (heard.drop start) ↔
      span.start = start ∧ start < span.stop ∧ span.stop ≤ heard.length ∧
        slot.SaidBy heard span ∧ rest = heard.drop span.stop := by
  cases slot with
  | literal text =>
    rw [Slot.pattern, Pattern.mem_takes_fixed]
    exact takes_ofText_iff hne
  | choice entries =>
    simp only [Slot.pattern, Pattern.mem_takes_oneOf, List.getElem?_map, Option.map_eq_some_iff]
    constructor
    · intro h
      obtain ⟨i, -, ⟨e, he, rfl⟩, h⟩ := h
      obtain ⟨hstart, hlt, hle, ⟨hi, hcut⟩, hrest⟩ := (takes_ofText_iff hne).mp h
      exact ⟨hstart, hlt, hle, ⟨i, e, hi, he, hcut⟩, hrest⟩
    · intro h
      obtain ⟨hstart, hlt, hle, ⟨i, e, hi, he, hcut⟩, hrest⟩ := h
      exact ⟨i, _, ⟨e, he, rfl⟩,
        (takes_ofText_iff hne).mpr ⟨hstart, hlt, hle, ⟨hi, hcut⟩, hrest⟩⟩
  | wildcard | dictation =>
    rw [Slot.pattern, Pattern.mem_takes_free]
    constructor
    · intro h
      obtain ⟨taken, htaken, h, rfl⟩ := h
      have hpos := List.length_pos_iff.mpr htaken
      obtain ⟨hle, -, hrest⟩ := (drop_eq_append_iff rfl (by omega)).mp h
      exact ⟨rfl, by dsimp only; omega, hle, rfl, hrest⟩
    · intro h
      obtain ⟨rfl, hlt, hle, hsaid, hrest⟩ := h
      have hlen := length_cut hle
      refine ⟨span.cut heard, List.length_pos_iff.mp (by omega),
        (drop_eq_append_iff (by omega) hlt).mpr ⟨hle, rfl, hrest⟩, ?_⟩
      rw [hlen, Nat.add_sub_cancel' (Nat.le_of_lt hlt), ← show span.choice = none from hsaid]

/-! ## The order in which spans are tried -/

theorem pairwise_zipIdx {α : Type} (xs : List α) (k : Nat) :
    (xs.zipIdx k).Pairwise fun a b => a.2 < b.2 := by
  induction xs generalizing k with
  | nil => exact .nil
  | cons x xs ih =>
    rw [List.zipIdx_cons, List.pairwise_cons]
    exact ⟨fun b hb => List.le_snd_of_mem_zipIdx hb, ih (k + 1)⟩

theorem pairwise_longer (start stop : Nat) (heard : List String) :
    (Pattern.longer start stop heard).Pairwise fun a b =>
      a.1.start = start ∧ b.1.start = start ∧ a.1.stop < b.1.stop := by
  induction heard generalizing stop with
  | nil => exact .nil
  | cons word heard ih =>
    rw [Pattern.longer, List.pairwise_cons]
    refine ⟨?_, ih (stop + 1)⟩
    rintro ⟨span, rest⟩ hb
    obtain ⟨taken, htaken, -, rfl⟩ := Pattern.mem_longer.mp hb
    have hpos := List.length_pos_iff.mpr htaken
    exact ⟨rfl, rfl, by dsimp only; omega⟩

/-- A slot tries the stretches it prefers before the others. -/
theorem pairwise_takes (slot : Slot) (start : Nat) (heard : List String) :
    (slot.pattern.takes start heard).Pairwise fun a b => slot.Prefers a.1 b.1 := by
  cases slot with
  | literal text =>
    simp only [Slot.pattern, Pattern.takes]
    cases (Wording.ofText text).after? heard with
    | none => exact .nil
    | some => exact List.pairwise_singleton _ _
  | choice entries =>
    simp only [Slot.pattern, Pattern.takes]
    rw [List.pairwise_filterMap]
    refine (pairwise_zipIdx _ 0).imp ?_
    rintro ⟨w, i⟩ ⟨w', i'⟩ hlt a ha b hb
    obtain ⟨_, -, rfl⟩ := Option.map_eq_some_iff.mp ha
    obtain ⟨_, -, rfl⟩ := Option.map_eq_some_iff.mp hb
    exact ⟨i, i', rfl, rfl, hlt⟩
  | wildcard | dictation =>
    refine (pairwise_longer start start heard).imp_of_mem ?_
    rintro ⟨a, _⟩ ⟨b, _⟩ ha hb ⟨hsa, hsb, hlt⟩
    obtain ⟨taken, -, -, rfl⟩ := Pattern.mem_longer.mp ha
    simp only [Slot.Prefers] at hlt hsb ⊢
    omega

/-! ## The search -/

namespace Pattern

variable {heard : List String} {nodes : List Node} {start : Nat} {spans : List Span}

/-- The search over the slots of `nodes`, for the words from position `start` on. -/
def searchFrom (heard : List String) (nodes : List Node) (start : Nat) : Option (List Span) :=
  search (nodes.map (·.slot.pattern)) start (heard.drop start)

theorem searchFrom_cons (node : Node) :
    searchFrom heard (node :: nodes) start =
      (node.slot.pattern.takes start (heard.drop start)).findSome? fun (span, rest) =>
        (search (nodes.map (·.slot.pattern)) span.stop rest).map (span :: ·) := rfl

theorem search_isSome (hne : ∀ w ∈ heard, w ≠ "") (h : Derivation heard nodes start spans) :
    (searchFrom heard nodes start).isSome = true := by
  induction h with
  | done => simp [searchFrom, search]
  | @slot node nodes start span spans starts nonempty said rest ih =>
    rw [searchFrom_cons, List.findSome?_isSome_iff]
    refine ⟨(span, heard.drop span.stop), ?_, ?_⟩
    · exact (mem_takes_pattern hne).mpr ⟨starts, nonempty, rest.start_le, said, rfl⟩
    · rw [Option.isSome_map]
      exact ih

theorem derivation_of_search (hne : ∀ w ∈ heard, w ≠ "") (hstart : start ≤ heard.length)
    (h : searchFrom heard nodes start = some spans) : Derivation heard nodes start spans := by
  induction nodes generalizing start spans with
  | nil =>
    simp only [searchFrom, List.map_nil] at h
    cases hd : heard.drop start with
    | nil =>
      rw [hd, search] at h
      cases h
      have hle := List.drop_eq_nil_iff.mp hd
      have : start = heard.length := by omega
      subst this
      exact .done
    | cons =>
      rw [hd, search] at h
      cases h
  | cons node nodes ih =>
    rw [searchFrom_cons] at h
    obtain ⟨⟨span, rest⟩, htakes, hrest⟩ := List.exists_of_findSome?_eq_some h
    obtain ⟨hs, hlt, hle, hsaid, rfl⟩ := (mem_takes_pattern hne).mp htakes
    obtain ⟨spans, hspans, rfl⟩ := Option.map_eq_some_iff.mp hrest
    exact .slot hs hlt hsaid (ih hle hspans)

/-- Whatever the search tried before it went on with a span led to nothing, and whatever it did not
try any more is less preferred. -/
theorem least_of_search (hne : ∀ w ∈ heard, w ≠ "")
    (h : searchFrom heard nodes start = some spans) {others : List Span}
    (d : Derivation heard nodes start others) : others = spans ∨ Before nodes spans others := by
  induction d generalizing spans with
  | done =>
    simp only [searchFrom, List.map_nil, List.drop_length, search] at h
    cases h
    exact Or.inl rfl
  | @slot node nodes start other others starts nonempty said rest ih =>
    rw [searchFrom_cons] at h
    obtain ⟨tried, ⟨span, words⟩, untried, htakes, hspan, hnone⟩ :=
      List.findSome?_eq_some_iff.mp h
    obtain ⟨tail, htail, rfl⟩ := Option.map_eq_some_iff.mp hspan
    have hpair := pairwise_takes node.slot start (heard.drop start)
    have hmem : (other, heard.drop other.stop) ∈
        node.slot.pattern.takes start (heard.drop start) :=
      (mem_takes_pattern hne).mpr ⟨starts, nonempty, rest.start_le, said, rfl⟩
    rw [htakes] at hpair hmem
    rcases List.mem_append.mp hmem with hmem | hmem
    · have hfound := search_isSome hne rest
      have hlost := hnone _ hmem
      dsimp only at hlost
      rw [Option.map_eq_none_iff] at hlost
      rw [searchFrom, hlost] at hfound
      cases hfound
    · rcases List.mem_cons.mp hmem with heq | hmem
      · obtain ⟨rfl, rfl⟩ := Prod.mk.inj heq
        rcases ih htail with rfl | hbefore
        · exact Or.inl rfl
        · exact Or.inr (.later hbefore)
      · obtain ⟨-, hlater, -⟩ := List.pairwise_append.mp hpair
        exact Or.inr (.here ((List.pairwise_cons.mp hlater).1 _ hmem))

end Pattern

/-! ## The utterance as a whole -/

theorem searchFrom_zero (g : Grammar) (heard : List String) :
    Pattern.searchFrom heard g.nodes 0 = Pattern.search g.patterns 0 heard := rfl

/-- The search comes back empty iff the utterance has no derivation, and what it finds is the
derivation that comes before all others. -/
theorem search_eq_least (g : Grammar) (heard : List String) (hne : ∀ w ∈ heard, w ≠ "") :
    (Pattern.search g.patterns 0 heard = none ↔ ∀ spans, ¬ Derivation heard g.nodes 0 spans) ∧
      ∀ spans, Pattern.search g.patterns 0 heard = some spans ↔
        Derivation heard g.nodes 0 spans ∧
          ∀ others, Derivation heard g.nodes 0 others → others ≠ spans →
            Before g.nodes spans others := by
  rw [← searchFrom_zero]
  refine ⟨⟨?_, ?_⟩, fun spans => ⟨?_, ?_⟩⟩
  · intro hnone spans d
    have hsome := Pattern.search_isSome hne d
    rw [hnone] at hsome
    cases hsome
  · intro hno
    cases h : Pattern.searchFrom heard g.nodes 0 with
    | none => rfl
    | some spans => exact absurd (Pattern.derivation_of_search hne (Nat.zero_le _) h) (hno spans)
  · intro h
    refine ⟨Pattern.derivation_of_search hne (Nat.zero_le _) h, fun others d hdiff => ?_⟩
    exact (Pattern.least_of_search hne h d).resolve_left hdiff
  · intro h
    obtain ⟨d, hleast⟩ := h
    obtain ⟨found, hfound⟩ := Option.isSome_iff_exists.mp (Pattern.search_isSome hne d)
    rw [hfound]
    -- Both are derivations, so if they differed each would come before the other.
    rcases Pattern.least_of_search hne hfound d with rfl | hbefore
    · rfl
    · have hd := Pattern.derivation_of_search hne (Nat.zero_le _) hfound
      by_cases heq : found = spans
      · rw [heq]
      · exact absurd hbefore (hleast found hd heq).asymm

/-- A grammar in which one entry begins another, one entry is blank, and two free slots share what
is left. -/
def ambiguousTea : Grammar :=
  ⟨"tea", [⟨none, .choice [⟨" ", .int 0⟩, ⟨"Light", .int 1⟩, ⟨"light green", .int 2⟩]⟩,
    ⟨none, .wildcard⟩, ⟨none, .dictation⟩]⟩

theorem search_eq_least_ambiguousTea :
    (∀ w ∈ ["light", "green", "tea", "please"], w ≠ "") ∧
      Pattern.search ambiguousTea.patterns 0 ["light", "green", "tea", "please"] =
        some [⟨0, 1, some 1⟩, ⟨1, 2, none⟩, ⟨2, 4, none⟩] ∧
      ∀ others, Derivation ["light", "green", "tea", "please"] ambiguousTea.nodes 0 others →
        others ≠ [⟨0, 1, some 1⟩, ⟨1, 2, none⟩, ⟨2, 4, none⟩] →
          Before ambiguousTea.nodes [⟨0, 1, some 1⟩, ⟨1, 2, none⟩, ⟨2, 4, none⟩] others := by
  have hne : ∀ w ∈ ["light", "green", "tea", "please"], w ≠ "" := by decide
  have hfound : Pattern.search ambiguousTea.patterns 0 ["light", "green", "tea", "please"] =
      some [⟨0, 1, some 1⟩, ⟨1, 2, none⟩, ⟨2, 4, none⟩] := by decide +kernel
  exact ⟨hne, hfound, (((search_eq_least ambiguousTea _ hne).2 _).mp hfound).2⟩

end Colloquy
