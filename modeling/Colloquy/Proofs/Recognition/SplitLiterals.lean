import Colloquy.Proofs.Grammar.Composing
import Colloquy.Proofs.Recognition.Certainty
import Colloquy.Proofs.Recognition.Saying

/-!
# Split literals

A literal asks for its words in one go; several literals, one behind the other, ask for them in
several. The search gets as far in either way: what several wordings leave of an utterance is what
they leave as one (`Wording.after?_joined`), so the search with the parts finds what the search with
the whole finds, with the one span divided (`search_behind`, `search_split`). The report says the
same therefore, in more slots (`recognize_split`).
-/

namespace Colloquy

open Text Grammar

/-! ## Texts one space apart -/

theorem spaced_append_spaced (xs zs : List String) {ys : List String} (hne : ys ≠ []) :
    spaced (xs ++ spaced ys :: zs) = spaced (xs ++ (ys ++ zs)) := by
  have htail : spaced (spaced ys :: zs) = spaced (ys ++ zs) := by
    by_cases hzs : zs = []
    · rw [hzs, List.append_nil]
      exact String.intercalate_singleton
    · exact (String.intercalate_cons_of_ne_nil hzs).trans
        (String.intercalate_append_of_ne_nil hne hzs).symm
  by_cases hxs : xs = []
  · rw [hxs]
    exact htail
  · have hys : ys ++ zs ≠ [] := List.append_ne_nil_of_left_ne_nil hne zs
    calc spaced (xs ++ spaced ys :: zs)
        = spaced xs ++ " " ++ spaced (spaced ys :: zs) :=
          String.intercalate_append_of_ne_nil hxs (List.cons_ne_nil _ _)
      _ = spaced xs ++ " " ++ spaced (ys ++ zs) := by rw [htail]
      _ = spaced (xs ++ (ys ++ zs)) := (String.intercalate_append_of_ne_nil hxs hys).symm

/-- Texts that have words, with their spacing collapsed, are their words in order. -/
theorem spaced_flatMap_words {texts : List String} (h : ∀ t ∈ texts, words t ≠ [])
    (xs : List String) :
    spaced (xs ++ texts.map fun t => spaced (words t)) = spaced (xs ++ texts.flatMap words) := by
  induction texts generalizing xs with
  | nil => rfl
  | cons t texts ih =>
    obtain ⟨ht, hrest⟩ := List.forall_mem_cons.mp h
    rw [List.map_cons, List.flatMap_cons, ← spaced_append_spaced _ _ ht, List.append_cons,
      ih hrest, ← List.append_cons]

/-! ## Wordings one behind the other -/

namespace Wording

/-- The wordings one behind the other, as one. -/
def joined (ws : List Wording) : Wording where
  words := ws.flatMap (·.words)
  spelling := spaced (ws.map (·.spelling))

/-- What several wordings leave of an utterance is what they leave as one. -/
theorem after?_joined_cons (w : Wording) (ws : List Wording) (heard : List String) :
    (joined (w :: ws)).after? heard = (w.after? heard).bind (joined ws).after? := by
  apply Option.ext
  intro rest
  have hwords : (joined (w :: ws)).words = w.words ++ (joined ws).words := rfl
  simp only [Option.bind_eq_some_iff, after?_eq_some_iff, hwords, List.append_assoc]
  constructor
  · rintro rfl
    exact ⟨_, rfl, rfl⟩
  · rintro ⟨_, rfl, rfl⟩
    rfl

theorem ofText_eq_joined {text : String} {texts : List String} (htext : Text.words text ≠ [])
    (htexts : ∀ t ∈ texts, Text.words t ≠ []) (h : texts.flatMap Text.words = Text.words text) :
    ofText text = joined (texts.map ofText) := by
  have hwords : (ofText text).words = (joined (texts.map ofText)).words := by
    rw [ofText_words (loweredWords_eq_nil_iff.not.mpr htext), joined, List.flatMap_map,
      loweredWords, ← h, ← flatMap_loweredWords]
    exact (List.flatMap_congr fun t ht =>
      ofText_words (loweredWords_eq_nil_iff.not.mpr (htexts t ht))).symm
  have hspelling : (ofText text).spelling = (joined (texts.map ofText)).spelling := by
    have hspaced := spaced_flatMap_words htexts []
    rw [List.nil_append, List.nil_append, h] at hspaced
    rw [joined, List.map_map]
    exact hspaced.symm
  calc ofText text = ⟨(ofText text).words, (ofText text).spelling⟩ := rfl
    _ = joined (texts.map ofText) := by rw [hwords, hspelling]

/-- The spans of wordings that are said one behind the other from position `start` on. -/
def spans (start : Nat) : List Wording → List Span
  | [] => []
  | w :: ws => ⟨start, start + w.words.length, none⟩ :: spans (start + w.words.length) ws

theorem length_spans (start : Nat) (ws : List Wording) : (spans start ws).length = ws.length := by
  induction ws generalizing start with
  | nil => rfl
  | cons w ws ih => rw [spans, List.length_cons, ih, List.length_cons]

end Wording

/-! ## The search with the parts -/

namespace Pattern

theorem search_fixed_cons (w : Wording) (patterns : List Pattern) (start : Nat)
    (heard : List String) :
    search (.fixed w :: patterns) start heard = (w.after? heard).bind fun rest =>
      (search patterns (start + w.words.length) rest).map
        (⟨start, start + w.words.length, none⟩ :: ·) := by
  rw [search, takes]
  cases w.after? heard with
  | none => rfl
  | some rest => simp

theorem search_map_fixed (ws : List Wording) (patterns : List Pattern) (start : Nat)
    (heard : List String) :
    search (ws.map fixed ++ patterns) start heard =
      ((Wording.joined ws).after? heard).bind fun rest =>
        (search patterns (start + (Wording.joined ws).words.length) rest).map
          (Wording.spans start ws ++ ·) := by
  induction ws generalizing start heard with
  | nil =>
    have hrest : (Wording.joined []).after? heard = some heard := Wording.after?_eq_some_iff.mpr rfl
    rw [hrest, Option.bind_some]
    exact (congrFun Option.map_id _).symm
  | cons w ws ih =>
    have hlen : start + (Wording.joined (w :: ws)).words.length =
        start + w.words.length + (Wording.joined ws).words.length := by
      rw [Nat.add_assoc, ← List.length_append]
      rfl
    rw [List.map_cons, List.cons_append, search_fixed_cons, Wording.after?_joined_cons,
      Option.bind_assoc, hlen]
    congr 1
    funext rest
    rw [ih, Option.map_bind]
    congr 1
    funext later
    rw [Function.comp_apply, Option.map_map]
    rfl

/-- The first span divided among wordings. -/
def splitFirst (ws : List Wording) : List Span → List Span
  | [] => []
  | span :: spans => Wording.spans span.start ws ++ spans

theorem search_split (ws : List Wording) (patterns : List Pattern) (start : Nat)
    (heard : List String) :
    search (ws.map fixed ++ patterns) start heard =
      (search (.fixed (.joined ws) :: patterns) start heard).map (splitFirst ws) := by
  rw [search_map_fixed, search_fixed_cons, Option.map_bind]
  congr 1
  funext rest
  rw [Function.comp_apply, Option.map_map]
  rfl

/-- What is found behind the first patterns may be changed on its own. -/
theorem search_behind (first : List Pattern) {last last' : List Pattern}
    {f : List Span → List Span}
    (h : ∀ start heard, search last' start heard = (search last start heard).map f) (start : Nat)
    (heard : List String) :
    search (first ++ last') start heard =
      (search (first ++ last) start heard).map fun spans =>
        spans.take first.length ++ f (spans.drop first.length) := by
  induction first generalizing start heard with
  | nil => exact h start heard
  | cons p first ih =>
    rw [List.cons_append, List.cons_append, search, search, List.map_findSome?]
    congr 1
    funext taken
    obtain ⟨span, rest⟩ := taken
    dsimp only [Function.comp_apply]
    rw [ih, Option.map_map, Option.map_map]
    rfl

end Pattern

/-! ## The report on the parts -/

theorem map_text_slots (typed : List String) (patterns : List Pattern) (spans : List Span) :
    (Recognition.ofSpans typed patterns spans).slots.map (·.text) =
      (patterns.zip spans).map fun (pattern, span) => pattern.transcribe typed span := by
  apply List.ext_getElem?
  intro p
  rw [List.getElem?_map, List.getElem?_map, getElem?_slots, Option.map_map]
  rfl

theorem texts_of_parts (typed : List String) (ws : List Wording) (start : Nat) :
    ((ws.map Pattern.fixed).zip (Wording.spans start ws)).map
      (fun (pattern, span) => pattern.transcribe typed span) = ws.map (·.spelling) := by
  induction ws generalizing start with
  | nil => rfl
  | cons w ws ih =>
    rw [List.map_cons, Wording.spans, List.zip_cons_cons, List.map_cons, ih, List.map_cons]
    rfl

theorem length_zip_spans (ws : List Wording) (start : Nat) :
    ((ws.map Pattern.fixed).zip (Wording.spans start ws)).length = ws.length := by
  rw [List.length_zip, List.length_map, Wording.length_spans, Nat.min_self]

section

variable {first last : List Pattern} {ws : List Wording} {before behind : List Span} {span : Span}
  (hlen : first.length = before.length)
include hlen

theorem zip_whole :
    (first ++ .fixed (.joined ws) :: last).zip (before ++ span :: behind) =
      first.zip before ++ (.fixed (.joined ws), span) :: last.zip behind := by
  rw [List.zip_append hlen, List.zip_cons_cons]

theorem zip_parts :
    (first ++ (ws.map Pattern.fixed ++ last)).zip
        (before ++ (Wording.spans span.start ws ++ behind)) =
      first.zip before ++
        ((ws.map Pattern.fixed).zip (Wording.spans span.start ws) ++ last.zip behind) := by
  rw [List.zip_append hlen, List.zip_append]
  rw [List.length_map, Wording.length_spans]

theorem length_zip_first : (first.zip before).length = first.length := by
  rw [List.length_zip, hlen, Nat.min_self]

-- The report with the literal as a whole, and the one with its parts.
variable {typed : List String} {whole split : Recognition}
  (hwhole : whole = .ofSpans typed (first ++ .fixed (.joined ws) :: last)
    (before ++ span :: behind))
  (hsplit : split = .ofSpans typed (first ++ (ws.map Pattern.fixed ++ last))
    (before ++ (Wording.spans span.start ws ++ behind)))
include hwhole hsplit

theorem text_split (hne : ws ≠ []) : split.text = whole.text := by
  have htext (patterns : List Pattern) (spans : List Span) :
      (Recognition.ofSpans typed patterns spans).text =
        spaced ((Recognition.ofSpans typed patterns spans).slots.map (·.text)) := rfl
  rw [hwhole, hsplit, htext, htext, map_text_slots, map_text_slots, zip_whole hlen, zip_parts hlen,
    List.map_append, List.map_append, List.map_append, texts_of_parts, List.map_cons]
  exact (spaced_append_spaced _ _ (List.map_eq_nil_iff.not.mpr hne)).symm

theorem confidence_split : split.confidence = whole.confidence := by
  have hparts : takenBy Pattern.isFree (ws.map Pattern.fixed) (Wording.spans span.start ws) = 0 :=
    takenBy_eq_zero (List.forall_mem_map.mpr fun _ _ => rfl) _
  have hcount : (ws.map Pattern.fixed).length = (Wording.spans span.start ws).length := by
    rw [List.length_map, Wording.length_spans]
  have hfree : freeWords (first ++ (ws.map Pattern.fixed ++ last))
        (before ++ (Wording.spans span.start ws ++ behind)) =
      freeWords (first ++ .fixed (.joined ws) :: last) (before ++ span :: behind) := by
    rw [freeWords_eq_takenBy, freeWords_eq_takenBy, takenBy_append _ hlen, takenBy_append _ hlen,
      takenBy_append _ hcount, hparts, takenBy_cons]
    rfl
  simp only [hwhole, hsplit, Recognition.ofSpans, hfree]

/-- In front of the literal the same is reported. -/
theorem slot_before_split {p : Nat} (hp : p < first.length) :
    split.slots[p]? = whole.slots[p]? := by
  have hzip : p < (first.zip before).length := hp.trans_eq (length_zip_first hlen).symm
  rw [hwhole, hsplit, getElem?_slots, getElem?_slots, zip_whole hlen, zip_parts hlen,
    List.getElem?_append_left hzip, List.getElem?_append_left hzip]

/-- Behind the literal the same is reported at shifted positions. -/
theorem slot_behind_split {p : Nat} (hp : first.length ≤ p) :
    split.slots[p + ws.length]? =
      (whole.slots[p + 1]?).map fun m => { m with node := p + ws.length } := by
  have hzip := length_zip_first hlen
  have hparts := length_zip_spans ws span.start
  have hnext : p + 1 - first.length = p - first.length + 1 := by omega
  have hbehind : p + ws.length - first.length - ws.length = p - first.length := by omega
  rw [hwhole, hsplit, getElem?_slots, getElem?_slots, zip_whole hlen, zip_parts hlen,
    List.getElem?_append_right (by omega), List.getElem?_append_right (by omega),
    List.getElem?_append_right (by omega), hzip, hparts, hbehind, hnext, List.getElem?_cons_succ,
    Option.map_map]
  rfl

/-- What is reported on the parts says what is reported on the literal. -/
theorem texts_split :
    (whole.slots[first.length]?).map (·.text) =
      some (spaced (((split.slots.drop first.length).take ws.length).map (·.text))) := by
  have hzip := length_zip_first hlen
  rw [← List.getElem?_map, List.map_take, List.map_drop, hwhole, hsplit, map_text_slots,
    map_text_slots, zip_whole hlen, zip_parts hlen, List.map_append, List.map_append,
    List.map_append, texts_of_parts, List.map_cons, ← hzip,
    List.getElem?_append_right (List.length_map _).le, List.length_map, Nat.sub_self,
    List.drop_left' (List.length_map _), List.take_left' (List.length_map _)]
  rfl

end

/-! ## Grammars with a literal split -/

theorem Grammar.Literals.length_eq {nodes : List Node} {texts : List String}
    (h : Literals nodes texts) : nodes.length = texts.length := by
  have hlen := congrArg List.length h
  rwa [List.length_map, List.length_map] at hlen

theorem Grammar.Literals.patterns_eq {nodes : List Node} {texts : List String}
    (h : Literals nodes texts) :
    nodes.map (·.slot.pattern) = (texts.map Wording.ofText).map Pattern.fixed := by
  have hslots := congrArg (List.map Slot.pattern) h
  rw [List.map_map, List.map_map] at hslots
  rw [List.map_map]
  exact hslots

section

variable {g g' : Grammar} {first parts last : List Node} {key : Option String} {text : String}
  {texts : List String}

theorem patterns_whole (hnodes : g.nodes = first ++ ⟨key, .literal text⟩ :: last)
    (htext : words text ≠ []) (hwords : ∀ t ∈ texts, words t ≠ [])
    (hsame : texts.flatMap words = words text) :
    g.patterns = first.map (·.slot.pattern) ++
      .fixed (.joined (texts.map Wording.ofText)) :: last.map (·.slot.pattern) := by
  rw [patterns, hnodes, List.map_append, List.map_cons,
    ← Wording.ofText_eq_joined htext hwords hsame]
  rfl

theorem patterns_parts (hnodes' : g'.nodes = first ++ (parts ++ last))
    (hparts : Literals parts texts) :
    g'.patterns = first.map (·.slot.pattern) ++
      ((texts.map Wording.ofText).map Pattern.fixed ++ last.map (·.slot.pattern)) := by
  rw [patterns, hnodes', List.map_append, List.map_append, hparts.patterns_eq]

/-- The search with the parts finds what the search with the literal finds, with the span of the
literal divided. -/
theorem search_parts (hnodes : g.nodes = first ++ ⟨key, .literal text⟩ :: last)
    (hnodes' : g'.nodes = first ++ (parts ++ last)) (hparts : Literals parts texts)
    (htext : words text ≠ []) (hwords : ∀ t ∈ texts, words t ≠ [])
    (hsame : texts.flatMap words = words text) (heard : List String) :
    Pattern.search g'.patterns 0 heard = (Pattern.search g.patterns 0 heard).map fun spans =>
      spans.take first.length ++
        Pattern.splitFirst (texts.map Wording.ofText) (spans.drop first.length) := by
  rw [patterns_whole hnodes htext hwords hsame, patterns_parts hnodes' hparts,
    Pattern.search_behind _ (Pattern.search_split _ _), List.length_map]

end

/-- Splitting a literal is harmless. If a literal of a grammar that was built is replaced by several
ones, each with words (others are refused), that have its words in order and in the same spelling,
the same lines are recognized, with the same transcript and the same confidence. The same is
reported on every other slot, at its shifted position, and what is reported on the parts says what
was reported on the literal. -/
theorem recognize_split (g g' : Grammar) (hg : g.Built) (first parts last : List Node)
    (key : Option String) (text : String) (texts : List String)
    (hnodes : g.nodes = first ++ ⟨key, .literal text⟩ :: last)
    (hnodes' : g'.nodes = first ++ (parts ++ last)) (hparts : Literals parts texts)
    (hwords : ∀ t ∈ texts, words t ≠ []) (hsame : texts.flatMap words = words text)
    (line : String) :
    ((g.recognize line).isSome = true ↔ (g'.recognize line).isSome = true) ∧
      ∀ heard heard', g.recognize line = some heard → g'.recognize line = some heard' →
        heard'.text = heard.text ∧ heard'.confidence = heard.confidence ∧
          (∀ p < first.length, heard'.slots[p]? = heard.slots[p]?) ∧
          (∀ p, first.length ≤ p → heard'.slots[p + parts.length]? =
            (heard.slots[p + 1]?).map fun m => { m with node := p + parts.length }) ∧
          (heard.slots[first.length]?).map (·.text) =
            some (spaced (((heard'.slots.drop first.length).take parts.length).map (·.text))) := by
  have htext : words text ≠ [] := by
    have hsound := (built_iff_wellFormed.mp hg).slots_sound
    rw [hnodes, List.forall_mem_append, List.forall_mem_cons] at hsound
    exact fun hblank => Slot.fault?_eq_none_iff.mp hsound.2.1 ⟨text, rfl, hblank⟩
  have htexts : texts ≠ [] := by
    rintro rfl
    exact htext hsame.symm
  have hcount : (texts.map Wording.ofText).length = parts.length :=
    (List.length_map _).trans hparts.length_eq.symm
  have hcount' : (first.map (·.slot.pattern)).length = first.length := List.length_map _
  have hsearch := search_parts hnodes hnodes' hparts htext hwords hsame (loweredWords line)
  refine ⟨?_, fun heard heard' h h' => ?_⟩
  · rw [isSome_recognize_iff, isSome_recognize_iff, hsearch, Option.isSome_map]
  obtain ⟨spans, hspans, d, hwhole⟩ := exists_derivation h
  obtain ⟨-, spans', hspans', hsplit⟩ := recognize_eq_some_iff.mp h'
  have hlen : first.length < spans.length := by
    rw [d.length_eq, hnodes, List.length_append, List.length_cons]
    omega
  -- The span of the literal is the one behind those of the first slots.
  have hspan := List.drop_eq_getElem_cons hlen
  rw [hsearch, hspans, Option.map_some, Option.some.injEq, hspan] at hspans'
  subst hspans'
  rw [patterns_whole hnodes htext hwords hsame, ← List.take_append_drop first.length spans,
    hspan] at hwhole
  rw [patterns_parts hnodes' hparts] at hsplit
  have hfirst : (first.map (·.slot.pattern)).length = (spans.take first.length).length := by
    rw [List.length_map, List.length_take, Nat.min_eq_left hlen.le]
  have hreported := texts_split hfirst hwhole hsplit
  rw [hcount, hcount'] at hreported
  refine ⟨text_split hfirst hwhole hsplit (List.map_eq_nil_iff.not.mpr htexts),
    confidence_split hfirst hwhole hsplit,
    fun p hp => slot_before_split hfirst hwhole hsplit (hcount'.symm ▸ hp), fun p hp => ?_,
    hreported⟩
  have hbehind := slot_behind_split hfirst hwhole hsplit (hcount'.symm ▸ hp)
  rwa [hcount] at hbehind

/-- A grammar in which one entry begins another, and a literal of two words goes on from either. -/
def politeTea : Grammar :=
  ⟨"tea", [⟨some "tea", .choice [⟨"Green", .int 1⟩, ⟨"green tea", .int 2⟩]⟩,
    ⟨none, .literal "Tea  please"⟩,
    ⟨some "name", .dictation⟩]⟩

/-- The grammar `politeTea` with the literal split. -/
def politerTea : Grammar :=
  ⟨"tea", [⟨some "tea", .choice [⟨"Green", .int 1⟩, ⟨"green tea", .int 2⟩]⟩,
    ⟨some "leaf", .literal "Tea"⟩,
    ⟨none, .literal " please"⟩,
    ⟨some "name", .dictation⟩]⟩

theorem recognize_split_politeTea :
    politeTea.Built ∧
      ∃ heard heard', politeTea.recognize "green TEA tea please Kai" = some heard ∧
        politerTea.recognize "green TEA tea please Kai" = some heard' ∧
        heard'.text = "green tea Tea please Kai" ∧ heard'.confidence = heard.confidence ∧
        heard'.slots[0]? = heard.slots[0]? ∧ heard'.slots[3]? = some ⟨3, "Kai", none⟩ ∧
        spaced (((heard'.slots.drop 1).take 2).map (·.text)) = "Tea please" := by
  have hbuilt : politeTea.Built :=
    built_iff_wellFormed.mpr ⟨by decide, by decide +kernel, by decide +kernel⟩
  have hslots : (politeTea.recognize "green TEA tea please Kai").map (fun heard =>
      (heard.text, heard.slots)) = some ("green tea Tea please Kai",
        [⟨0, "green tea", some 1⟩, ⟨1, "Tea please", none⟩, ⟨2, "Kai", none⟩]) := by
    decide +kernel
  obtain ⟨heard, hheard, hreport⟩ := Option.map_eq_some_iff.mp hslots
  obtain ⟨htext, hslots⟩ := Prod.mk.inj hreport
  obtain ⟨hiff, hreports⟩ := recognize_split politeTea politerTea hbuilt
    [⟨some "tea", .choice [⟨"Green", .int 1⟩, ⟨"green tea", .int 2⟩]⟩]
    [⟨some "leaf", .literal "Tea"⟩, ⟨none, .literal " please"⟩] [⟨some "name", .dictation⟩] none
    "Tea  please" ["Tea", " please"] rfl rfl rfl (by decide +kernel) (by decide +kernel)
    "green TEA tea please Kai"
  obtain ⟨heard', hheard'⟩ :=
    Option.isSome_iff_exists.mp (hiff.mp (Option.isSome_iff_exists.mpr ⟨heard, hheard⟩))
  obtain ⟨htext', hconfidence, hbefore, hbehind, hparts⟩ := hreports heard heard' hheard hheard'
  have hlast := hbehind 1 (Nat.le_refl _)
  rw [hslots] at hlast hparts
  exact ⟨hbuilt, heard, heard', hheard, hheard', htext'.trans htext, hconfidence,
    hbefore 0 Nat.zero_lt_one, hlast, (Option.some.inj hparts).symm⟩

end Colloquy
