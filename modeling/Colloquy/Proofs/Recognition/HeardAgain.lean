import Colloquy.Proofs.Engine.TypedLines
import Colloquy.Proofs.Recognition.Transcript

/-!
# Transcripts heard again

A transcript has the same lowered words as the line it was made from, so the search takes the same
spans of it. These cut the same free words out of it (`cut_transcript`), so the same is reported
(`ofSpans_transcript`): a transcript is recognized as itself. It stands on one line
(`newline_not_mem_transcript`), so it may be typed in again (`recognize_transcript`).
-/

namespace Colloquy

open Text Grammar

variable {g : Grammar} {line : String} {spans : List Span}

/-! ## The same report -/

theorem Recognition.ofSpans_congr {typed typed' : List String} {patterns : List Pattern}
    (hlen : typed.length = typed'.length)
    (h : ∀ (p : Nat) (pattern : Pattern) (span : Span), patterns[p]? = some pattern →
      spans[p]? = some span → pattern.transcribe typed span = pattern.transcribe typed' span) :
    ofSpans typed patterns spans = ofSpans typed' patterns spans := by
  have hslots : (ofSpans typed patterns spans).slots = (ofSpans typed' patterns spans).slots := by
    apply List.ext_getElem?
    intro p
    cases hzip : (patterns.zip spans)[p]? with
    | none => rw [getElem?_slots, getElem?_slots, hzip]; rfl
    | some both =>
      obtain ⟨pattern, span⟩ := both
      obtain ⟨hpattern, hspan⟩ := List.getElem?_zip_eq_some.mp hzip
      rw [getElem?_slots_ofSpans hpattern hspan, getElem?_slots_ofSpans hpattern hspan,
        h p pattern span hpattern hspan]
  have hreport (ws : List String) : ofSpans ws patterns spans =
      ⟨spaced ((ofSpans ws patterns spans).slots.map SlotMatch.text),
        certainty Float32.ofNat (freeWords patterns spans) ws.length,
        (ofSpans ws patterns spans).slots⟩ := rfl
  calc ofSpans typed patterns spans
      = ⟨spaced ((ofSpans typed patterns spans).slots.map SlotMatch.text),
          certainty Float32.ofNat (freeWords patterns spans) typed.length,
          (ofSpans typed patterns spans).slots⟩ := hreport typed
    _ = ⟨spaced ((ofSpans typed' patterns spans).slots.map SlotMatch.text),
          certainty Float32.ofNat (freeWords patterns spans) typed'.length,
          (ofSpans typed' patterns spans).slots⟩ := by rw [hslots, hlen]
    _ = ofSpans typed' patterns spans := (hreport typed').symm

/-- The spans cut the words of each reported text out of the transcript. -/
theorem cut_transcript (d : Derivation (loweredWords line) g.nodes 0 spans) :
    let heard := Recognition.ofSpans (words line) g.patterns spans
    spans.map (·.cut (words heard.text)) = heard.slots.map fun m => words m.text := by
  intro heard
  have hwords : words heard.text = (heard.slots.map fun m => words m.text).flatten := by
    have htexts := words_spaced_texts (heard.slots.map (·.text))
    rwa [List.flatMap_map, List.flatMap_def] at htexts
  have hlowered := congrArg (List.map List.length) (loweredWords_slots d)
  have hcount : (words heard.text).length = (loweredWords line).length := by
    rw [← loweredWords_transcript d, length_loweredWords]
  rw [List.eq_iff_flatten_eq]
  constructor
  · rw [d.flatten_cut hcount, List.drop_zero, hwords]
  · simp only [List.map_map, Function.comp_def, loweredWords, List.length_map] at hlowered
    simp only [List.map_map, Function.comp_def, heard, hlowered, Span.cut, List.length_drop,
      List.length_take]
    rw [hcount, length_loweredWords]

theorem ofSpans_transcript (d : Derivation (loweredWords line) g.nodes 0 spans) :
    let heard := Recognition.ofSpans (words line) g.patterns spans
    Recognition.ofSpans (words heard.text) g.patterns spans = heard := by
  intro heard
  apply Recognition.ofSpans_congr (length_words_eq (loweredWords_transcript d))
  intro p pattern span hpattern hspan
  rw [patterns, List.getElem?_map] at hpattern
  obtain ⟨node, hnode, rfl⟩ := Option.map_eq_some_iff.mp hpattern
  obtain ⟨span', m, hspan', hm, -, hreported⟩ := reported_at d hnode
  rw [hspan, Option.some.injEq] at hspan'
  subst hspan'
  have hspelling := hreported.spelling
  obtain ⟨-, -, hsaid⟩ := d.said_at hnode hspan
  cases hslot : node.slot with
  | literal | choice =>
    rw [hslot] at hsaid
    exact hsaid.transcribe_eq rfl
  | wildcard | dictation =>
    rw [hslot] at hspelling
    have hgroup : ∀ w ∈ span.cut (words line), IsWord w := fun _ => isWord_of_mem_cut
    have hcut := congrArg (·[p]?) (cut_transcript d)
    simp only [List.getElem?_map, hspan, hm, Option.map_some, Option.some.injEq] at hcut
    have hwords : span.cut (words heard.text) = span.cut (words line) := by
      rw [hcut, hspelling, words_spaced hgroup]
    exact congrArg spaced hwords

theorem recognize_congr {a b : String} (h : words a = words b) (g : Grammar) :
    g.recognize a = g.recognize b := by
  unfold recognize
  rw [h]

/-! ## The same line -/

theorem words_append_newline (text : String) : words (text ++ "\n") = words text := by
  have hend : (text ++ "\n").toList = text.toList ++ '\n' :: [] := by
    rw [String.toList_append]
    rfl
  rw [words, hend, splitWords_append_blank _ _ isBlank_newline, words]
  exact congrArg _ (List.append_nil _)

/-- Between texts whose only blanks are spaces, there are spaces only. -/
theorem eq_space_of_mem_spaced {texts : List String}
    (h : ∀ t ∈ texts, ∀ c ∈ t.toList, isBlank c = true → c = ' ') :
    ∀ c ∈ (spaced texts).toList, isBlank c = true → c = ' ' := by
  have hspace : " ".toList = [' '] := rfl
  rw [spaced, String.toList_intercalate, hspace]
  induction texts with
  | nil =>
    intro c hc
    cases hc
  | cons t texts ih =>
    have ht := h t List.mem_cons_self
    have hrest := ih fun u hu => h u (List.mem_cons_of_mem _ hu)
    cases texts with
    | nil => simpa using ht
    | cons u texts =>
      rw [List.map_cons, List.map_cons, List.intercalate_cons_cons]
      intro c hc
      rcases List.mem_append.mp hc with hc | hc
      · rcases List.mem_append.mp hc with hc | hc
        · exact ht c hc
        · exact fun _ => List.mem_singleton.mp hc
      · exact hrest c hc

theorem eq_space_of_isWord {w : String} (h : IsWord w) :
    ∀ c ∈ w.toList, isBlank c = true → c = ' ' := by
  intro c hc hblank
  rw [h.2 c hc] at hblank
  cases hblank

theorem newline_not_mem_transcript (d : Derivation (loweredWords line) g.nodes 0 spans) :
    '\n' ∉ (Recognition.ofSpans (words line) g.patterns spans).text.toList := by
  have htexts : ∀ t ∈ (Recognition.ofSpans (words line) g.patterns spans).slots.map (·.text),
      ∀ c ∈ t.toList, isBlank c = true → c = ' ' := by
    intro t ht
    obtain ⟨m, hm, rfl⟩ := List.mem_map.mp ht
    obtain ⟨node, -, span, -, hreported⟩ := reported_of_mem d hm
    obtain ⟨ws, hws, htext⟩ := hreported.exists_words fun _ => isWord_of_mem_cut
    rw [htext]
    exact eq_space_of_mem_spaced fun w hw => eq_space_of_isWord (hws w hw)
  intro hmem
  have hspace := eq_space_of_mem_spaced htexts '\n' hmem isBlank_newline
  cases hspace

/-- A transcript is recognized as what it transcribes, and this is what an engine hears that is
given it as a line. -/
theorem recognize_transcript (g : Grammar) (line : String) (heard : Recognition)
    (h : g.recognize line = some heard) :
    g.recognize heard.text = some heard ∧
      ∀ (input : TypedInput) (rest : List UInt8), input.loaded = some g →
        (input.unread = utf8 heard.text ++ newline :: rest ∨
          input.unread = utf8 heard.text ∧ rest = [] ∧ input.ending = .closed) →
        input.attempt = (.ok (some heard), { input with unread := rest }) := by
  obtain ⟨spans, hsearch, d, rfl⟩ := exists_derivation h
  have hline := (recognize_eq_some_iff.mp h).1
  let heard := Recognition.ofSpans (words line) g.patterns spans
  have hlowered : loweredWords heard.text = loweredWords line := loweredWords_transcript d
  have hne : words heard.text ≠ [] := by
    intro hnil
    rw [loweredWords, hnil, loweredWords] at hlowered
    exact hline (List.map_eq_nil_iff.mp hlowered.symm)
  have hagain : g.recognize heard.text = some heard := by
    rw [recognize_eq_some_iff]
    exact ⟨hne, spans, by rw [hlowered, hsearch], (ofSpans_transcript d).symm⟩
  have hnewline : '\n' ∉ heard.text.toList := newline_not_mem_transcript d
  refine ⟨hagain, fun input rest hloaded hunread => ?_⟩
  rcases hunread with hunread | ⟨hunread, rfl, hending⟩
  · rw [TypedInput.attempt_of_text hloaded hnewline hunread,
      recognize_congr (words_append_newline heard.text), hagain]
  · have hbytes : utf8 heard.text ≠ [] := by
      intro hnil
      have htext := decodeUtf8_utf8 heard.text
      rw [hnil] at htext
      exact hne (htext ▸ rfl)
    rw [TypedInput.attempt_of_last_text hloaded hending hnewline hbytes hunread, hagain]

theorem recognize_transcript_orderTea :
    ∃ heard, orderTea.recognize " i WANT green tea for Kai  Lee" = some heard ∧
      heard.text = "I want Green tea for Kai Lee" ∧
      orderTea.recognize "I want Green tea for Kai Lee" = some heard ∧
      TypedInput.attempt ⟨utf8 "I want Green tea for Kai Lee", .closed, some orderTea⟩ =
        (.ok (some heard), ⟨[], .closed, some orderTea⟩) := by
  have htext : (orderTea.recognize " i WANT green tea for Kai  Lee").map (·.text) =
      some "I want Green tea for Kai Lee" := by decide +kernel
  obtain ⟨heard, hheard, htext⟩ := Option.map_eq_some_iff.mp htext
  obtain ⟨hagain, hattempt⟩ := recognize_transcript orderTea _ heard hheard
  rw [htext] at hagain hattempt
  exact ⟨heard, hheard, htext, hagain, hattempt _ [] rfl (Or.inr ⟨rfl, rfl, rfl⟩)⟩

end Colloquy
