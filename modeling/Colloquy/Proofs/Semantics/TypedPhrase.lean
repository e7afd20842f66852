import Colloquy.Proofs.Engine.TypedLines
import Colloquy.Proofs.Grammar.Built
import Colloquy.Proofs.Recognition.Transcript
import Colloquy.Proofs.Semantics.Keys
import Colloquy.Session.Basic

/-!
# The values of a typed phrase

Of a line that is recognized every choice and every dictation brings its value: the choice that of
the entry whose words were heard, the dictation the words that were typed (`value?_of_reported`). A
phrase that is heard over typed input was recognized on one of the lines (`listen_phrase`), so its
values are complete and exact (`values_of_typed_phrase`).
-/

namespace Colloquy

open Text Grammar

/-! ## What a slot brings -/

/-- The value that a slot brings when the words `group` were heard in it and reported as `m`. -/
def Slot.Brings (group : List String) (m : SlotMatch) (value : Option Value) : Slot → Prop
  | .literal _ | .wildcard => value = none
  | .choice entries => ∃ i e, m.choice = some i ∧ entries[i]? = some e ∧
      normalForm e.spoken = spaced (group.map lowercase) ∧ value = some e.value
  | .dictation => spaced group ≠ "" ∧ value = some (.text (spaced group))

theorem spaced_ne_empty {ws : List String} (hne : ws ≠ []) (hws : ∀ w ∈ ws, IsWord w) :
    spaced ws ≠ "" := by
  intro hempty
  have hwords := words_spaced hws
  rw [hempty] at hwords
  exact hne hwords.symm

theorem value?_of_reported {slot : Slot} {p : Nat} {group : List String} {m : SlotMatch}
    (h : slot.ReportedAs p group m) (hgroup : ∀ w ∈ group, IsWord w) :
    slot.Brings group m (slot.value? (some m)) := by
  have hspelling := h.spelling
  cases slot with
  | literal | wildcard => rfl
  | choice entries =>
    obtain ⟨i, e, hi, he, htext⟩ := hspelling
    have hsame : normalForm e.spoken = spaced (group.map lowercase) := by
      rw [← h.normal, htext, normalForm_spaced_words, normalForm]
    refine ⟨i, e, hi, he, hsame, ?_⟩
    simp only [Slot.value?, Option.bind_some, resolveChoice, hi, he]
  | dictation =>
    have htext : m.text = spaced group := hspelling
    refine ⟨spaced_ne_empty h.nonempty hgroup, ?_⟩
    simp only [Slot.value?, Option.map_some, Option.getD_some, htext, trimmed_spaced hgroup]

theorem Slot.Brings.isSome {slot : Slot} {group : List String} {m : SlotMatch}
    {value : Option Value} (h : slot.Brings group m value) : value.isSome = slot.bringsValue := by
  cases slot with
  | literal | wildcard => exact congrArg Option.isSome h
  | choice =>
    obtain ⟨i, e, -, -, -, hvalue⟩ := h
    exact congrArg Option.isSome hvalue
  | dictation => exact congrArg Option.isSome h.2

variable {g : Grammar} {line : String} {spans : List Span}

/-- Each slot of a recognized line brings a value if it may. -/
theorem brings_at (d : Derivation (loweredWords line) g.nodes 0 spans) {p : Nat} {node : Node}
    (hnode : g.nodes[p]? = some node) :
    let slots := (Recognition.ofSpans (words line) g.patterns spans).slots
    ∃ span m, spans[p]? = some span ∧ slots[p]? = some m ∧ m.node = p ∧
      node.slot.Brings (span.cut (words line)) m
        (node.slot.value? (slots.find? (·.node == p))) := by
  intro slots
  obtain ⟨span, m, hspan, hm, hreport, hreported⟩ := reported_at d hnode
  refine ⟨span, m, hspan, hm, hreported.node, ?_⟩
  rw [find?_slots_ofSpans (getElem?_patterns hnode) hspan, ← hreport]
  exact value?_of_reported hreported fun _ => isWord_of_mem_cut

/-! ## Phrases heard over typed input -/

namespace Session

theorem attempt_eq_ok {s after : Session TypedInput} (hloaded : s.world.loaded = some g)
    {heard : Option Recognition} (h : s.attempt = (.ok heard, after)) :
    ∃ bytes rest, lines s.world.unread = bytes :: lines rest ∧
      heard = g.recognize (decodeUtf8 bytes) ∧
      after = { s with world := { s.world with unread := rest } } := by
  have hengine : Engine.attempt s.config.attemptTimeout s.world = s.world.attempt := rfl
  rw [attempt, hengine] at h
  rcases hattempt : s.world.attempt with ⟨e | answer, world⟩
  · rw [hattempt] at h
    cases h
  · rw [hattempt] at h
    cases h
    obtain ⟨bytes, rest, hlines, hheard, rfl⟩ := TypedInput.attempt_eq_ok hloaded hattempt
    exact ⟨bytes, rest, hlines, hheard, rfl⟩

theorem hear_recognition {s after : Session TypedInput} (hloaded : s.world.loaded = some g)
    {patience : Nat} {heard : Recognition} (h : hear patience s = (some (.ok heard), after)) :
    ∃ bytes ∈ lines s.world.unread, g.recognize (decodeUtf8 bytes) = some heard := by
  induction patience generalizing s with
  | zero => cases h
  | succ patience ih =>
    rw [hear] at h
    rcases hattempt : s.attempt with ⟨e | _ | first, later⟩
    · rw [hattempt] at h
      cases h
    · obtain ⟨bytes, rest, hlines, -, hlater⟩ := attempt_eq_ok hloaded hattempt
      have hstill : later.world.loaded = some g := by rw [hlater]; exact hloaded
      have hunread : later.world.unread = rest := by rw [hlater]
      rw [hattempt] at h
      obtain ⟨bytes', hmem, hheard⟩ := ih hstill h
      rw [hunread] at hmem
      exact ⟨bytes', hlines ▸ List.mem_cons_of_mem _ hmem, hheard⟩
    · obtain ⟨bytes, rest, hlines, hfirst, -⟩ := attempt_eq_ok hloaded hattempt
      rw [hattempt] at h
      cases h
      exact ⟨bytes, hlines ▸ List.mem_cons_self, hfirst.symm⟩

theorem load_eq_ok {s after : Session TypedInput} (h : s.load g = (.ok (), after)) :
    after.world.loaded = some g ∧ after.world.unread = s.world.unread := by
  obtain ⟨⟨unread, ending, loaded⟩, config, _ | active⟩ := s
  · cases loaded with
    | none =>
      cases h
      exact ⟨rfl, rfl⟩
    | some other => cases h
  · cases h

theorem finish_eq_ok {σ : Type} [Engine σ] {s after : Session σ}
    {outcome : Except Error Recognition} {phrase : Phrase}
    (h : s.finish g outcome = (.ok phrase, after)) :
    ∃ heard, outcome = .ok heard ∧ phrase = .ofRecognition g heard := by
  unfold finish at h
  rcases outcome with e | heard
  · cases h
  · rcases hunload : s.unload with ⟨e | _, _⟩
    · rw [hunload] at h
      cases h
    · rw [hunload] at h
      cases h
      exact ⟨heard, rfl, rfl⟩

/-- A phrase that is heard over typed input was recognized on one of its lines. -/
theorem listen_phrase {s after : Session TypedInput} {patience : Nat} {phrase : Phrase}
    (h : s.listen patience g = (some (.ok phrase), after)) :
    ∃ bytes ∈ lines s.world.unread, ∃ heard, g.recognize (decodeUtf8 bytes) = some heard ∧
      phrase = .ofRecognition g heard := by
  rw [listen] at h
  rcases hload : s.load g with ⟨e | _, loaded⟩
  · rw [hload] at h
    cases h
  · rw [hload] at h
    dsimp only at h
    obtain ⟨hloaded, hunread⟩ := load_eq_ok hload
    rcases hhear : hear patience loaded with ⟨_ | outcome, later⟩
    · rw [hhear] at h
      cases h
    · rw [hhear] at h
      dsimp only at h
      rcases hfinish : later.finish g outcome with ⟨answer, last⟩
      rw [hfinish] at h
      cases h
      obtain ⟨heard, rfl, rfl⟩ := finish_eq_ok hfinish
      obtain ⟨bytes, hmem, hheard⟩ := hear_recognition hloaded hhear
      rw [hunread] at hmem
      exact ⟨bytes, hmem, heard, hheard, rfl⟩

end Session

/-! ## Complete and exact values -/

/-- The values of a phrase that is heard over typed input, and of every line that is recognized.
There is a value for each choice and each dictation with a key, in the order of the grammar, and
there are no others. Each is found under its key: of a choice the value of the recorded entry, which
is spoken in the words of its span, of a dictation the words of its span as they were typed. -/
theorem values_of_typed_phrase (g : Grammar) (hg : g.Built) :
    (∀ (s after : Session TypedInput) (patience : Nat) (phrase : Phrase),
        s.listen patience g = (some (.ok phrase), after) →
        ∃ bytes ∈ lines s.world.unread, ∃ heard, g.recognize (decodeUtf8 bytes) = some heard ∧
          phrase = .ofRecognition g heard) ∧
      ∀ (line : String) (heard : Recognition), g.recognize line = some heard →
        let values := (Phrase.ofRecognition g heard).semantics
        values.keys = g.valueKeys ∧ values.keys.Nodup ∧
          (∀ key ∈ g.valueKeys, ∃ value,
            values.get? key = some value ∧ values.get key = .ok value) ∧
          ∃ spans, Pattern.search g.patterns 0 (loweredWords line) = some spans ∧
            ∀ (p : Nat) (node : Node) (key : String), g.nodes[p]? = some node →
              node.key = some key →
              ∃ span m, spans[p]? = some span ∧ heard.slots[p]? = some m ∧ m.node = p ∧
                node.slot.Brings (span.cut (words line)) m (values.get? key) := by
  refine ⟨fun s after patience phrase => Session.listen_phrase, fun line heard h => ?_⟩
  obtain ⟨spans, hsearch, d, rfl⟩ := exists_derivation h
  let heard := Recognition.ofSpans (words line) g.patterns spans
  have hunique : g.keys.Nodup := (built_iff_wellFormed.mp hg).nodup_keys
  have hkeys : (g.extract heard.slots).keys = g.valueKeys := by
    apply keys_extract
    intro p node hnode
    obtain ⟨span, m, -, -, -, hbrings⟩ := brings_at d hnode
    exact hbrings.isSome
  have hnodup : (g.extract heard.slots).keys.Nodup := hkeys ▸ hunique.sublist (valueKeys_sublist g)
  refine ⟨hkeys, hnodup, ?_, spans, hsearch, ?_⟩
  · intro key hkey
    obtain ⟨value, hvalue⟩ := Semantics.exists_get?_of_mem_keys hnodup (hkeys ▸ hkey)
    exact ⟨value, hvalue, Semantics.get_eq_ok hvalue⟩
  · intro p node key hnode hkey
    obtain ⟨span, m, hspan, hm, hplace, hbrings⟩ := brings_at d hnode
    refine ⟨span, m, hspan, hm, hplace, ?_⟩
    have hget : (g.extract heard.slots).get? key =
        node.slot.value? (heard.slots.find? (·.node == p)) := get?_extract hunique hnode hkey
    exact hget ▸ hbrings

theorem values_of_typed_phrase_orderTea :
    orderTea.Built ∧ ∃ phrase after,
      (Session.new (TypedInput.ofBytes (utf8 " i WANT green tea for Kai  Lee\n")) .usual).listen 1
        orderTea = (some (.ok phrase), after) ∧
      phrase.semantics = ⟨[("tea", .int 1), ("name", .text "for Kai Lee")]⟩ ∧
      phrase.semantics.keys = orderTea.valueKeys ∧
      phrase.semantics.keys.Nodup ∧
      ∃ value, phrase.semantics.get "name" = .ok value := by
  have hbuilt : orderTea.Built := by
    rw [built_iff_wellFormed]
    exact ⟨by decide, by decide +kernel, by decide +kernel⟩
  have hrun : ((Session.new (TypedInput.ofBytes (utf8 " i WANT green tea for Kai  Lee\n"))
      .usual).listen 1 orderTea).1.map (·.toOption.map Phrase.semantics) =
        some (some ⟨[("tea", .int 1), ("name", .text "for Kai Lee")]⟩) := by decide +kernel
  rcases hlisten : (Session.new (TypedInput.ofBytes (utf8 " i WANT green tea for Kai  Lee\n"))
      .usual).listen 1 orderTea with ⟨_ | _ | phrase, after⟩
  · rw [hlisten] at hrun
    cases hrun
  · rw [hlisten] at hrun
    cases hrun
  · rw [hlisten] at hrun
    have hvalues := Option.some.inj (Option.some.inj hrun)
    obtain ⟨hphrase, hvalue⟩ := values_of_typed_phrase orderTea hbuilt
    obtain ⟨bytes, -, heard, hheard, rfl⟩ := hphrase _ _ _ _ hlisten
    obtain ⟨hkeys, hnodup, hget, -⟩ := hvalue _ _ hheard
    obtain ⟨value, -, hname⟩ := hget "name" (by decide)
    exact ⟨hbuilt, _, after, rfl, hvalues, hkeys, hnodup, value, hname⟩

end Colloquy
