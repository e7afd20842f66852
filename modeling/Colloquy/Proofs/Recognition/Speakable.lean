import Colloquy.Proofs.Grammar.Choices
import Colloquy.Proofs.Grammar.Composing
import Colloquy.Proofs.Recognition.BlankEntries
import Colloquy.Proofs.Recognition.HeardAgain
import Colloquy.Proofs.Recognition.Widening

/-!
# Grammars that can be spoken

A grammar that was built can be spoken if each of its choices has an entry with words: whoever says
such an entry for each of them, every literal and something for each free slot is recognized
(`exists_recognize_saying`). A choice without such an entry has nothing that says it, so a grammar
with one is never heard. Checked choices have no blank entries, so only entries that were put
together unchecked can keep a grammar from being spoken (`speakable_iff`).
-/

namespace Colloquy

open Text Grammar

/-! ## A line for an engine -/

/-- An engine in which the grammar is loaded recognizes some line. -/
def Grammar.Speakable (g : Grammar) : Prop :=
  ∃ (input : TypedInput) (heard : Recognition), input.loaded = some g ∧
    input.attempt.1 = .ok (some heard)

/-- Any line that is recognized may be typed in: its words, one space apart, stand on one line. -/
theorem speakable_iff_exists_line {g : Grammar} :
    g.Speakable ↔ ∃ line, (g.recognize line).isSome = true := by
  constructor
  · rintro ⟨input, heard, hloaded, hattempt⟩
    obtain ⟨line, -, -, hheard, -⟩ :=
      TypedInput.attempt_eq_ok hloaded (Prod.ext hattempt rfl : input.attempt = (_, input.attempt.2))
    exact ⟨decodeUtf8 line, by rw [← hheard]; rfl⟩
  · rintro ⟨line, hline⟩
    obtain ⟨heard, hheard⟩ := Option.isSome_iff_exists.mp hline
    have hwords : words (spaced (words line)) = words line :=
      words_spaced fun _ => isWord_of_mem_words
    have hnewline : '\n' ∉ (spaced (words line)).toList := by
      intro hmem
      have hspace := eq_space_of_mem_spaced
        (fun w hw => eq_space_of_isWord (isWord_of_mem_words hw)) '\n' hmem isBlank_newline
      cases hspace
    have hbytes : utf8 (spaced (words line)) ≠ [] := by
      intro hnil
      have htext := decodeUtf8_utf8 (spaced (words line))
      rw [hnil] at htext
      rw [← htext] at hwords
      exact (recognize_eq_some_iff.mp hheard).1 hwords.symm
    refine ⟨⟨utf8 (spaced (words line)), .closed, some g⟩, heard, rfl, ?_⟩
    rw [TypedInput.attempt_of_last_text rfl rfl hnewline hbytes rfl, recognize_congr hwords, hheard]

/-! ## Something to say -/

/-- A text that says the slot, if there is one. -/
def Slot.saying : Slot → String
  | .literal text => text
  | .choice entries =>
    match entries.find? (!·.isBlank) with
    | some e => e.spoken
    | none => ""
  | .wildcard | .dictation => "something"

/-- A choice has an entry with words. -/
def Slot.Offers (slot : Slot) : Prop :=
  ∀ entries, slot = .choice entries → ∃ e ∈ entries, words e.spoken ≠ []

theorem Slot.Offers.saidIn_saying {slot : Slot} (h : slot.Offers) (hsound : slot.fault? = none) :
    loweredWords slot.saying ≠ [] ∧ slot.SaidIn (loweredWords slot.saying) := by
  rw [ne_eq, loweredWords_eq_nil_iff]
  cases slot with
  | literal text => exact ⟨fun hblank => Slot.fault?_eq_none_iff.mp hsound ⟨text, rfl, hblank⟩, rfl⟩
  | choice entries =>
    obtain ⟨e, he, hwords⟩ := h entries rfl
    have hfound : (entries.find? (!·.isBlank)).isSome = true := by
      rw [List.find?_isSome]
      refine ⟨e, he, ?_⟩
      rw [Bool.not_eq_true', ← Bool.not_eq_true, Entry.isBlank_iff]
      exact hwords
    obtain ⟨first, hfirst⟩ := Option.isSome_iff_exists.mp hfound
    have hspoken := List.find?_some hfirst
    rw [Bool.not_eq_true', ← Bool.not_eq_true, Entry.isBlank_iff] at hspoken
    simp only [saying, hfirst]
    exact ⟨hspoken, first, List.mem_of_find?_eq_some hfirst, rfl⟩
  | wildcard | dictation => exact ⟨by decide +kernel, trivial⟩

/-- What says a slot is not blank, so the slot has words. -/
theorem Slot.SaidIn.offers {slot : Slot} {group : List String} (hne : group ≠ [])
    (h : slot.SaidIn group) : slot.Offers := by
  rintro entries rfl
  obtain ⟨e, he, rfl⟩ := h
  exact ⟨e, he, loweredWords_eq_nil_iff.not.mp hne⟩

/-- Something for each slot, one after the other. -/
def Grammar.saying (g : Grammar) : String := spaced (g.nodes.map (·.slot.saying))

theorem exists_recognize_saying {g : Grammar} (hg : g.Built)
    (h : ∀ node ∈ g.nodes, node.slot.Offers) : (g.recognize g.saying).isSome = true := by
  obtain ⟨hnodes, -, hsound⟩ := built_iff_wellFormed.mp hg
  have hgroups : List.Forall₂ (fun node group => group ≠ [] ∧ node.slot.SaidIn group) g.nodes
      (g.nodes.map fun node => loweredWords node.slot.saying) := by
    rw [List.forall₂_map_right_iff, List.forall₂_same]
    exact fun node hnode => (h node hnode).saidIn_saying (hsound node hnode)
  rw [Option.isSome_iff_exists]
  apply exists_recognize_of_groups hnodes hgroups
  rw [saying, loweredWords_spaced, List.flatMap_map, List.flatMap_def]

theorem offers_of_recognize {g : Grammar} {line : String} (h : (g.recognize line).isSome = true) :
    ∀ node ∈ g.nodes, node.slot.Offers := by
  obtain ⟨-, groups, -, hsaid⟩ := isSome_recognize_iff_divides.mp h
  intro node hnode
  generalize g.nodes = nodes at hsaid hnode
  induction hsaid with
  | nil => cases hnode
  | cons hfirst _ ih =>
    cases hnode with
    | head => exact hfirst.2.offers (List.map_eq_nil_iff.not.mpr hfirst.1)
    | tail _ hnode => exact ih hnode

/-! ## Checked slots -/

/-- The slot was not put together of unchecked entries. -/
inductive Slot.Checked : Slot → Prop
  | literal (text : String) : Checked (.literal text)
  | choice {entries : List Entry} {slot : Slot} (accepted : Slot.ofEntries entries = .ok slot) :
    Checked slot
  | words {forms : List String} {slot : Slot} (accepted : Slot.ofWords forms = .ok slot) :
    Checked slot
  | wildcard : Checked .wildcard
  | dictation : Checked .dictation

theorem Slot.offers_of_ofEntries {entries : List Entry} {slot : Slot}
    (h : Slot.ofEntries entries = .ok slot) : slot.Offers := by
  obtain ⟨rfl, hne, hforms, -⟩ := Slot.ofEntries_eq_ok_iff.mp h
  rintro _ ⟨⟩
  obtain ⟨e, he⟩ := List.exists_mem_of_ne_nil _ hne
  exact ⟨e, he, hforms e he⟩

theorem Slot.Checked.offers {slot : Slot} (h : slot.Checked) : slot.Offers := by
  cases h with
  | choice accepted => exact Slot.offers_of_ofEntries accepted
  | words accepted => exact Slot.offers_of_ofEntries accepted
  | literal | wildcard | dictation => exact nofun

namespace Grammar.Draft

theorem mem_edit {d : Draft} {e : Edit} {node : Node} (h : node ∈ (d.edit e).2.nodes) :
    node ∈ d.nodes ∨ e = .append node.key node.slot := by
  cases e with
  | append key slot =>
    rw [edit] at h
    obtain ⟨used, -, -, happend⟩ | ⟨-, fault, -, happend⟩ | ⟨-, -, happend⟩ :=
      append_cases d key slot
    · rw [happend] at h
      exact Or.inl h
    · rw [happend] at h
      exact Or.inl h
    · rw [happend] at h
      refine (List.mem_append.mp h).imp_right fun hnew => ?_
      rw [List.mem_singleton.mp hnew]
  | build =>
    rw [edit] at h
    obtain ⟨-, hbuild⟩ | ⟨-, hbuild⟩ := build_cases d
    · rw [hbuild] at h
      exact Or.inl h
    · rw [hbuild] at h
      cases h

/-- What a draft holds was appended, or held from the first. -/
theorem mem_after {d : Draft} {edits : List Edit} {node : Node} (h : node ∈ (d.after edits).nodes) :
    node ∈ d.nodes ∨ .append node.key node.slot ∈ edits := by
  induction edits generalizing d with
  | nil => exact Or.inl h
  | cons e edits ih =>
    rcases ih h with hheld | hlater
    · exact (mem_edit hheld).imp_right fun he => List.mem_cons.mpr (Or.inl he.symm)
    · exact Or.inr (List.mem_cons_of_mem _ hlater)

/-- What is built was appended. -/
theorem mem_of_build {name : String} {edits : List Edit} {g : Grammar}
    (h : ((empty name).after edits).build = .ok g) {node : Node} (hnode : node ∈ g.nodes) :
    .append node.key node.slot ∈ edits := by
  obtain ⟨-, hbuild⟩ | ⟨-, hbuild⟩ := build_cases ((empty name).after edits)
  · rw [hbuild] at h
    cases h
  · rw [hbuild] at h
    cases h
    exact (mem_after hnode).resolve_left List.not_mem_nil

end Grammar.Draft

/-- A slot without anything to say in it is a choice of blank entries, put together unchecked. -/
theorem Slot.not_offers_iff {slot : Slot} :
    ¬ slot.Offers ↔ ∃ entries, slot = .choice entries ∧ ¬ slot.Checked ∧
      (entries = [] ∨ ∀ e ∈ entries, Text.words e.spoken = []) := by
  constructor
  · intro h
    have hchecked : ¬ slot.Checked := fun hslot => h hslot.offers
    simp only [Offers, not_forall, not_exists, not_and, not_not] at h
    obtain ⟨entries, hslot, hblank⟩ := h
    exact ⟨entries, hslot, hchecked, Or.inr hblank⟩
  · rintro ⟨entries, hslot, -, hblank⟩ h
    obtain ⟨e, he, hwords⟩ := h entries hslot
    rcases hblank with rfl | hblank
    · cases he
    · exact hwords (hblank e he)

/-- A grammar that was built can be spoken iff each of its choices has an entry with words. So it
can if its slots were checked before they were appended, whatever else was asked for while it was
composed. A grammar that was built but is never recognized has a choice of entries that were put
together unchecked, which are none or blank without exception. One blank entry does no harm: it is
never recorded, and without the blank entries the same lines are recognized and the same is reported
of the same entries. -/
theorem speakable_iff (g : Grammar) (hg : g.Built) :
    (g.Speakable ↔ ∀ node ∈ g.nodes, ∀ entries, node.slot = .choice entries →
        ∃ e ∈ entries, words e.spoken ≠ []) ∧
      (∀ name edits, (∀ key slot, Draft.Edit.append key slot ∈ edits → slot.Checked) →
        ((Draft.empty name).after edits).build = .ok g → g.Speakable) ∧
      ((∀ line, g.recognize line = none) ↔ ∃ node ∈ g.nodes, ∃ entries,
        node.slot = .choice entries ∧ ¬ node.slot.Checked ∧
          (entries = [] ∨ ∀ e ∈ entries, words e.spoken = [])) ∧
      ∀ line, ((g.withoutBlanks.recognize line).isSome = true ↔
          (g.recognize line).isSome = true) ∧
        ∀ heard heard', g.recognize line = some heard →
          g.withoutBlanks.recognize line = some heard' →
          heard'.text = heard.text ∧ heard'.confidence = heard.confidence ∧
            ∀ (p : Nat) (node : Node), g.nodes[p]? = some node →
              ∃ m m', heard.slots[p]? = some m ∧ heard'.slots[p]? = some m' ∧ m'.text = m.text ∧
                node.slot.withoutBlanks.recorded? m'.choice = node.slot.recorded? m.choice ∧
                ∀ e, node.slot.recorded? m.choice = some e → words e.spoken ≠ [] := by
  have hspeakable : g.Speakable ↔ ∀ node ∈ g.nodes, node.slot.Offers := by
    rw [speakable_iff_exists_line]
    exact ⟨fun ⟨line, hline⟩ => offers_of_recognize hline,
      fun h => ⟨g.saying, exists_recognize_saying hg h⟩⟩
  refine ⟨hspeakable, ?_, ?_, fun line => ⟨isSome_recognize_withoutBlanks g line,
    fun heard heard' => reported_withoutBlanks⟩⟩
  · intro name edits hchecked hbuild
    rw [hspeakable]
    exact fun node hnode => (hchecked _ _ (Draft.mem_of_build hbuild hnode)).offers
  · have hsilent : (∀ line, g.recognize line = none) ↔ ¬ g.Speakable := by
      rw [speakable_iff_exists_line]
      simp only [← Option.not_isSome_iff_eq_none, not_exists]
    rw [hsilent, hspeakable]
    simp only [not_forall, exists_prop, Slot.not_offers_iff]

/-- A grammar that was built with a choice of blank entries. -/
def silentTea : Grammar :=
  ⟨"tea", [⟨none, .literal "I want"⟩, ⟨some "tea", .choice [⟨" ", .int 1⟩, ⟨"\t", .int 2⟩]⟩]⟩

/-- Requests with checked slots, one of them refused. -/
def checkedOrder : List Draft.Edit :=
  [.append none (.literal "I want"), .append none (.literal " "), .append (some "tea") .dictation]

theorem speakable_iff_tea :
    ambiguousTea.Built ∧ ambiguousTea.Speakable ∧
      (ambiguousTea.withoutBlanks.recognize "light green tea please").isSome = true ∧
      silentTea.Built ∧ (∀ line, silentTea.recognize line = none) ∧
      Grammar.Speakable ⟨"order", [⟨none, .literal "I want"⟩, ⟨some "tea", .dictation⟩]⟩ := by
  have hambiguous : ambiguousTea.Built :=
    built_iff_wellFormed.mpr ⟨by decide, by decide +kernel, by decide +kernel⟩
  have hsilent : silentTea.Built :=
    built_iff_wellFormed.mpr ⟨by decide, by decide +kernel, by decide +kernel⟩
  have horder : Grammar.Built ⟨"order", [⟨none, .literal "I want"⟩, ⟨some "tea", .dictation⟩]⟩ :=
    built_iff_wellFormed.mpr ⟨by decide, by decide +kernel, by decide +kernel⟩
  have hline : (ambiguousTea.recognize "light green tea please").isSome = true := by decide +kernel
  obtain ⟨hspeakable, -, -, hblanks⟩ := speakable_iff ambiguousTea hambiguous
  obtain ⟨-, -, hnever, -⟩ := speakable_iff silentTea hsilent
  obtain ⟨-, hchecked, -⟩ := speakable_iff _ horder
  refine ⟨hambiguous, hspeakable.mpr ?_, (hblanks _).1.mpr hline, hsilent, hnever.mpr ?_,
    hchecked "order" checkedOrder ?_ (by decide +kernel)⟩
  · intro node hnode entries hslot
    simp only [ambiguousTea, List.mem_cons, List.not_mem_nil, or_false] at hnode
    rcases hnode with rfl | rfl | rfl
    · cases hslot
      exact ⟨⟨"Light", .int 1⟩, by decide, by decide +kernel⟩
    · cases hslot
    · cases hslot
  · have hblank : ∀ e ∈ [⟨" ", .int 1⟩, ⟨"\t", .int 2⟩], words (Entry.spoken e) = [] := by
      decide +kernel
    refine ⟨_, List.mem_cons_of_mem _ List.mem_cons_self, _, rfl, fun h => ?_, Or.inr hblank⟩
    obtain ⟨e, he, hwords⟩ := h.offers _ rfl
    exact hwords (hblank e he)
  · intro key slot hmem
    simp only [checkedOrder, List.mem_cons, Draft.Edit.append.injEq, List.not_mem_nil,
      or_false] at hmem
    rcases hmem with ⟨-, rfl⟩ | ⟨-, rfl⟩ | ⟨-, rfl⟩
    · exact .literal _
    · exact .literal _
    · exact .dictation

end Colloquy
