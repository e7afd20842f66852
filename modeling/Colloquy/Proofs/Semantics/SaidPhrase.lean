import Colloquy.Dialog.Turn
import Colloquy.Proofs.Grammar.Choices
import Colloquy.Proofs.Grammar.Composing
import Colloquy.Proofs.Recognition.Saying
import Colloquy.Proofs.Semantics.TypedPhrase

/-!
# What was said

In a grammar of literals and one other slot, that slot takes exactly the words that are said in it
(`cut_eq_of_literals`): the literals take theirs, so nothing is left to choose. Therefore whoever
says such a grammar, in any case and with any spacing, is recognized, and gets the value of what was
said in the one slot and no other value (`value_of_said_phrase`).
-/

namespace Colloquy

open Text Grammar

/-! ## What is said in a slot -/

/-- What comes of saying a text in a slot: the entry that is recorded and the value. -/
inductive Slot.Means (said : String) : Slot → (entry : Option Nat) → (value : Option Value) → Prop
  /-- An accepted choice, said in the spoken form of one of its entries. -/
  | entry {entries : List Entry} {slot : Slot} {i : Nat} {e : Entry}
    (accepted : Slot.ofEntries entries = .ok slot) (he : entries[i]? = some e)
    (same : normalForm said = normalForm e.spoken) : Means said slot (some i) (some e.value)
  | dictation (hwords : words said ≠ []) :
    Means said .dictation none (some (.text (spaced (words said))))
  | wildcard (hwords : words said ≠ []) : Means said .wildcard none none

theorem Slot.Means.saidIn {said : String} {slot : Slot} {entry : Option Nat} {value : Option Value}
    (h : slot.Means said entry value) : loweredWords said ≠ [] ∧ slot.SaidIn (loweredWords said) := by
  have hblank : loweredWords said ≠ [] ↔ words said ≠ [] := not_congr loweredWords_eq_nil_iff
  cases h with
  | @entry entries _ i e accepted he same =>
    obtain ⟨rfl, -, hforms, -⟩ := Slot.ofEntries_eq_ok_iff.mp accepted
    rw [normalForm_eq_iff] at same
    have he := List.mem_of_getElem? he
    refine ⟨?_, e, he, same⟩
    rw [same, ne_eq, loweredWords_eq_nil_iff]
    exact hforms e he
  | dictation hwords => exact ⟨hblank.mpr hwords, trivial⟩
  | wildcard hwords => exact ⟨hblank.mpr hwords, trivial⟩

/-- A report on the words of the text has the entry and the value of the text. -/
theorem Slot.Means.of_reported {said : String} {slot : Slot} {entry : Option Nat}
    {value : Option Value} (h : slot.Means said entry value) {p : Nat} {m : SlotMatch}
    (hm : slot.ReportedAs p (words said) m) : m.choice = entry ∧ slot.value? (some m) = value := by
  have hbrings := value?_of_reported hm fun _ => isWord_of_mem_words
  have hchoice := hm.choice
  cases h with
  | @entry entries _ i e accepted he same =>
    obtain ⟨rfl, -⟩ := Slot.ofEntries_eq_ok_iff.mp accepted
    obtain ⟨j, e', hj, he', hspoken, hvalue⟩ := hbrings
    obtain rfl := Slot.position_of_accepted accepted he he' (same.symm.trans hspoken.symm)
    obtain rfl := Option.some.inj (he.symm.trans he')
    exact ⟨hj, hvalue⟩
  | dictation => exact ⟨by simpa using hchoice, hbrings.2⟩
  | wildcard => exact ⟨by simpa using hchoice, hbrings⟩

/-! ## Literals -/

theorem Grammar.Literals.exists_text {nodes : List Node} {texts : List String}
    (h : Literals nodes texts) {node : Node} (hnode : node ∈ nodes) :
    ∃ text, node.slot = .literal text := by
  have hslot : node.slot ∈ nodes.map (·.slot) := List.mem_map_of_mem hnode
  rw [h] at hslot
  obtain ⟨text, -, htext⟩ := List.mem_map.mp hslot
  exact ⟨text, htext.symm⟩

theorem Grammar.Literals.bringsValue {nodes : List Node} {texts : List String}
    (h : Literals nodes texts) {node : Node} (hnode : node ∈ nodes) :
    node.slot.bringsValue = false := by
  obtain ⟨text, htext⟩ := h.exists_text hnode
  rw [htext]
  rfl

/-- Sound literals are said by their own words. -/
theorem Grammar.Literals.saidIn {nodes : List Node} {texts : List String} (h : Literals nodes texts)
    (hsound : ∀ node ∈ nodes, node.slot.fault? = none) :
    List.Forall₂ (fun node group => group ≠ [] ∧ node.slot.SaidIn group) nodes
      (texts.map loweredWords) := by
  induction nodes generalizing texts with
  | nil =>
    obtain rfl : texts = [] := List.map_eq_nil_iff.mp h.symm
    exact .nil
  | cons node nodes ih =>
    cases texts with
    | nil => cases h
    | cons text texts =>
      obtain ⟨hslot, hrest⟩ := List.cons.inj h
      obtain ⟨hfirst, hsound⟩ := List.forall_mem_cons.mp hsound
      refine .cons ⟨?_, ?_⟩ (ih hrest hsound)
      · rw [ne_eq, loweredWords_eq_nil_iff]
        exact fun hblank => Slot.fault?_eq_none_iff.mp hfirst ⟨text, hslot, hblank⟩
      · dsimp only at hslot
        rw [hslot]
        exact rfl

/-- The texts `said` repeat the others, in any case and with any spacing. -/
def Repeats (said texts : List String) : Prop := said.map normalForm = texts.map normalForm

theorem Repeats.flatMap_eq {said texts : List String} (h : Repeats said texts) :
    said.flatMap loweredWords = texts.flatMap loweredWords := by
  have hwords (ts : List String) : ts.flatMap loweredWords = (ts.map normalForm).flatMap words := by
    simp only [List.flatMap_map, words_normalForm]
  rw [hwords said, h, hwords]

/-! ## Lines between literals -/

section

variable {g : Grammar} {first last : List Node} {key : Option String} {slot : Slot}
  {texts texts' said said' : List String} {phrase line : String}

theorem loweredWords_of_said (hsaid : Repeats said texts) (hsaid' : Repeats said' texts')
    (hline : words line = said.flatMap words ++ (words phrase ++ said'.flatMap words)) :
    loweredWords line =
      texts.flatMap loweredWords ++ (loweredWords phrase ++ texts'.flatMap loweredWords) := by
  rw [← hsaid.flatMap_eq, ← hsaid'.flatMap_eq, loweredWords, hline, List.map_append,
    List.map_append, ← flatMap_loweredWords, ← flatMap_loweredWords, loweredWords]

/-- A line that says the literals, and something that the slot between them allows, is
recognized. -/
theorem exists_recognize_of_literals (hg : g.Built) (hnodes : g.nodes = first ++ ⟨key, slot⟩ :: last)
    (hfirst : Literals first texts) (hlast : Literals last texts')
    (hslot : loweredWords phrase ≠ [] ∧ slot.SaidIn (loweredWords phrase))
    (hline : loweredWords line =
      texts.flatMap loweredWords ++ (loweredWords phrase ++ texts'.flatMap loweredWords)) :
    ∃ heard, g.recognize line = some heard := by
  have hsound := (built_iff_wellFormed.mp hg).slots_sound
  rw [hnodes, List.forall_mem_append, List.forall_mem_cons] at hsound
  have hgroups : List.Forall₂ (fun node group => group ≠ [] ∧ node.slot.SaidIn group) g.nodes
      (texts.map loweredWords ++ loweredWords phrase :: texts'.map loweredWords) := by
    rw [hnodes]
    exact List.rel_append (hfirst.saidIn hsound.1) (.cons hslot (hlast.saidIn hsound.2.2))
  apply exists_recognize_of_groups (by simp [hnodes]) hgroups
  rw [hline, List.flatMap_def, List.flatMap_def, List.flatten_append, List.flatten_cons]

/-- The slot between literals takes the words that are said in it. -/
theorem cut_eq_of_literals (hnodes : g.nodes = first ++ ⟨key, slot⟩ :: last)
    (hfirst : Literals first texts) (hlast : Literals last texts')
    (hsaid : Repeats said texts) (hsaid' : Repeats said' texts')
    (hline : words line = said.flatMap words ++ (words phrase ++ said'.flatMap words))
    {spans : List Span} (d : Derivation (loweredWords line) g.nodes 0 spans) :
    ∃ span, spans[first.length]? = some span ∧ span.cut (words line) = words phrase := by
  rw [hnodes] at d
  obtain ⟨⟨start, stop, choice⟩, hspan, hstart, hstop⟩ := d.between_literals hfirst hlast
  refine ⟨_, hspan, ?_⟩
  rw [← hsaid.flatMap_eq, flatMap_loweredWords, List.length_map] at hstart
  rw [← hsaid'.flatMap_eq, flatMap_loweredWords, List.length_map, length_loweredWords, hline,
    List.length_append, List.length_append] at hstop
  obtain rfl : start = (said.flatMap words).length := hstart
  obtain rfl : stop = (said.flatMap words).length + (words phrase).length := by
    dsimp only at hstop
    omega
  rw [hline, Span.cut_append]

/-- A literal is transcribed in the spelling of the grammar. -/
theorem literal_transcribed {heard : Recognition} (h : g.recognize line = some heard) {p : Nat}
    {node : Node} {text : String} (hnode : g.nodes[p]? = some node)
    (htext : node.slot = .literal text) :
    (heard.slots[p]?).map (·.text) = some (spaced (words text)) := by
  obtain ⟨spans, -, d, rfl⟩ := exists_derivation h
  obtain ⟨span, m, -, hm, -, hreported⟩ := reported_at d hnode
  have hspelling := hreported.spelling
  rw [htext] at hspelling
  rw [hm, Option.map_some]
  exact congrArg some hspelling

theorem texts_of_literals (hliterals : Literals g.nodes texts) {heard : Recognition}
    (h : g.recognize line = some heard) :
    heard.slots.map (·.text) = texts.map fun text => spaced (words text) := by
  apply List.ext_getElem?
  intro p
  have hslot := congrArg (·[p]?) hliterals
  simp only [List.getElem?_map] at hslot ⊢
  cases htext : texts[p]? with
  | none =>
    rw [htext, Option.map_none, Option.map_eq_none_iff, List.getElem?_eq_none_iff] at hslot
    obtain ⟨spans, -, d, rfl⟩ := exists_derivation h
    rw [List.getElem?_eq_none (length_slots d ▸ hslot)]
    rfl
  | some text =>
    rw [htext, Option.map_some, Option.map_eq_some_iff] at hslot
    obtain ⟨node, hnode, hslot⟩ := hslot
    exact literal_transcribed h hnode hslot

end

/-- Saying a phrase of a grammar yields its value. A line that says literals, in any case and with
any spacing, is recognized, transcribed in the spelling of the grammar, and brings no value. If the
grammar has one other slot, and something that it allows is said there, the line is recognized as
well. The literals are transcribed in the spelling of the grammar, and what was said in the slot
brings its value under the key of the slot, however it could be taken apart: of a choice the value
of the entry that was said, which is the recorded one; of a dictation the words that were typed; of
a wildcard nothing. -/
theorem value_of_said_phrase (g : Grammar) (hg : g.Built) :
    (∀ (texts said : List String) (line : String), Literals g.nodes texts → Repeats said texts →
        words line = said.flatMap words →
        ∃ heard, g.recognize line = some heard ∧
          heard.slots.map (·.text) = texts.map (fun text => spaced (words text)) ∧
          heard.text = spaced (texts.map fun text => spaced (words text)) ∧
          (Phrase.ofRecognition g heard).semantics = ⟨[]⟩) ∧
      ∀ (first last : List Node) (key : String) (slot : Slot) (texts texts' said said' : List String)
        (phrase line : String) (entry : Option Nat) (value : Option Value),
        g.nodes = first ++ ⟨some key, slot⟩ :: last → Literals first texts → Literals last texts' →
        Repeats said texts → Repeats said' texts' → slot.Means phrase entry value →
        words line = (said ++ phrase :: said').flatMap words →
        ∃ heard m, g.recognize line = some heard ∧
          (∀ (p : Nat) (node : Node) (text : String), g.nodes[p]? = some node →
            node.slot = .literal text →
            (heard.slots[p]?).map (·.text) = some (spaced (words text))) ∧
          heard.slots[first.length]? = some m ∧ m.choice = entry ∧
          (Phrase.ofRecognition g heard).semantics = ⟨(value.map (key, ·)).toList⟩ := by
  refine ⟨?_, ?_⟩
  · intro texts said line hliterals hsaid hline
    obtain ⟨hne, -, hsound⟩ := built_iff_wellFormed.mp hg
    have hlowered : loweredWords line = (texts.map loweredWords).flatten := by
      rw [← List.flatMap_def, ← hsaid.flatMap_eq, loweredWords, hline, flatMap_loweredWords]
    obtain ⟨heard, hheard⟩ := exists_recognize_of_groups hne (hliterals.saidIn hsound) hlowered
    have htexts := texts_of_literals hliterals hheard
    refine ⟨heard, hheard, htexts, ?_, ?_⟩
    · obtain ⟨spans, -, -, rfl⟩ := exists_derivation hheard
      rw [← htexts]
      rfl
    · exact extract_eq_empty (fun _ => hliterals.bringsValue) _
  · intro first last key slot texts texts' said said' phrase line entry value hnodes hfirst hlast
      hsaid hsaid' hmeans hline
    rw [List.flatMap_append, List.flatMap_cons] at hline
    have hlowered := loweredWords_of_said hsaid hsaid' hline
    obtain ⟨heard, hheard⟩ :=
      exists_recognize_of_literals hg hnodes hfirst hlast hmeans.saidIn hlowered
    obtain ⟨spans, -, d, rfl⟩ := exists_derivation hheard
    obtain ⟨span, hspan, hcut⟩ := cut_eq_of_literals hnodes hfirst hlast hsaid hsaid' hline d
    have hnode : g.nodes[first.length]? = some ⟨some key, slot⟩ := by
      rw [hnodes, List.getElem?_append_right (Nat.le_refl _), Nat.sub_self]
      rfl
    obtain ⟨span', m, hspan', hm, hreport, hreported⟩ := reported_at d hnode
    obtain rfl := Option.some.inj (hspan.symm.trans hspan')
    rw [hcut] at hreported
    obtain ⟨hentry, hvalue⟩ := hmeans.of_reported hreported
    refine ⟨_, m, hheard, fun p node text => literal_transcribed hheard, hm, hentry, ?_⟩
    dsimp only [Phrase.ofRecognition]
    rw [extract_eq_of_split hnodes (fun _ => hfirst.bringsValue) (fun _ => hlast.bringsValue),
      find?_slots_ofSpans (getElem?_patterns hnode) hspan, ← hreport, hvalue]

/-- Entries of which each begins the next one. The last ends like the words behind the choice. -/
def favoriteTeas : List Entry :=
  [⟨"Green", .int 1⟩, ⟨"green tea", .int 2⟩, ⟨"green tea please", .int 3⟩]

def favoriteTea : Grammar :=
  ⟨"tea", [⟨none, .literal "My  favorite"⟩, ⟨some "tea", .choice favoriteTeas⟩,
    ⟨some "end", .literal "tea Please"⟩]⟩

theorem value_of_said_phrase_favoriteTea :
    favoriteTea.Built ∧ Turn.greeting.grammar.Built ∧
      (∃ heard m, favoriteTea.recognize " my FAVORITE green Tea TEA\tplease" = some heard ∧
        (heard.slots[2]?).map (·.text) = some (spaced (words "tea Please")) ∧
        heard.slots[1]? = some m ∧ m.choice = some 1 ∧
        (Phrase.ofRecognition favoriteTea heard).semantics = ⟨[("tea", .int 2)]⟩) ∧
      ∃ heard, Turn.greeting.grammar.recognize "hello  COMPUTER" = some heard ∧
        heard.text = spaced [spaced (words "Hello Computer")] ∧
        (Phrase.ofRecognition Turn.greeting.grammar heard).semantics = ⟨[]⟩ := by
  have htea : favoriteTea.Built :=
    built_iff_wellFormed.mpr ⟨by decide, by decide +kernel, by decide +kernel⟩
  have hgreeting : Turn.greeting.grammar.Built :=
    built_iff_wellFormed.mpr Turn.greeting.wellFormed_grammar
  have hmeans : (Slot.choice favoriteTeas).Means "green Tea" (some 1) (some (.int 2)) := by
    have haccepted : Slot.ofEntries favoriteTeas = .ok (.choice favoriteTeas) :=
      Slot.ofEntries_eq_ok_iff.mpr ⟨rfl, by decide, by decide +kernel, by decide +kernel⟩
    have hsecond : favoriteTeas[1]? = some ⟨"green tea", .int 2⟩ := rfl
    exact .entry haccepted hsecond (by decide +kernel)
  have hfirst : Repeats ["my FAVORITE"] ["My  favorite"] := by
    unfold Repeats
    decide +kernel
  have hlast : Repeats ["TEA please"] ["tea Please"] := by
    unfold Repeats
    decide +kernel
  have hhello : Repeats ["hello COMPUTER"] ["Hello Computer"] := by
    unfold Repeats
    decide +kernel
  obtain ⟨-, hbetween⟩ := value_of_said_phrase favoriteTea htea
  obtain ⟨hliterals, -⟩ := value_of_said_phrase Turn.greeting.grammar hgreeting
  obtain ⟨heard, m, hheard, htexts, hm, hentry, hvalue⟩ :=
    hbetween [⟨none, .literal "My  favorite"⟩] [⟨some "end", .literal "tea Please"⟩] "tea"
      (.choice favoriteTeas) ["My  favorite"] ["tea Please"] _ _ "green Tea"
      " my FAVORITE green Tea TEA\tplease" _ _ rfl rfl rfl hfirst hlast hmeans (by decide +kernel)
  obtain ⟨greeted, hgreeted, -, htext, hmute⟩ :=
    hliterals ["Hello Computer"] _ "hello  COMPUTER" rfl hhello (by decide +kernel)
  exact ⟨htea, hgreeting, ⟨heard, m, hheard, htexts 2 _ _ rfl rfl, hm, hentry, hvalue⟩, greeted,
    hgreeted, htext, hmute⟩

end Colloquy
