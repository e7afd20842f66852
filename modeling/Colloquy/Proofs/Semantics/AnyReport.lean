import Colloquy.Proofs.Grammar.Built
import Colloquy.Proofs.Recognition.Transcript
import Colloquy.Proofs.Semantics.Keys
import Colloquy.Proofs.Semantics.RecordedEntry
import Colloquy.Proofs.Semantics.Selecting

/-!
# Values of any report

An engine may report what it likes: slots that do not exist, entries that do not exist, one slot
many times and another one never. Of all this the first report on a slot counts (`FirstOn`), and of
a choice the entry that it selects. So a report can bring no key that the grammar does not have, no
value that is not among the entries of the choice, and nothing for a literal or a wildcard
(`values_of_any_report`).
-/

namespace Colloquy

open Text

/-! ## What counts of a report -/

/-- Of the reports `found`, `m` is the first one on the slot at position `p`. -/
def SlotMatch.FirstOn (found : List SlotMatch) (p : Nat) (m : SlotMatch) : Prop :=
  m.node = p ∧ ∃ before after, found = before ++ m :: after ∧ ∀ other ∈ before, other.node ≠ p

namespace SlotMatch

theorem firstOn_iff {found : List SlotMatch} {p : Nat} {m : SlotMatch} :
    FirstOn found p m ↔ found.find? (·.node == p) = some m := by
  simp only [FirstOn, List.find?_eq_some_iff_append, beq_iff_eq, Bool.not_eq_true',
    beq_eq_false_iff_ne, ne_eq]

theorem find?_eq_none_iff {found : List SlotMatch} {p : Nat} :
    found.find? (·.node == p) = none ↔ ∀ m ∈ found, m.node ≠ p := by
  simp only [List.find?_eq_none, beq_iff_eq, ne_eq]

end SlotMatch

/-! ## What a slot yields -/

namespace Slot

/-- What the values hold under the key of a slot at position `p`, of which the reports are among
`found`. -/
def Yields (found : List SlotMatch) (p : Nat) (key : String) (values : Semantics) : Slot → Prop
  | .literal _ | .wildcard => key ∉ values.keys
  | .dictation =>
    (∀ m, SlotMatch.FirstOn found p m → values.get? key = some (.text (trimmed m.text))) ∧
      ((∀ m ∈ found, m.node ≠ p) → values.get? key = some (.text ""))
  | .choice entries =>
    (key ∈ values.keys ↔ ∃ m, SlotMatch.FirstOn found p m ∧
        ((∃ i, m.choice = some i ∧ i < entries.length) ∨
          ∃ e ∈ entries, normalForm e.spoken = normalForm m.text)) ∧
      (∀ m e, SlotMatch.FirstOn found p m → m.Selects entries e →
        values.get? key = some e.value) ∧
      ∀ value, values.get? key = some value → ∃ e ∈ entries, value = e.value

theorem value?_choice_iff {entries : List Entry} {found : List SlotMatch} {p : Nat}
    {value : Value} :
    (Slot.choice entries).value? (found.find? (·.node == p)) = some value ↔
      ∃ m e, SlotMatch.FirstOn found p m ∧ m.Selects entries e ∧ value = e.value := by
  simp only [value?, Option.bind_eq_some_iff, SlotMatch.resolveChoice_eq_some_iff,
    ← SlotMatch.firstOn_iff, exists_and_left]

/-- Values in which a slot has its own under its key, and which have no other keys, hold what the slot
yields. -/
theorem yields_of_get? {slot : Slot} {found : List SlotMatch} {p : Nat} {key : String}
    {values : Semantics} (hget : values.get? key = slot.value? (found.find? (·.node == p)))
    (hmem : key ∈ values.keys ↔ ∃ value, values.get? key = some value) :
    slot.Yields found p key values := by
  cases slot with
  | literal | wildcard =>
    rw [Yields, hmem, hget]
    rintro ⟨value, hvalue⟩
    cases hvalue
  | dictation =>
    refine ⟨fun m hm => ?_, fun hno => ?_⟩
    · rw [hget, SlotMatch.firstOn_iff.mp hm]
      rfl
    · rw [hget, SlotMatch.find?_eq_none_iff.mpr hno]
      rfl
  | choice entries =>
    simp only [hget, value?_choice_iff] at hmem
    refine ⟨?_, fun m e hm hselects => ?_, fun value hvalue => ?_⟩
    · rw [hmem]
      constructor
      · rintro ⟨_, m, e, hm, hselects, -⟩
        exact ⟨m, hm, SlotMatch.exists_selects_iff.mp ⟨e, hselects⟩⟩
      · rintro ⟨m, hm, hsays⟩
        obtain ⟨e, hselects⟩ := SlotMatch.exists_selects_iff.mpr hsays
        exact ⟨e.value, m, e, hm, hselects, rfl⟩
    · rw [hget, value?_choice_iff]
      exact ⟨m, e, hm, hselects, rfl⟩
    · rw [hget, value?_choice_iff] at hvalue
      obtain ⟨m, e, -, hselects, rfl⟩ := hvalue
      exact ⟨e, hselects.mem, rfl⟩

end Slot

/-! ## The values as a whole -/

/-- The values that any report brings. Their keys are some of those of the grammar, in its order and
each once. A literal or a wildcard brings none. A dictation brings the text that was reported first
on it, without the blanks at its ends, and no text if there is no report on it. A choice brings a
value iff the first report on it points to an entry or says one; it is that of the entry that the
report selects, so always one of the choice. Nothing else counts: reports of which the first ones on
each choice and each dictation with a key are the same bring the same values. -/
theorem values_of_any_report (g : Grammar) (hg : g.Built) :
    (∀ found : List SlotMatch,
        (g.extract found).keys.Sublist g.keys ∧ (g.extract found).keys.Nodup ∧
          ∀ (p : Nat) (node : Node) (key : String), g.nodes[p]? = some node →
            node.key = some key → node.slot.Yields found p key (g.extract found)) ∧
      ∀ found found' : List SlotMatch,
        (∀ (p : Nat) (node : Node) (key : String), g.nodes[p]? = some node → node.key = some key →
          node.slot.bringsValue = true →
          ∀ m, SlotMatch.FirstOn found p m ↔ SlotMatch.FirstOn found' p m) →
        g.extract found = g.extract found' := by
  have hunique := (Grammar.built_iff_wellFormed.mp hg).nodup_keys
  refine ⟨fun found => ?_, fun found found' hsame => ?_⟩
  · have hsublist := Grammar.keys_extract_sublist g found
    have hkeys := hunique.sublist hsublist
    refine ⟨hsublist, hkeys, fun p node key hnode hkey => ?_⟩
    exact Slot.yields_of_get? (Grammar.get?_extract hunique hnode hkey)
      (Semantics.mem_keys_iff hkeys)
  · apply extract_congr_of_keys
    intro p node key hnode hkey
    cases hbrings : node.slot.bringsValue with
    | false => rw [Slot.value?_eq_none hbrings, Slot.value?_eq_none hbrings]
    | true =>
      have hfirst : found.find? (·.node == p) = found'.find? (·.node == p) := by
        apply Option.ext
        intro m
        rw [← SlotMatch.firstOn_iff, ← SlotMatch.firstOn_iff]
        exact hsame p node key hnode hkey hbrings m
      rw [hfirst]

/-- A report that points to an entry that does not exist, speaks of slots that do not exist, and has
more to say on a slot than once. -/
def tangledReport : List SlotMatch :=
  [⟨9, "nothing", some 0⟩, ⟨1, " GREEN  tea", some 7⟩, ⟨3, "\tKai  Lee ", some 2⟩,
    ⟨1, "Green", some 0⟩, ⟨3, "Mara", none⟩, ⟨2, "please", none⟩]

/-- What counts of it. -/
def untangledReport : List SlotMatch := [⟨3, "\tKai  Lee ", some 2⟩, ⟨1, " GREEN  tea", some 7⟩]

theorem values_of_any_report_tangled :
    orderTea.Built ∧ (orderTea.extract tangledReport).get? "tea" = some (.int 2) ∧
      (orderTea.extract tangledReport).get? "name" = some (.text "Kai  Lee") ∧
      "rest" ∉ (orderTea.extract tangledReport).keys ∧
      orderTea.extract tangledReport = orderTea.extract untangledReport := by
  have hbuilt : orderTea.Built :=
    Grammar.built_iff_wellFormed.mpr ⟨by decide, by decide +kernel, by decide +kernel⟩
  obtain ⟨hyields, hcongr⟩ := values_of_any_report orderTea hbuilt
  obtain ⟨-, -, hyields⟩ := hyields tangledReport
  have hfirst (m : SlotMatch) : SlotMatch.FirstOn tangledReport 1 m ↔
      SlotMatch.FirstOn untangledReport 1 m := by
    rw [SlotMatch.firstOn_iff, SlotMatch.firstOn_iff]
    rfl
  have hfirst' (m : SlotMatch) : SlotMatch.FirstOn tangledReport 3 m ↔
      SlotMatch.FirstOn untangledReport 3 m := by
    rw [SlotMatch.firstOn_iff, SlotMatch.firstOn_iff]
    rfl
  have htea : SlotMatch.FirstOn tangledReport 1 ⟨1, " GREEN  tea", some 7⟩ :=
    SlotMatch.firstOn_iff.mpr rfl
  have hname : SlotMatch.FirstOn tangledReport 3 ⟨3, "\tKai  Lee ", some 2⟩ :=
    SlotMatch.firstOn_iff.mpr rfl
  -- The position is out of range, so the text decides, which the first entry does not say.
  have hselects : SlotMatch.Selects ⟨1, " GREEN  tea", some 7⟩
      [⟨"Green", .int 1⟩, ⟨"green  TEA", .int 2⟩] ⟨"green  TEA", .int 2⟩ := by
    have hsplit : [⟨"Green", .int 1⟩, ⟨"green  TEA", .int 2⟩] =
        [⟨"Green", .int 1⟩] ++ (⟨"green  TEA", .int 2⟩ : Entry) :: [] := rfl
    refine .text ?_ hsplit (by decide +kernel) (List.forall_mem_singleton.mpr (by decide +kernel))
    rintro _ ⟨⟩
    decide
  obtain ⟨-, hchoice, -⟩ := hyields 1 _ "tea" rfl rfl
  obtain ⟨hdictation, -⟩ := hyields 3 _ "name" rfl rfl
  have hgreen := hchoice _ _ htea hselects
  have hkai := hdictation _ hname
  have htrimmed : trimmed "\tKai  Lee " = "Kai  Lee" := by decide +kernel
  rw [htrimmed] at hkai
  refine ⟨hbuilt, hgreen, hkai, hyields 2 _ "rest" rfl rfl, ?_⟩
  apply hcongr
  rintro (_ | _ | _ | _ | p) node key hnode hkey hbrings
  · cases hnode
    cases hkey
  · exact hfirst
  · cases hnode
    cases hbrings
  · exact hfirst'
  · cases hnode

end Colloquy
