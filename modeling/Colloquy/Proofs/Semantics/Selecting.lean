import Colloquy.Semantics.Extract

/-!
# Selected entries

A report on a choice selects one of its entries (`Selects`): the one it points to, or the first one
it says. The choice stands for the value of that entry (`resolveChoice_eq_some_iff`). A report
selects an entry if there is one it points to or says (`exists_selects_iff`).
-/

namespace Colloquy

open Text

/-- Of the entries, the report selects `e`: it points to it, or else it points to none and `e` is the
first that is spoken like the reported text. -/
inductive SlotMatch.Selects (m : SlotMatch) (entries : List Entry) (e : Entry) : Prop
  | position {i : Nat} (hchoice : m.choice = some i) (he : entries[i]? = some e)
  | text {before after : List Entry} (hout : ∀ i, m.choice = some i → entries.length ≤ i)
    (hsplit : entries = before ++ e :: after) (hsame : normalForm e.spoken = normalForm m.text)
    (hfirst : ∀ other ∈ before, normalForm other.spoken ≠ normalForm m.text)

namespace SlotMatch

variable {m : SlotMatch} {entries : List Entry}

theorem bind_choice_eq_none_iff :
    m.choice.bind (entries[·]?) = none ↔ ∀ i, m.choice = some i → entries.length ≤ i := by
  simp only [Option.bind_eq_none_iff, List.getElem?_eq_none_iff]

theorem find?_accepts_iff {e : Entry} {text : String} :
    entries.find? (·.accepts text) = some e ↔
      normalForm e.spoken = normalForm text ∧ ∃ before after, entries = before ++ e :: after ∧
        ∀ other ∈ before, normalForm other.spoken ≠ normalForm text := by
  simp only [List.find?_eq_some_iff_append, Entry.accepts, beq_iff_eq, Bool.not_eq_true',
    beq_eq_false_iff_ne, ne_eq]

/-- A choice stands for the value of the entry that the report selects. -/
theorem resolveChoice_eq_some_iff {value : Value} :
    resolveChoice entries m = some value ↔ ∃ e, m.Selects entries e ∧ value = e.value := by
  unfold resolveChoice
  cases hpointed : m.choice.bind (entries[·]?) with
  | some pointed =>
    obtain ⟨i, hi, hpointed⟩ := Option.bind_eq_some_iff.mp hpointed
    simp only [Option.some.injEq]
    constructor
    · rintro rfl
      exact ⟨pointed, .position hi hpointed, rfl⟩
    · rintro ⟨e, hselects, rfl⟩
      cases hselects with
      | position hj he =>
        obtain rfl := Option.some.inj (hi.symm.trans hj)
        rw [Option.some.inj (hpointed.symm.trans he)]
      | text hout =>
        rw [List.getElem?_eq_none (hout i hi)] at hpointed
        cases hpointed
  | none =>
    have hout := bind_choice_eq_none_iff.mp hpointed
    rw [Option.map_eq_some_iff]
    constructor
    · rintro ⟨e, hfind, rfl⟩
      obtain ⟨hsame, before, after, hsplit, hfirst⟩ := find?_accepts_iff.mp hfind
      exact ⟨e, .text hout hsplit hsame hfirst, rfl⟩
    · rintro ⟨e, hselects, rfl⟩
      cases hselects with
      | position hi he =>
        rw [List.getElem?_eq_none (hout _ hi)] at he
        cases he
      | @text before after _ hsplit hsame hfirst =>
        exact ⟨e, find?_accepts_iff.mpr ⟨hsame, before, after, hsplit, hfirst⟩, rfl⟩

theorem Selects.mem {e : Entry} (h : m.Selects entries e) : e ∈ entries := by
  cases h with
  | position _ he => exact List.mem_of_getElem? he
  | text _ hsplit =>
    rw [hsplit]
    exact List.mem_append_right _ List.mem_cons_self

/-- A report selects an entry if it points to one or says one. -/
theorem exists_selects_iff :
    (∃ e, m.Selects entries e) ↔
      (∃ i, m.choice = some i ∧ i < entries.length) ∨
        ∃ e ∈ entries, normalForm e.spoken = normalForm m.text := by
  constructor
  · rintro ⟨e, hselects⟩
    cases hselects with
    | position hi he => exact Or.inl ⟨_, hi, (List.getElem?_eq_some_iff.mp he).1⟩
    | text hout hsplit hsame =>
      rw [hsplit]
      exact Or.inr ⟨e, List.mem_append_right _ List.mem_cons_self, hsame⟩
  · intro h
    by_cases hpoints : ∃ i, m.choice = some i ∧ i < entries.length
    · obtain ⟨i, hi, hlt⟩ := hpoints
      exact ⟨entries[i], .position hi (List.getElem?_eq_getElem hlt)⟩
    · obtain ⟨e, he, hsame⟩ := h.resolve_left hpoints
      have hsome : (entries.find? (·.accepts m.text)).isSome = true :=
        List.find?_isSome.mpr ⟨e, he, beq_iff_eq.mpr hsame⟩
      obtain ⟨first, hfirst⟩ := Option.isSome_iff_exists.mp hsome
      obtain ⟨hsame, before, after, hsplit, hnot⟩ := find?_accepts_iff.mp hfirst
      refine ⟨first, .text (fun i hi => ?_) hsplit hsame hnot⟩
      exact Nat.le_of_not_lt fun hlt => hpoints ⟨i, hi, hlt⟩

end SlotMatch

end Colloquy
