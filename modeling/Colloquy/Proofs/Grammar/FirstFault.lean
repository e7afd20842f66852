import Colloquy.Proofs.Grammar.Choices
import Mathlib.Order.Nat

/-!
# The first fault of a choice

An entry is at fault when it has no words or is said like one before it. The scan over a row of
entries goes on, behind any row without a fault, with the normal forms of that row as those met
(`entryFault?_append`). So it stops at the least position that is at fault
(`entryFault?_of_isLeast`), whatever faults come later, and reports blank words before repeated ones
(`ofEntries_outcome`).
-/

namespace Colloquy

open Text

namespace Slot

/-! ## Positions at fault -/

/-- The entry at position `i` has no words, or is said in the words of an entry before it. -/
def FaultAt (entries : List Entry) (i : Nat) : Prop :=
  ∃ e, entries[i]? = some e ∧
    (words e.spoken = [] ∨
      ∃ j e', j < i ∧ entries[j]? = some e' ∧ normalForm e'.spoken = normalForm e.spoken)

/-- The first entries of a row are at fault where the row is. -/
theorem FaultAt.of_take {entries : List Entry} {n i : Nat} (h : FaultAt (entries.take n) i) :
    i < n ∧ FaultAt entries i := by
  obtain ⟨e, he, hfault⟩ := h
  have hi : i < n := by
    have hlen := (List.getElem?_eq_some_iff.mp he).1
    rw [List.length_take] at hlen
    omega
  rw [List.getElem?_take_of_lt hi] at he
  refine ⟨hi, e, he, hfault.imp_right ?_⟩
  rintro ⟨j, e', hj, he', hsame⟩
  rw [List.getElem?_take_of_lt (hj.trans hi)] at he'
  exact ⟨j, e', hj, he', hsame⟩

/-- Normal forms are told apart iff none of them is that of an earlier entry. -/
theorem nodup_iff_not_repeated {entries : List Entry} :
    (entries.map fun e => normalForm e.spoken).Nodup ↔
      ∀ (i : Nat) (e : Entry) (j : Nat) (e' : Entry), entries[i]? = some e → j < i →
        entries[j]? = some e' → normalForm e'.spoken ≠ normalForm e.spoken := by
  rw [List.nodup_iff_getElem?_ne_getElem?]
  constructor
  · intro h i e j e' he hj he' hsame
    have hi := (List.getElem?_eq_some_iff.mp he).1
    apply h j i hj (by rwa [List.length_map])
    rw [List.getElem?_map, List.getElem?_map, he, he', Option.map_some, Option.map_some, hsame]
  · intro h j i hj hi hsame
    rw [List.length_map] at hi
    have he := List.getElem?_eq_getElem hi
    have he' := List.getElem?_eq_getElem (hj.trans hi)
    rw [List.getElem?_map, List.getElem?_map, he, he', Option.map_some, Option.map_some,
      Option.some.injEq] at hsame
    exact h i _ j _ he hj he' hsame

/-- The scan finds nothing iff no position is at fault. -/
theorem entryFault?_eq_none_iff_forall {entries : List Entry} :
    entryFault? [] entries = none ↔ ∀ i, ¬ FaultAt entries i := by
  rw [entryFault?_eq_none_iff, nodup_iff_not_repeated]
  constructor
  · rintro ⟨hforms, hnew⟩ i ⟨e, he, hblank | ⟨j, e', hj, he', hsame⟩⟩
    · exact (hforms e (List.mem_of_getElem? he)).1 (normalForm_eq_empty_iff.mpr hblank)
    · exact hnew i e j e' he hj he' hsame
  · intro h
    constructor
    · intro e hmem
      obtain ⟨i, he⟩ := List.mem_iff_getElem?.mp hmem
      refine ⟨fun hform => ?_, List.not_mem_nil⟩
      exact h i ⟨e, he, Or.inl (normalForm_eq_empty_iff.mp hform)⟩
    · intro i e j e' he hj he' hsame
      exact h i ⟨e, he, Or.inr ⟨j, e', hj, he', hsame⟩⟩

/-! ## The scan -/

/-- Behind entries without a fault, the scan goes on with their normal forms as met. -/
theorem entryFault?_append (met : List String) (earlier later : List Entry) :
    entryFault? met (earlier ++ later) =
      (entryFault? met earlier).or
        (entryFault? ((earlier.map fun e => normalForm e.spoken).reverse ++ met) later) := by
  induction earlier generalizing met with
  | nil => rfl
  | cons e earlier ih =>
    rw [List.cons_append, entryFault?, entryFault?]
    by_cases hblank : normalForm e.spoken = ""
    · simp only [hblank, if_true, Option.some_or]
    by_cases hmet : normalForm e.spoken ∈ met
    · simp only [hblank, hmet, if_true, if_false, Option.some_or]
    simp only [hblank, hmet, if_false]
    rw [ih, List.map_cons, List.reverse_cons, List.append_assoc, List.singleton_append]

/-- An entry behind a row without a fault is checked for words first, and then held against the
row. -/
theorem entryFault?_behind {earlier : List Entry} (h : entryFault? [] earlier = none) (e : Entry)
    (later : List Entry) :
    entryFault? [] (earlier ++ e :: later) =
      if words e.spoken = [] then some .emptyLiteral
      else if normalForm e.spoken ∈ earlier.map fun e => normalForm e.spoken then
        some (.duplicateSpokenForm e.spoken)
      else entryFault? (normalForm e.spoken :: (earlier.map fun e => normalForm e.spoken).reverse)
        later := by
  rw [entryFault?_append, h, Option.none_or, entryFault?, List.append_nil]
  simp only [normalForm_eq_empty_iff, List.mem_reverse]

/-- The scan stops at the least position that is at fault. -/
theorem entryFault?_of_isLeast {entries : List Entry} {i : Nat} {e : Entry}
    (he : entries[i]? = some e) (h : IsLeast {p | FaultAt entries p} i) :
    entryFault? [] entries =
      some (if words e.spoken = [] then .emptyLiteral else .duplicateSpokenForm e.spoken) := by
  have hearlier : entryFault? [] (entries.take i) = none := by
    rw [entryFault?_eq_none_iff_forall]
    intro j hj
    obtain ⟨hlt, hfault⟩ := hj.of_take
    exact absurd (h.2 hfault) (Nat.not_le_of_lt hlt)
  have hfault : words e.spoken = [] ∨
      normalForm e.spoken ∈ (entries.take i).map fun e => normalForm e.spoken := by
    obtain ⟨f, hf, hfault⟩ := h.1
    obtain rfl := Option.some.inj (he.symm.trans hf)
    refine hfault.imp_right ?_
    rintro ⟨j, e', hj, he', hsame⟩
    rw [← List.getElem?_take_of_lt hj] at he'
    exact hsame ▸ List.mem_map_of_mem (List.mem_of_getElem? he')
  obtain ⟨hi, rfl⟩ := List.getElem?_eq_some_iff.mp he
  have hsplit : entries.take i ++ entries[i] :: entries.drop (i + 1) = entries := by
    rw [List.getElem_cons_drop, List.take_append_drop]
  have hscan := entryFault?_behind hearlier entries[i] (entries.drop (i + 1))
  rw [hsplit] at hscan
  rw [hscan]
  split
  · rfl
  · next hwords => rw [if_pos (hfault.resolve_left hwords)]

theorem entryFault?_eq_some_iff {entries : List Entry} {fault : Grammar.Fault} :
    entryFault? [] entries = some fault ↔
      ∃ i e, entries[i]? = some e ∧ IsLeast {p | FaultAt entries p} i ∧
        fault = if words e.spoken = [] then .emptyLiteral else .duplicateSpokenForm e.spoken := by
  constructor
  · intro h
    have hsome : ∃ i, FaultAt entries i := by
      by_contra hnone
      rw [entryFault?_eq_none_iff_forall.mpr (not_exists.mp hnone)] at h
      cases h
    classical
    have hleast := Nat.isLeast_find hsome
    obtain ⟨e, he, -⟩ := hleast.1
    refine ⟨_, e, he, hleast, ?_⟩
    rw [entryFault?_of_isLeast he hleast, Option.some.injEq] at h
    exact h.symm
  · rintro ⟨i, e, he, hleast, rfl⟩
    exact entryFault?_of_isLeast he hleast

/-! ## Choices of entries -/

theorem ofEntries_eq_error_iff {entries : List Entry} (hne : entries ≠ []) {fault : Grammar.Fault} :
    ofEntries entries = .error fault ↔ entryFault? [] entries = some fault := by
  obtain ⟨e, rest, rfl⟩ := List.exists_cons_of_ne_nil hne
  unfold ofEntries
  cases entryFault? [] (e :: rest) <;> simp

theorem ofEntries_eq_emptyChoice_iff {entries : List Entry} :
    ofEntries entries = .error .emptyChoice ↔ entries = [] := by
  constructor
  · intro h
    by_contra hne
    rw [ofEntries_eq_error_iff hne, entryFault?_eq_some_iff] at h
    obtain ⟨i, e, -, -, hfault⟩ := h
    split at hfault <;> cases hfault
  · rintro rfl
    rfl

/-- An entry is refused as a repetition behind accepted ones iff it is said like one of them. -/
theorem ofEntries_concat_eq_duplicate_iff {entries : List Entry} {slot : Slot}
    (h : ofEntries entries = .ok slot) {e : Entry} (hwords : words e.spoken ≠ []) :
    ofEntries (entries ++ [e]) = .error (.duplicateSpokenForm e.spoken) ↔
      ∃ e' ∈ entries, normalForm e'.spoken = normalForm e.spoken := by
  obtain ⟨-, -, hforms, hnodup⟩ := ofEntries_eq_ok_iff.mp h
  have hsound : entryFault? [] entries = none := entryFault?_eq_none_iff.mpr
    ⟨fun e he => ⟨normalForm_eq_empty_iff.not.mpr (hforms e he), List.not_mem_nil⟩, hnodup⟩
  have hne : entries ++ [e] ≠ [] := List.concat_ne_nil _ _
  have hmem : normalForm e.spoken ∈ entries.map (fun e => normalForm e.spoken) ↔ _ := List.mem_map
  rw [ofEntries_eq_error_iff hne, entryFault?_behind hsound, if_neg hwords, ← hmem]
  split
  · next hrepeated => simp only [hrepeated]
  · next hnew => simp only [entryFault?, hnew, reduceCtorEq]

/-- A row of entries is accepted, as it is, iff there are entries, all with words and no two with
the same normal form. A refusal names what is wrong first: that there are no entries, or else the
fault at the least position that has one. Of an accepted row no two entries are said by one text. A
row of spoken forms is a row of entries that stand for themselves. -/
theorem ofEntries_outcome (entries : List Entry) :
    (∀ slot, ofEntries entries = .ok slot ↔
        slot = .choice entries ∧ entries ≠ [] ∧ (∀ e ∈ entries, words e.spoken ≠ []) ∧
          (entries.map fun e => normalForm e.spoken).Nodup) ∧
      (ofEntries entries = .error .emptyChoice ↔ entries = []) ∧
      (entries ≠ [] → ∀ fault, ofEntries entries = .error fault ↔
        ∃ i e, entries[i]? = some e ∧ IsLeast {p | FaultAt entries p} i ∧
          fault = if words e.spoken = [] then .emptyLiteral
            else .duplicateSpokenForm e.spoken) ∧
      (∀ slot, ofEntries entries = .ok slot →
        ∀ (text : String) (i j : Nat) (e e' : Entry), entries[i]? = some e →
          entries[j]? = some e' → e.accepts text = true → e'.accepts text = true → i = j) ∧
      ∀ forms, ofWords forms = ofEntries (forms.map fun form => ⟨form, .text form⟩) := by
  refine ⟨fun slot => ofEntries_eq_ok_iff, ofEntries_eq_emptyChoice_iff, ?_, ?_, fun _ => rfl⟩
  · intro hne fault
    rw [ofEntries_eq_error_iff hne, entryFault?_eq_some_iff]
  · intro slot h text i j e e' he he' hsays hsays'
    have hsame : normalForm e.spoken = normalForm e'.spoken :=
      (beq_iff_eq.mp hsays).trans (beq_iff_eq.mp hsays').symm
    exact position_of_accepted h he he' hsame

/-- A row with two faults: the third entry repeats the first one, and the fourth is blank. -/
def shades : List Entry :=
  [⟨"Red", .int 1⟩, ⟨"light  green", .int 2⟩, ⟨"red ", .int 3⟩, ⟨" ", .int 4⟩]

theorem ofEntries_outcome_shades :
    ofEntries shades = .error (.duplicateSpokenForm "red ") ∧ IsLeast {p | FaultAt shades p} 2 ∧
      ofEntries (shades.take 2) = .ok (.choice (shades.take 2)) ∧
      ∀ (i j : Nat) (e e' : Entry), (shades.take 2)[i]? = some e → (shades.take 2)[j]? = some e' →
        e.accepts "LIGHT green" = true → e'.accepts "LIGHT green" = true → i = j := by
  have hrefused : ofEntries shades = .error (.duplicateSpokenForm "red ") := by decide +kernel
  have haccepted : ofEntries (shades.take 2) = .ok (.choice (shades.take 2)) := by decide +kernel
  obtain ⟨-, -, hfirst, -⟩ := ofEntries_outcome shades
  obtain ⟨-, -, -, hunique, -⟩ := ofEntries_outcome (shades.take 2)
  refine ⟨hrefused, ?_, haccepted, hunique _ haccepted "LIGHT green"⟩
  obtain ⟨i, e, he, hleast, hfault⟩ := (hfirst (List.cons_ne_nil _ _) _).mp hrefused
  have hspoken : e.spoken = "red " := by
    split at hfault
    · cases hfault
    · exact (Grammar.Fault.duplicateSpokenForm.inj hfault).symm
  have hplace : ∀ i < 4, (shades[i]?.map fun e => e.spoken) = some "red " → i = 2 := by decide
  obtain rfl : i = 2 :=
    hplace i (List.getElem?_eq_some_iff.mp he).1 (by rw [he, Option.map_some, hspoken])
  exact hleast

end Slot

end Colloquy
