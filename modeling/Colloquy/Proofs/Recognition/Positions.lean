import Colloquy.Proofs.Recognition.Transcript

/-!
# Searching by position

The search hands on the words that are left. Here it is carried out by position instead: patterns
and words stay as they are, each step reads them from a position on, and a read out of range is told
apart from a search that finds nothing. What a pattern takes ends within the utterance
(`exists_taken_of_mem_takes`), so from the beginning no step comes to a position out of range
(`Reaches.in_range`), and the search by position finds what the search finds (`searchAt_eq`). The
report reads nothing out of range either (`search_in_range`).
-/

namespace Colloquy

open Text Grammar

/-- A read out of range. -/
inductive Overrun
  /-- The words from a position behind the end on. -/
  | words (pos : Nat)
  /-- The words of a span that does not lie in the utterance. -/
  | span (span : Span)
  /-- A pattern that the grammar does not have. -/
  | pattern (node : Nat)
  /-- An entry that a choice does not have. -/
  | entry (choice : Option Nat)
  deriving DecidableEq, Repr

/-! ## The search -/

namespace Pattern

/-- The words from position `pos` on. -/
def wordsFrom (heard : List String) (pos : Nat) : Except Overrun (List String) :=
  if pos ≤ heard.length then .ok (heard.drop pos) else .error (.words pos)

/-- The spans that a pattern may take from position `pos` on, in the order of `takes`. -/
def spansAt (heard : List String) (pos : Nat) : Pattern → Except Overrun (List Span)
  | .fixed w => (wordsFrom heard pos).map fun rest =>
    (w.after? rest).toList.map fun _ => ⟨pos, pos + w.words.length, none⟩
  | .oneOf options => (wordsFrom heard pos).map fun rest =>
    options.zipIdx.filterMap fun (w, i) =>
      (w.after? rest).map fun _ => ⟨pos, pos + w.words.length, some i⟩
  | .free => .ok ((List.range' (pos + 1) (heard.length - pos)).map fun stop => ⟨pos, stop, none⟩)

/-- The search for the patterns from position `node` on in the words from position `pos` on. -/
def searchAt (patterns : List Pattern) (heard : List String) (node pos : Nat) :
    Except Overrun (Option (List Span)) :=
  match h : patterns[node]? with
  | none => .ok (if pos = heard.length then some [] else none)
  | some p => do
    let spans ← p.spansAt heard pos
    spans.findSomeM? fun span => do
      let later ← searchAt patterns heard (node + 1) span.stop
      return later.map (span :: ·)
termination_by patterns.length - node
decreasing_by
  have hnode := (List.getElem?_eq_some_iff.mp h).1
  omega

/-- The search from the beginning may come to the patterns from position `node` on and the words
from position `pos` on. That a span before led on, so that this one is not tried, is left aside. -/
inductive Reaches (patterns : List Pattern) (heard : List String) : Nat → Nat → Prop
  | start : Reaches patterns heard 0 0
  | next {node pos : Nat} {p : Pattern} {spans : List Span} {span : Span}
      (earlier : Reaches patterns heard node pos) (hp : patterns[node]? = some p)
      (hspans : p.spansAt heard pos = .ok spans) (hspan : span ∈ spans) :
      Reaches patterns heard (node + 1) span.stop

variable {patterns : List Pattern} {heard : List String} {node pos : Nat}

theorem searchAt_of_none (h : patterns[node]? = none) :
    searchAt patterns heard node pos = .ok (if pos = heard.length then some [] else none) := by
  rw [searchAt]
  split
  · rfl
  · next hp => rw [h] at hp; cases hp

theorem searchAt_of_some {p : Pattern} (h : patterns[node]? = some p) :
    searchAt patterns heard node pos = (do
      let spans ← p.spansAt heard pos
      spans.findSomeM? fun span => do
        let later ← searchAt patterns heard (node + 1) span.stop
        return later.map (span :: ·)) := by
  rw [searchAt]
  split
  · next hp => rw [h] at hp; cases hp
  · next hp =>
    rw [h] at hp
    cases hp
    rfl

/-! ## What is read -/

theorem map_fst_longer (start stop : Nat) (heard : List String) :
    (longer start stop heard).map Prod.fst =
      (List.range' (stop + 1) heard.length).map fun stop => ⟨start, stop, none⟩ := by
  induction heard generalizing stop with
  | nil => rfl
  | cons word heard ih => rw [longer, List.map_cons, ih, List.length_cons, List.range'_succ]; rfl

/-- From a position in range, a pattern reads nothing out of range. -/
theorem spansAt_eq (p : Pattern) (hpos : pos ≤ heard.length) :
    p.spansAt heard pos = .ok ((p.takes pos (heard.drop pos)).map Prod.fst) := by
  have hread : wordsFrom heard pos = .ok (heard.drop pos) := if_pos hpos
  cases p with
  | fixed w =>
    rw [spansAt, hread, takes, List.map_map]
    rfl
  | oneOf options =>
    rw [spansAt, hread, takes, List.map_filterMap]
    simp only [Option.map_map]
    rfl
  | free => rw [spansAt, takes, map_fst_longer, List.length_drop]

/-- What a pattern takes from a position in range ends at a position in range. -/
theorem mem_takes_drop {p : Pattern} {span : Span} {behind : List String}
    (hpos : pos ≤ heard.length) (h : (span, behind) ∈ p.takes pos (heard.drop pos)) :
    span.stop ≤ heard.length ∧ behind = heard.drop span.stop := by
  obtain ⟨taken, hheard, -, hstop⟩ := exists_taken_of_mem_takes h
  have hlen := congrArg List.length hheard
  rw [List.length_drop, List.length_append] at hlen
  refine ⟨by omega, ?_⟩
  rw [hstop, ← List.drop_drop, hheard, List.drop_left]

/-- No step comes to a position out of range. -/
theorem Reaches.in_range (h : Reaches patterns heard node pos) :
    node ≤ patterns.length ∧ pos ≤ heard.length := by
  induction h with
  | start => exact ⟨Nat.zero_le _, Nat.zero_le _⟩
  | @next node pos p spans span _ hp hspans hspan ih =>
    rw [spansAt_eq p ih.2, Except.ok.injEq] at hspans
    rw [← hspans, List.mem_map] at hspan
    obtain ⟨⟨_, behind⟩, htakes, rfl⟩ := hspan
    exact ⟨(List.getElem?_eq_some_iff.mp hp).1, (mem_takes_drop ih.2 htakes).1⟩

/-! ## What is found -/

theorem findSomeM?_map_eq_ok {α β γ ε : Type} {xs : List α} {f : α → β}
    {g : β → Except ε (Option γ)} {g' : α → Option γ} (h : ∀ x ∈ xs, g (f x) = .ok (g' x)) :
    (xs.map f).findSomeM? g = .ok (xs.findSome? g') := by
  induction xs with
  | nil => rfl
  | cons x xs ih =>
    obtain ⟨hx, hrest⟩ := List.forall_mem_cons.mp h
    rw [List.map_cons, List.findSomeM?, hx, List.findSome?_cons]
    cases hfound : g' x with
    | none => exact ih hrest
    | some => rfl

/-- From positions in range, the search by position reads nothing out of range and finds what the
search finds. -/
theorem searchAt_eq (hpos : pos ≤ heard.length) :
    searchAt patterns heard node pos =
      .ok (search (patterns.drop node) pos (heard.drop pos)) := by
  induction hleft : patterns.length - node generalizing node pos with
  | zero =>
    have hnone : patterns[node]? = none := List.getElem?_eq_none (by omega)
    rw [searchAt_of_none hnone, List.drop_of_length_le (by omega)]
    split
    · next heq => rw [heq, List.drop_length, search]
    · next hlt =>
      rw [List.drop_eq_getElem_cons (by omega), search]
  | succ left ih =>
    have hnode : node < patterns.length := by omega
    rw [searchAt_of_some (List.getElem?_eq_getElem hnode), spansAt_eq _ hpos,
      List.drop_eq_getElem_cons hnode, search]
    apply findSomeM?_map_eq_ok
    rintro ⟨span, behind⟩ htakes
    obtain ⟨hstop, rfl⟩ := mem_takes_drop hpos htakes
    rw [ih hstop (by omega)]
    rfl

end Pattern

/-! ## The report -/

/-- The words in the span. -/
def Span.cutAt (typed : List String) (span : Span) : Except Overrun (List String) :=
  if span.start ≤ span.stop ∧ span.stop ≤ typed.length then .ok (span.cut typed)
  else .error (.span span)

/-- The text of a span in a transcript, where a choice must record an entry that it has. -/
def Pattern.transcribeAt (typed : List String) (p : Pattern) (span : Span) :
    Except Overrun String :=
  match p with
  | .fixed w => .ok w.spelling
  | .oneOf options =>
    match span.choice.bind (options[·]?) with
    | some w => .ok w.spelling
    | none => .error (.entry span.choice)
  | .free => (span.cutAt typed).map spaced

/-- The reports on the slots, each on the span and the pattern at its position. -/
def slotsAt (typed : List String) (patterns : List Pattern) (spans : List Span) :
    Except Overrun (List SlotMatch) :=
  spans.zipIdx.mapM fun (span, node) =>
    match patterns[node]? with
    | some p => (p.transcribeAt typed span).map fun text => ⟨node, text, span.choice⟩
    | none => .error (.pattern node)

theorem Slot.SaidBy.transcribeAt_eq {heard typed : List String} {span : Span} {slot : Slot}
    (h : slot.SaidBy heard span) (hlt : span.start < span.stop) (hle : span.stop ≤ typed.length) :
    slot.pattern.transcribeAt typed span = .ok (slot.pattern.transcribe typed span) := by
  cases slot with
  | literal text => rfl
  | choice entries =>
    obtain ⟨i, e, hi, he, -⟩ := h
    have hoption : span.choice.bind ((entries.map fun e => Wording.ofText e.spoken)[·]?) =
        some (.ofText e.spoken) := by
      rw [hi, Option.bind_some, List.getElem?_map, he, Option.map_some]
    simp only [Slot.pattern, Pattern.transcribeAt, Pattern.transcribe, hoption]
  | wildcard | dictation =>
    have hcut : span.cutAt typed = .ok (span.cut typed) := if_pos ⟨Nat.le_of_lt hlt, hle⟩
    rw [Slot.pattern, Pattern.transcribeAt, hcut]
    rfl

theorem mapM_map_eq_ok {α β γ ε : Type} {xs : List α} {f : α → β} {g : β → Except ε γ}
    {g' : α → γ} (h : ∀ x ∈ xs, g (f x) = .ok (g' x)) : (xs.map f).mapM g = .ok (xs.map g') := by
  induction xs with
  | nil => rfl
  | cons x xs ih =>
    obtain ⟨hx, hrest⟩ := List.forall_mem_cons.mp h
    rw [List.map_cons, List.mapM_cons, hx, ih hrest]
    rfl

theorem Grammar.Derivation.length_eq_patterns {g : Grammar} {heard : List String}
    {spans : List Span} (d : Derivation heard g.nodes 0 spans) :
    spans.length = g.patterns.length := by
  rw [d.length_eq, patterns, List.length_map]

/-- The report on the spans of a derivation reads nothing out of range. -/
theorem slotsAt_eq {g : Grammar} {heard typed : List String} {spans : List Span}
    (d : Derivation heard g.nodes 0 spans) (hlen : typed.length = heard.length) :
    slotsAt typed g.patterns spans = .ok (Recognition.ofSpans typed g.patterns spans).slots := by
  have hspans : spans.zipIdx = (g.patterns.zip spans).zipIdx.map (Prod.map Prod.snd id) := by
    rw [← List.zipIdx_map, List.map_snd_zip (Nat.le_of_eq d.length_eq_patterns)]
  rw [slotsAt, hspans]
  apply mapM_map_eq_ok
  rintro ⟨⟨p, span⟩, node⟩ hmem
  obtain ⟨hp, hspan⟩ := List.getElem?_zip_eq_some.mp (List.mk_mem_zipIdx_iff_getElem?.mp hmem)
  obtain ⟨n, hnode, rfl⟩ := Option.map_eq_some_iff.mp (List.getElem?_map ▸ hp)
  obtain ⟨hlt, hle, hsaid⟩ := d.said_at hnode hspan
  simp only [Prod.map, id, hp, hsaid.transcribeAt_eq hlt (hlen ▸ hle)]
  rfl

/-- Searching an utterance comes to no position behind the end of the grammar or of the utterance,
and by position it reads nothing out of range. What it finds is a span for each pattern; each holds
a word at least and ends within the utterance, and on a choice records one of its options. So the
report looks up patterns, words and options that are there. -/
theorem search_in_range (g : Grammar) (heard : List String) (hne : ∀ w ∈ heard, w ≠ "") :
    (∀ node pos, Pattern.Reaches g.patterns heard node pos →
        node ≤ g.patterns.length ∧ pos ≤ heard.length) ∧
      Pattern.searchAt g.patterns heard 0 0 = .ok (Pattern.search g.patterns 0 heard) ∧
      ∀ spans, Pattern.search g.patterns 0 heard = some spans →
        spans.length = g.patterns.length ∧
        (∀ (node : Nat) (span : Span), spans[node]? = some span →
          span.start < span.stop ∧ span.stop ≤ heard.length ∧
            ∀ options, g.patterns[node]? = some (.oneOf options) →
              ∃ i, span.choice = some i ∧ i < options.length) ∧
        ∀ typed : List String, typed.length = heard.length →
          slotsAt typed g.patterns spans =
            .ok (Recognition.ofSpans typed g.patterns spans).slots := by
  refine ⟨fun node pos h => h.in_range, Pattern.searchAt_eq (Nat.zero_le _), ?_⟩
  intro spans hsearch
  have d : Derivation heard g.nodes 0 spans :=
    Pattern.derivation_of_search hne (Nat.zero_le _) hsearch
  refine ⟨d.length_eq_patterns, ?_, fun typed hlen => slotsAt_eq d hlen⟩
  intro p span hspan
  have hp : p < g.nodes.length := d.length_eq ▸ (List.getElem?_eq_some_iff.mp hspan).1
  have hnode : g.nodes[p]? = some g.nodes[p] := List.getElem?_eq_getElem hp
  obtain ⟨hlt, hle, hsaid⟩ := d.said_at hnode hspan
  refine ⟨hlt, hle, ?_⟩
  intro options hoptions
  rw [getElem?_patterns hnode, Option.some.injEq] at hoptions
  cases hslot : g.nodes[p].slot with
  | choice entries =>
    rw [hslot] at hsaid hoptions
    cases hoptions
    obtain ⟨i, e, hi, he, -⟩ := hsaid
    refine ⟨i, hi, ?_⟩
    rw [List.length_map]
    exact (List.getElem?_eq_some_iff.mp he).1
  | literal | wildcard | dictation =>
    rw [hslot] at hoptions
    cases hoptions

/-- The search comes behind both words of the last entry too, though an earlier entry leads on. -/
theorem search_in_range_ambiguousTea :
    (∀ w ∈ ["light", "green", "tea", "please"], w ≠ "") ∧
      (Pattern.Reaches ambiguousTea.patterns ["light", "green", "tea", "please"] 1 2 ∧
        1 ≤ ambiguousTea.patterns.length ∧ 2 ≤ ["light", "green", "tea", "please"].length) ∧
      Pattern.searchAt ambiguousTea.patterns ["light", "green", "tea", "please"] 0 0 =
        .ok (some [⟨0, 1, some 1⟩, ⟨1, 2, none⟩, ⟨2, 4, none⟩]) ∧
      ∃ slots, slotsAt ["LIGHT", "Green", "tea", "please"] ambiguousTea.patterns
          [⟨0, 1, some 1⟩, ⟨1, 2, none⟩, ⟨2, 4, none⟩] = .ok slots ∧
        slots.map (·.text) = ["Light", "Green", "tea please"] := by
  have hne : ∀ w ∈ ["light", "green", "tea", "please"], w ≠ "" := by decide
  have hsearch : Pattern.search ambiguousTea.patterns 0 ["light", "green", "tea", "please"] =
      some [⟨0, 1, some 1⟩, ⟨1, 2, none⟩, ⟨2, 4, none⟩] := by decide +kernel
  let entries : List Entry := [⟨" ", .int 0⟩, ⟨"Light", .int 1⟩, ⟨"light green", .int 2⟩]
  have htakes : ((Slot.choice entries).pattern.takes 0 ["light", "green", "tea", "please"]).map
      Prod.fst = [⟨0, 1, some 1⟩, ⟨0, 2, some 2⟩] := by decide +kernel
  have hfirst := (Pattern.spansAt_eq _ (Nat.zero_le _)).trans (congrArg Except.ok htakes)
  have hreached : Pattern.Reaches ambiguousTea.patterns ["light", "green", "tea", "please"] 1 2 :=
    .next .start rfl hfirst (List.mem_cons_of_mem _ List.mem_cons_self)
  obtain ⟨hreaches, hfound, hspans⟩ := search_in_range ambiguousTea _ hne
  obtain ⟨-, -, hslots⟩ := hspans _ hsearch
  rw [hsearch] at hfound
  exact ⟨hne, ⟨hreached, hreaches 1 2 hreached⟩, hfound, _,
    hslots ["LIGHT", "Green", "tea", "please"] rfl, by decide +kernel⟩

end Colloquy
