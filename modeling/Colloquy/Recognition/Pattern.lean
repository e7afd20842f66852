import Colloquy.Grammar.Basic

/-!
# Patterns

A slot as it is matched against the words of an utterance, and the stretch of the utterance that it
is matched with.

* `mem_takes_free`, `mem_takes_fixed`, `mem_takes_oneOf`: what each kind of pattern may take.
-/

namespace Colloquy

open Text

/-! ## Wordings -/

/-- Words that a grammar asks for: in lower case, as they are compared, and in the spelling of the
grammar, as they are transcribed. -/
structure Wording where
  words : List String
  spelling : String
  deriving DecidableEq, Repr

namespace Wording

/-- The wording of a text. A text without words asks for the empty word, which is never said, so a
blank form matches nothing rather than everything. -/
def ofText (text : String) : Wording where
  words := match loweredWords text with
    | [] => [""]
    | ws => ws
  spelling := spaced (Text.words text)

/-- The words that are left of `heard` when it begins with the wording. -/
def after? (w : Wording) (heard : List String) : Option (List String) :=
  if w.words.isPrefixOf heard then some (heard.drop w.words.length) else none

theorem after?_eq_some_iff {w : Wording} {heard rest : List String} :
    w.after? heard = some rest ↔ heard = w.words ++ rest := by
  unfold after?
  constructor
  · intro h
    split at h
    · next hp =>
      obtain ⟨tail, rfl⟩ := List.isPrefixOf_iff_prefix.1 hp
      simpa using h
    · cases h
  · rintro rfl
    simp

end Wording

/-! ## Spans -/

/-- The words of an utterance from position `start` up to `stop`, taken by one slot. `choice` is the
entry that was spoken, for a slot that offers several. -/
structure Span where
  start : Nat
  stop : Nat
  choice : Option Nat
  deriving DecidableEq, Repr

/-- The words that lie in the span. -/
def Span.cut (span : Span) (ws : List String) : List String :=
  (ws.take span.stop).drop span.start

/-! ## Patterns -/

inductive Pattern
  /-- These words. -/
  | fixed (wording : Wording)
  /-- One of these wordings. -/
  | oneOf (options : List Wording)
  /-- At least one word, whatever it is. -/
  | free
  deriving DecidableEq, Repr

def Slot.pattern : Slot → Pattern
  | .literal text => .fixed (.ofText text)
  | .choice entries => .oneOf (entries.map fun e => .ofText e.spoken)
  | .wildcard | .dictation => .free

/-- The patterns of a grammar, slot by slot. -/
def Grammar.patterns (g : Grammar) : List Pattern := g.nodes.map (·.slot.pattern)

namespace Pattern

def isFree : Pattern → Bool
  | .free => true
  | .fixed _ | .oneOf _ => false

/-- The spans from `start` that end after `stop`, the shortest first, and the words after each;
`heard` are the words from `stop` on. -/
def longer (start stop : Nat) : (heard : List String) → List (Span × List String)
  | [] => []
  | _ :: rest => (⟨start, stop + 1, none⟩, rest) :: longer start (stop + 1) rest

/-- The spans that a pattern may take of the words `heard`, which begin at position `start`, and the
words after each. The preferred ones come first: an earlier option before a later one, and fewer free
words before more. -/
def takes (start : Nat) (heard : List String) : Pattern → List (Span × List String)
  | .fixed w =>
    (w.after? heard).toList.map fun rest => (⟨start, start + w.words.length, none⟩, rest)
  | .oneOf options =>
    options.zipIdx.filterMap fun (w, i) =>
      (w.after? heard).map fun rest => (⟨start, start + w.words.length, some i⟩, rest)
  | .free => longer start start heard

/-- The text of a span in a transcript: in the spelling of the grammar where the pattern has one,
and as it was typed elsewhere. -/
def transcribe (typed : List String) (p : Pattern) (span : Span) : String :=
  match p with
  | .fixed w => w.spelling
  | .oneOf options =>
    match span.choice.bind (options[·]?) with
    | some w => w.spelling
    | none => spaced (span.cut typed)
  | .free => spaced (span.cut typed)

/-! ## What a pattern may take -/

theorem mem_takes_fixed {start : Nat} {heard rest : List String} {w : Wording} {span : Span} :
    (span, rest) ∈ takes start heard (.fixed w) ↔
      heard = w.words ++ rest ∧ span = ⟨start, start + w.words.length, none⟩ := by
  simp only [takes, List.mem_map, Option.mem_toList, Wording.after?_eq_some_iff, Prod.mk.injEq]
  constructor
  · rintro ⟨_, h, rfl, rfl⟩
    exact ⟨h, rfl⟩
  · rintro ⟨h, rfl⟩
    exact ⟨rest, h, rfl, rfl⟩

theorem mem_takes_oneOf {start : Nat} {heard rest : List String} {options : List Wording}
    {span : Span} :
    (span, rest) ∈ takes start heard (.oneOf options) ↔
      ∃ i w, options[i]? = some w ∧ heard = w.words ++ rest ∧
        span = ⟨start, start + w.words.length, some i⟩ := by
  simp only [takes, List.mem_filterMap, Prod.exists, List.mk_mem_zipIdx_iff_getElem?,
    Option.map_eq_some_iff, Wording.after?_eq_some_iff, Prod.mk.injEq]
  constructor
  · rintro ⟨w, i, hw, _, h, rfl, rfl⟩
    exact ⟨i, w, hw, h, rfl⟩
  · rintro ⟨i, w, hw, h, rfl⟩
    exact ⟨w, i, hw, rest, h, rfl, rfl⟩

theorem mem_longer {start stop : Nat} {heard rest : List String} {span : Span} :
    (span, rest) ∈ longer start stop heard ↔
      ∃ taken, taken ≠ [] ∧ heard = taken ++ rest ∧
        span = ⟨start, stop + taken.length, none⟩ := by
  induction heard generalizing stop with
  | nil =>
    simp only [longer, List.not_mem_nil, false_iff]
    rintro ⟨taken, hne, h, -⟩
    exact hne (List.append_eq_nil_iff.1 h.symm).1
  | cons word heard ih =>
    rw [longer, List.mem_cons, ih, Prod.mk.injEq]
    constructor
    · rintro (⟨rfl, rfl⟩ | ⟨taken, -, rfl, rfl⟩)
      · exact ⟨[word], by simp, rfl, rfl⟩
      · refine ⟨word :: taken, by simp, rfl, ?_⟩
        rw [List.length_cons, Nat.add_assoc, Nat.add_comm 1]
    · rintro ⟨taken, hne, h, rfl⟩
      cases taken with
      | nil => exact absurd rfl hne
      | cons first taken =>
        obtain ⟨rfl, rfl⟩ := List.cons.inj h
        cases taken with
        | nil => exact Or.inl ⟨rfl, rfl⟩
        | cons second taken =>
          refine Or.inr ⟨second :: taken, by simp, rfl, ?_⟩
          rw [List.length_cons, Nat.add_assoc, Nat.add_comm 1]

theorem mem_takes_free {start : Nat} {heard rest : List String} {span : Span} :
    (span, rest) ∈ takes start heard .free ↔
      ∃ taken, taken ≠ [] ∧ heard = taken ++ rest ∧
        span = ⟨start, start + taken.length, none⟩ :=
  mem_longer

end Pattern

end Colloquy
