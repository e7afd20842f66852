import Colloquy.Recognition.Search

/-!
# Derivations of an utterance

A derivation divides the words of an utterance among the slots of a grammar, from the first word to
the last and without a gap. It says nothing about how a division is found: a literal takes its own
words, a choice the words of the entry it records, and a free slot any words at all. Derivations are
compared slot by slot; the first slot that is said in two ways decides.

* `Derivation.said_at`: each slot is said by its span.
* `Derivation.set`: a span may be exchanged for another one from the same word to the same word.
* `Before.asymm`: no two derivations come each before the other.
-/

namespace Colloquy

open Text

/-! ## Slots and stretches of words -/

/-- The stretch `span` of the words `heard` says the slot. -/
def Slot.SaidBy (heard : List String) (span : Span) : Slot → Prop
  | .literal text => span.choice = none ∧ span.cut heard = loweredWords text
  | .choice entries =>
    ∃ i e, span.choice = some i ∧ entries[i]? = some e ∧ span.cut heard = loweredWords e.spoken
  | .wildcard | .dictation => span.choice = none

/-- The slot would rather be said by the span `a` than by the span `b`: an earlier entry comes
before a later one, and a shorter free stretch before a longer one. -/
def Slot.Prefers (a b : Span) : Slot → Prop
  | .literal _ => False
  | .choice _ => ∃ i j, a.choice = some i ∧ b.choice = some j ∧ i < j
  | .wildcard | .dictation => a.stop - a.start < b.stop - b.start

theorem Slot.Prefers.asymm {slot : Slot} {a b : Span} (h : slot.Prefers a b) :
    ¬ slot.Prefers b a := by
  intro h'
  cases slot with
  | literal => exact h
  | choice =>
    obtain ⟨i, j, hi, hj, hlt⟩ := h
    obtain ⟨j', i', hj', hi', hlt'⟩ := h'
    rw [hi, Option.some.injEq] at hi'
    rw [hj, Option.some.injEq] at hj'
    omega
  | wildcard | dictation =>
    simp only [Slot.Prefers] at h h'
    omega

theorem Slot.Prefers.ne {slot : Slot} {a b : Span} (h : slot.Prefers a b) : a ≠ b := by
  intro hab
  rw [hab] at h
  exact h.asymm h

/-! ## Derivations -/

namespace Grammar

/-- The spans divide the words `heard` from position `start` on among the slots of `nodes`. -/
inductive Derivation (heard : List String) : List Node → Nat → List Span → Prop
  | done : Derivation heard [] heard.length []
  | slot {node : Node} {nodes : List Node} {start : Nat} {span : Span} {spans : List Span}
      (starts : span.start = start) (nonempty : start < span.stop)
      (said : node.slot.SaidBy heard span) (rest : Derivation heard nodes span.stop spans) :
      Derivation heard (node :: nodes) start (span :: spans)

/-- At the first slot where the spans `as` and `bs` differ, the slot prefers the one in `as`. -/
inductive Before : List Node → List Span → List Span → Prop
  | here {node : Node} {nodes : List Node} {a b : Span} {as bs : List Span}
      (h : node.slot.Prefers a b) : Before (node :: nodes) (a :: as) (b :: bs)
  | later {node : Node} {nodes : List Node} {a : Span} {as bs : List Span}
      (h : Before nodes as bs) : Before (node :: nodes) (a :: as) (a :: bs)

theorem Before.asymm {nodes : List Node} {as bs : List Span} (h : Before nodes as bs) :
    ¬ Before nodes bs as := by
  induction h with
  | here h =>
    intro h'
    cases h' with
    | here h' => exact h.asymm h'
    | later => exact h.ne rfl
  | later h ih =>
    intro h'
    cases h' with
    | here h' => exact h'.ne rfl
    | later h' => exact ih h'

namespace Derivation

variable {heard : List String} {nodes : List Node} {start : Nat} {spans : List Span}

theorem start_le (h : Derivation heard nodes start spans) : start ≤ heard.length := by
  induction h with
  | done => exact Nat.le_refl _
  | slot _ nonempty _ _ ih => exact Nat.le_trans (Nat.le_of_lt nonempty) ih

theorem length_eq (h : Derivation heard nodes start spans) : spans.length = nodes.length := by
  induction h with
  | done => rfl
  | slot _ _ _ _ ih => rw [List.length_cons, List.length_cons, ih]

/-- What a derivation says about the slot at position `p`. -/
theorem said_at (h : Derivation heard nodes start spans) {p : Nat} {node : Node} {span : Span}
    (hnode : nodes[p]? = some node) (hspan : spans[p]? = some span) :
    span.start < span.stop ∧ span.stop ≤ heard.length ∧ node.slot.SaidBy heard span := by
  induction h generalizing p with
  | done => cases hnode
  | slot starts nonempty said rest ih =>
    cases p with
    | zero =>
      cases hnode
      cases hspan
      exact ⟨starts ▸ nonempty, rest.start_le, said⟩
    | succ p => exact ih hnode hspan

/-- A span may be exchanged for another one from the same word to the same word. -/
theorem set (h : Derivation heard nodes start spans) {p : Nat} {node : Node} {span other : Span}
    (hnode : nodes[p]? = some node) (hspan : spans[p]? = some span)
    (hstart : other.start = span.start) (hstop : other.stop = span.stop)
    (hsaid : node.slot.SaidBy heard other) :
    Derivation heard nodes start (spans.set p other) := by
  induction h generalizing p with
  | done => cases hnode
  | slot starts nonempty said rest ih =>
    cases p with
    | zero =>
      cases hnode
      cases hspan
      exact slot (hstart.trans starts) (hstop ▸ nonempty) hsaid (hstop ▸ rest)
    | succ p => exact slot starts nonempty said (ih hnode hspan)

end Derivation

theorem before_set {nodes : List Node} {spans : List Span} {p : Nat} {node : Node}
    {span other : Span} (hnode : nodes[p]? = some node) (hspan : spans[p]? = some span)
    (h : node.slot.Prefers other span) : Before nodes (spans.set p other) spans := by
  induction p generalizing nodes spans with
  | zero =>
    obtain ⟨nodes, rfl⟩ : ∃ ns, nodes = node :: ns := by cases nodes <;> simp_all
    obtain ⟨spans, rfl⟩ : ∃ ss, spans = span :: ss := by cases spans <;> simp_all
    exact .here h
  | succ p ih =>
    cases nodes with
    | nil => cases hnode
    | cons _ nodes =>
      cases spans with
      | nil => cases hspan
      | cons _ spans => exact .later (ih hnode hspan)

end Grammar

end Colloquy
