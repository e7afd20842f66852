import Colloquy.Dialog.Turn
import Colloquy.Recognition.Utterance
import Colloquy.Text.Lines
import Colloquy.Text.Utf8
import Mathlib.Data.List.Forall2
import Mathlib.Order.Bounds.Basic

/-!
# Turns that lines can answer

A row of turns can be answered by lines of text if there are lines for all of them, one behind the
other, that their grammars accept. A line may fit several turns. Still nothing is lost by answering
the first turn with the first line that its grammar accepts: whatever lines answer the other turns,
they stand behind that one in any case (`answerable_cons_iff`). So whether turns can be answered is
decided in one pass over the lines.
-/

namespace Colloquy

open Text

/-- The grammar of the turn accepts the line. -/
def Turn.Accepts (turn : Turn) (line : List UInt8) : Prop :=
  ∃ heard, turn.grammar.recognize (decodeUtf8 line) = some heard

instance (turn : Turn) (line : List UInt8) : Decidable (turn.Accepts line) :=
  decidable_of_iff _ Option.isSome_iff_exists

theorem Turn.not_accepts_iff {turn : Turn} {line : List UInt8} :
    ¬ turn.Accepts line ↔ turn.grammar.recognize (decodeUtf8 line) = none := by
  rw [Option.eq_none_iff_forall_ne_some]
  exact not_exists

/-- The positions increase, and the lines there are accepted by the turns, one by one. -/
structure AnsweredAt (ls : List (List UInt8)) (positions : List Nat) (turns : List Turn) :
    Prop where
  increasing : positions.Pairwise (· < ·)
  accepted :
    List.Forall₂ (fun l turn => ∃ line, ls[l]? = some line ∧ turn.Accepts line) positions turns

/-- There are lines at increasing positions for all turns. -/
def Answerable (turns : List Turn) (ls : List (List UInt8)) : Prop :=
  ∃ positions, AnsweredAt ls positions turns

variable {turn : Turn} {turns : List Turn} {line : List UInt8} {ls : List (List UInt8)}

theorem answerable_nil (ls : List (List UInt8)) : Answerable [] ls :=
  ⟨[], List.Pairwise.nil, List.Forall₂.nil⟩

theorem not_answerable_nil (turn : Turn) (turns : List Turn) : ¬ Answerable (turn :: turns) [] := by
  intro h
  obtain ⟨positions, -, haccepted⟩ := h
  cases haccepted with
  | cons hfirst _ =>
    obtain ⟨line, hline, -⟩ := hfirst
    cases hline

/-- If turns can be answered, so can the first of them. -/
theorem Answerable.of_append {more : List Turn} (h : Answerable (turns ++ more) ls) :
    Answerable turns ls := by
  obtain ⟨positions, hincreasing, haccepted⟩ := h
  refine ⟨positions.take turns.length, hincreasing.sublist (List.take_sublist _ _), ?_⟩
  exact List.forall₂_take_append positions turns more haccepted

theorem not_answerable_append (h : ¬ Answerable (turns ++ [turn]) ls) (later : List Turn) :
    ¬ Answerable (turns ++ turn :: later) ls := by
  rw [List.append_cons]
  exact fun hanswerable => h hanswerable.of_append

/-- Behind turns that can be answered, the next may be the first that cannot. -/
theorem isLeast_not_answerable (hturns : Answerable turns ls)
    (hnot : ¬ Answerable (turns ++ [turn]) ls) (later : List Turn) :
    IsLeast {n | ¬ Answerable ((turns ++ turn :: later).take n) ls} (turns.length + 1) := by
  constructor
  · change ¬ Answerable ((turns ++ turn :: later).take (turns.length + 1)) ls
    rw [List.take_length_add_append]
    exact hnot
  · intro n hn
    by_contra hle
    have hshort : n ≤ turns.length := by omega
    apply hn
    rw [List.take_append_of_le_length hshort]
    rw [← List.take_append_drop n turns] at hturns
    exact hturns.of_append

/-! ## The first line -/

theorem answeredAt_map_succ {positions : List Nat} :
    AnsweredAt (line :: ls) (positions.map (· + 1)) turns ↔ AnsweredAt ls positions turns := by
  have hincreasing : (positions.map (· + 1)).Pairwise (· < ·) ↔ positions.Pairwise (· < ·) := by
    simp only [List.pairwise_map, Nat.add_lt_add_iff_right]
  constructor
  · intro h
    refine ⟨hincreasing.mp h.increasing, ?_⟩
    simpa only [List.forall₂_map_left_iff, List.getElem?_cons_succ] using h.accepted
  · intro h
    refine ⟨hincreasing.mpr h.increasing, ?_⟩
    simpa only [List.forall₂_map_left_iff, List.getElem?_cons_succ] using h.accepted

/-- Positions other than the first are positions among the lines behind it. -/
theorem AnsweredAt.behind {positions : List Nat} (h : AnsweredAt (line :: ls) positions turns)
    (hpos : ∀ l ∈ positions, 0 < l) : Answerable turns ls := by
  have hback : (positions.map (· - 1)).map (· + 1) = positions := by
    rw [List.map_map]
    exact (List.map_congr_left fun l hl => Nat.sub_add_cancel (hpos l hl)).trans (List.map_id _)
  rw [← hback] at h
  exact ⟨_, answeredAt_map_succ.mp h⟩

theorem answerable_cons_of_accepts (haccepts : turn.Accepts line) :
    Answerable (turn :: turns) (line :: ls) ↔ Answerable turns ls := by
  constructor
  · intro h
    obtain ⟨positions, hincreasing, haccepted⟩ := h
    cases haccepted with
    | @cons first _ later _ _ hlater =>
      obtain ⟨hless, hincreasing⟩ := List.pairwise_cons.mp hincreasing
      exact AnsweredAt.behind ⟨hincreasing, hlater⟩ fun l hl => Nat.zero_lt_of_lt (hless l hl)
  · intro h
    obtain ⟨positions, hpositions⟩ := h
    obtain ⟨hincreasing, haccepted⟩ := answeredAt_map_succ.mpr hpositions
    refine ⟨0 :: positions.map (· + 1), List.pairwise_cons.mpr ⟨?_, hincreasing⟩,
      List.Forall₂.cons ⟨line, rfl, haccepts⟩ haccepted⟩
    intro l hl
    obtain ⟨position, -, rfl⟩ := List.mem_map.mp hl
    exact Nat.succ_pos position

theorem answerable_cons_of_rejected (hrejected : ¬ turn.Accepts line) :
    Answerable (turn :: turns) (line :: ls) ↔ Answerable (turn :: turns) ls := by
  constructor
  · intro h
    obtain ⟨positions, hpositions⟩ := h
    refine hpositions.behind ?_
    obtain ⟨hincreasing, haccepted⟩ := hpositions
    cases haccepted with
    | @cons first _ later _ hfirst _ =>
      obtain ⟨hless, -⟩ := List.pairwise_cons.mp hincreasing
      obtain ⟨answer, hanswer, haccepts⟩ := hfirst
      have hpos : 0 < first := by
        apply Nat.pos_of_ne_zero
        rintro rfl
        cases hanswer
        exact hrejected haccepts
      exact List.forall_mem_cons.mpr ⟨hpos, fun l hl => Nat.lt_trans hpos (hless l hl)⟩
  · intro h
    obtain ⟨positions, hpositions⟩ := h
    exact ⟨_, answeredAt_map_succ.mpr hpositions⟩

/-! ## One turn after the other -/

theorem not_answerable_of_rejected (h : ∀ line ∈ ls, ¬ turn.Accepts line) :
    ¬ Answerable (turn :: turns) ls := by
  induction ls with
  | nil => exact not_answerable_nil turn turns
  | cons line ls ih =>
    obtain ⟨hline, hrest⟩ := List.forall_mem_cons.mp h
    rw [answerable_cons_of_rejected hline]
    exact ih hrest

/-- Nothing is lost by answering the first turn with the first line that is accepted. -/
theorem answerable_cons_iff {before rest : List (List UInt8)}
    (hrejected : ∀ l ∈ before, ¬ turn.Accepts l) (haccepts : turn.Accepts line) :
    Answerable (turn :: turns) (before ++ line :: rest) ↔ Answerable turns rest := by
  induction before with
  | nil => exact answerable_cons_of_accepts haccepts
  | cons first before ih =>
    obtain ⟨hfirst, hbefore⟩ := List.forall_mem_cons.mp hrejected
    rw [List.cons_append, answerable_cons_of_rejected hfirst]
    exact ih hbefore

/-- Whether turns can be answered is found out by answering each as soon as a line fits. -/
instance decidableAnswerable :
    (turns : List Turn) → (ls : List (List UInt8)) → Decidable (Answerable turns ls)
  | [], ls => .isTrue (answerable_nil ls)
  | turn :: turns, [] => .isFalse (not_answerable_nil turn turns)
  | turn :: turns, line :: ls =>
    if h : turn.Accepts line then
      @decidable_of_iff _ _ (answerable_cons_of_accepts h).symm (decidableAnswerable turns ls)
    else
      @decidable_of_iff _ _ (answerable_cons_of_rejected h).symm
        (decidableAnswerable (turn :: turns) ls)

end Colloquy
