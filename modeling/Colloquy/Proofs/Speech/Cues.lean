import Colloquy.Proofs.Speech.LateSwitch
import Colloquy.Proofs.Speech.Scanning

/-!
# Cues of a marked speech

The markup of a speech says again what the speech was composed of. Scanned and read as cues to the
voice it gives the emphases and silences of the instructions, with the texts between them.
-/

namespace Colloquy

open Text Markup

/-- What a voice is told besides the text. -/
inductive Cue
  | startEmphasis
  | endEmphasis
  | pause (milliseconds : Nat)
  deriving DecidableEq, Repr

namespace Markup

/-! ## Tags as cues -/

/-- The number of these digits. -/
def number? (digits : String) : Option Nat :=
  if digits ≠ "" ∧ digits.toList.all Char.isDigit then some (Nat.ofDigitChars 10 digits.toList 0)
  else none

/-- What a tag tells the voice. -/
def Tag.cues? : Tag → Option (List Cue)
  | .start "emph" [] => some [.startEmphasis]
  | .stop "emph" => some [.endEmphasis]
  | .empty "emph" [] => some [.startEmphasis, .endEmphasis]
  | .empty "silence" [("msec", digits)] => (number? digits).map ([.pause ·])
  | _ => none

/-- The cues that tags stand for, in between the texts. -/
def cues? : List (Piece Tag) → Option (List (Piece Cue))
  | [] => some []
  | .text s :: pieces => do return .text s :: (← cues? pieces)
  | .mark tag :: pieces => do return (← tag.cues?).map .mark ++ (← cues? pieces)

theorem toList_toString (n : Nat) : (toString n).toList = Nat.toDigits 10 n := by
  rw [Nat.toString_eq_repr, Nat.toList_repr]

theorem isDigit_of_mem_toString {n : Nat} {c : Char} (h : c ∈ (toString n).toList) : c.isDigit := by
  rw [toList_toString] at h
  exact Nat.isDigit_of_mem_toDigits (by decide) (by decide) h

theorem number?_toString (n : Nat) : number? (toString n) = some n := by
  have hne : toString n ≠ "" := by
    rw [Nat.toString_eq_repr]
    exact Nat.repr_ne_empty
  have hall : (toString n).toList.all Char.isDigit = true :=
    List.all_eq_true.mpr fun _ => isDigit_of_mem_toString
  rw [number?, if_pos ⟨hne, hall⟩, toList_toString, Nat.ofDigitChars_ten_toDigits]

theorem cues?_text_iff {s : String} {pieces : List (Piece Tag)} {cues : List (Piece Cue)} :
    cues? (.text s :: pieces) = some cues ↔
      ∃ more, cues? pieces = some more ∧ cues = .text s :: more := by
  simp [cues?, Option.bind_eq_some_iff, @eq_comm _ cues]

theorem cues?_mark_iff {tag : Tag} {pieces : List (Piece Tag)} {cues : List (Piece Cue)} :
    cues? (.mark tag :: pieces) = some cues ↔
      ∃ told more, tag.cues? = some told ∧ cues? pieces = some more ∧
        cues = told.map .mark ++ more := by
  simp [cues?, Option.bind_eq_some_iff, @eq_comm _ cues]

theorem Tag.cues?_cases {tag : Tag} {cues : List Cue} (h : tag.cues? = some cues) :
    (tag = .start "emph" [] ∧ cues = [.startEmphasis]) ∨
      (tag = .stop "emph" ∧ cues = [.endEmphasis]) ∨
      (tag = .empty "emph" [] ∧ cues = [.startEmphasis, .endEmphasis]) ∨
      ∃ digits n, tag = .empty "silence" [("msec", digits)] ∧ cues = [.pause n] := by
  unfold Tag.cues? at h
  split at h
  · cases h
    exact Or.inl ⟨rfl, rfl⟩
  · cases h
    exact Or.inr (Or.inl ⟨rfl, rfl⟩)
  · cases h
    exact Or.inr (Or.inr (Or.inl ⟨rfl, rfl⟩))
  · obtain ⟨n, -, rfl⟩ := Option.map_eq_some_iff.mp h
    exact Or.inr (Or.inr (Or.inr ⟨_, n, rfl, rfl⟩))
  · cases h

theorem Tag.cues?_ne_nil {tag : Tag} {cues : List Cue} (h : tag.cues? = some cues) :
    cues ≠ [] := by
  obtain ⟨-, rfl⟩ | ⟨-, rfl⟩ | ⟨-, rfl⟩ | ⟨-, n, -, rfl⟩ := cues?_cases h <;>
    exact List.cons_ne_nil _ _

theorem cues?_append {pieces more : List (Piece Tag)} {cues others : List (Piece Cue)}
    (h : cues? pieces = some cues) (hmore : cues? more = some others) :
    cues? (pieces ++ more) = some (cues ++ others) := by
  induction pieces generalizing cues with
  | nil =>
    cases h
    exact hmore
  | cons piece pieces ih =>
    cases piece with
    | text s =>
      obtain ⟨rest, hrest, rfl⟩ := cues?_text_iff.mp h
      exact cues?_text_iff.mpr ⟨_, ih hrest, rfl⟩
    | mark tag =>
      obtain ⟨told, rest, htag, hrest, rfl⟩ := cues?_mark_iff.mp h
      exact cues?_mark_iff.mpr ⟨told, _, htag, ih hrest, List.append_assoc _ _ _⟩

theorem cues?_consText {pieces : List (Piece Tag)} {cues : List (Piece Cue)}
    (h : cues? pieces = some cues) (s : String) :
    cues? (Piece.consText s pieces) = some (Piece.consText s cues) := by
  have hfront : ∀ {found : List (Piece Cue)}, cues? pieces = some found →
      cues? (if s = "" then pieces else .text s :: pieces) =
        some (if s = "" then found else .text s :: found) := by
    intro found hfound
    by_cases hs : s = ""
    · rw [if_pos hs, if_pos hs, hfound]
    · rw [if_neg hs, if_neg hs]
      exact cues?_text_iff.mpr ⟨found, hfound, rfl⟩
  rcases pieces with _ | ⟨tag | t, pieces⟩
  · cases h
    exact hfront rfl
  · obtain ⟨told, more, htag, -, rfl⟩ := cues?_mark_iff.mp h
    -- Every tag tells something, so that no text is joined with one behind the tag.
    obtain ⟨cue, told, rfl⟩ := List.exists_cons_of_ne_nil (Tag.cues?_ne_nil htag)
    exact hfront h
  · obtain ⟨more, hmore, rfl⟩ := cues?_text_iff.mp h
    exact cues?_text_iff.mpr ⟨more, hmore, rfl⟩

/-- Pieces with their texts joined tell the same, with its texts joined. -/
theorem cues?_merge {pieces : List (Piece Tag)} {cues : List (Piece Cue)}
    (h : cues? pieces = some cues) : cues? (Piece.merge pieces) = some (Piece.merge cues) := by
  induction pieces generalizing cues with
  | nil =>
    cases h
    rfl
  | cons piece pieces ih =>
    cases piece with
    | text s =>
      obtain ⟨more, hmore, rfl⟩ := cues?_text_iff.mp h
      exact cues?_consText (ih hmore) s
    | mark tag =>
      obtain ⟨told, more, htag, hmore, rfl⟩ := cues?_mark_iff.mp h
      rw [Piece.merge_marks]
      exact cues?_mark_iff.mpr ⟨told, _, htag, ih hmore, rfl⟩

end Markup

end Colloquy
