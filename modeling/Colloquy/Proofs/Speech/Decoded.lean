import Colloquy.Proofs.Speech.Telling

/-!
# Marked speeches decoded

The markup of a speech decodes to what was said (`markup_decodes`): its tags and texts, scanned and
read as cues, are the instructions again, with adjacent texts joined. So the transcript is what is
left without the tags (`texts_cues?`), texts make no difference to the tags, and these are balanced
whenever the instructions are (`nests_eq_balanced`). Silences of less than a millisecond are not
found again (`short_silence_untold`).
-/

namespace Colloquy

open Markup Speech

/-! ## Texts and marks of a row -/

namespace Markup.Piece

variable {α : Type}

/-- The text of a piece, a mark having none. -/
def said : Piece α → String
  | .mark _ => ""
  | .text s => s

def mark? : Piece α → Option α
  | .mark a => some a
  | .text _ => none

/-- The texts of pieces, one behind the other. -/
def texts (pieces : List (Piece α)) : String := String.join (pieces.map said)

theorem texts_cons (piece : Piece α) (pieces : List (Piece α)) :
    texts (piece :: pieces) = piece.said ++ texts pieces := by
  rw [texts, List.map_cons, String.join_cons, texts]

theorem texts_marks (marks : List α) (pieces : List (Piece α)) :
    texts (marks.map .mark ++ pieces) = texts pieces := by
  induction marks with
  | nil => rfl
  | cons a marks ih =>
    rw [List.map_cons, List.cons_append, texts_cons, ih]
    exact String.empty_append

theorem texts_consText (s : String) (pieces : List (Piece α)) :
    texts (consText s pieces) = s ++ texts pieces := by
  rcases pieces with _ | ⟨a | t, pieces⟩
  · by_cases hs : s = "" <;> simp [consText, hs, texts, said]
  · by_cases hs : s = "" <;> simp [consText, hs, texts_cons, said]
  · simp [consText, texts_cons, said, String.append_assoc]

theorem texts_merge (pieces : List (Piece α)) : texts (merge pieces) = texts pieces := by
  induction pieces with
  | nil => rfl
  | cons piece pieces ih =>
    rw [texts_cons, ← ih]
    cases piece with
    | mark a => exact texts_cons _ _
    | text s => exact texts_consText s (merge pieces)

theorem filterMap_mark?_merge (pieces : List (Piece α)) :
    (merge pieces).filterMap mark? = pieces.filterMap mark? := by
  induction pieces with
  | nil => rfl
  | cons piece pieces ih =>
    cases piece with
    | mark a => exact congrArg (a :: ·) ih
    | text s =>
      have hcons : ∀ more : List (Piece α),
          (consText s more).filterMap mark? = more.filterMap mark? := by
        intro more
        rcases more with _ | ⟨a | t, more⟩
        · by_cases hs : s = "" <;> simp [consText, hs, mark?]
        · by_cases hs : s = "" <;> simp [consText, hs, mark?, List.filterMap_cons]
        · rfl
      exact (hcons (merge pieces)).trans ih

end Markup.Piece

/-! ## Balance -/

namespace Markup

/-- Each end tag ends the element that was started last of those that were not ended. The names of
the elements that have been started are given, the last one first. -/
def nests : List String → List (Piece Tag) → Bool
  | started, [] => started.isEmpty
  | started, .mark (.start name _) :: pieces => nests (name :: started) pieces
  | [], .mark (.stop _) :: _ => false
  | last :: started, .mark (.stop name) :: pieces => last = name && nests started pieces
  | started, .mark (.empty _ _) :: pieces => nests started pieces
  | started, .text _ :: pieces => nests started pieces

end Markup

/-- The cue starts an emphasis, or ends one. -/
def Cue.starts? : Cue → Option Bool
  | .startEmphasis => some true
  | .endEmphasis => some false
  | .pause _ => none

/-- No more is ended than was started, of which so many are given, and in the end all of it is. -/
def balanced : Nat → List Bool → Bool
  | started, [] => started = 0
  | started, true :: steps => balanced (started + 1) steps
  | 0, false :: _ => false
  | started + 1, false :: steps => balanced started steps

namespace Markup

variable {pieces : List (Piece Tag)} {cues : List (Piece Cue)}

theorem texts_cues? (h : cues? pieces = some cues) : Piece.texts cues = Piece.texts pieces := by
  induction pieces generalizing cues with
  | nil =>
    cases h
    rfl
  | cons piece pieces ih =>
    cases piece with
    | text s =>
      obtain ⟨more, hmore, rfl⟩ := cues?_text_iff.mp h
      rw [Piece.texts_cons, ih hmore, Piece.texts_cons]
      rfl
    | mark tag =>
      obtain ⟨told, more, -, hmore, rfl⟩ := cues?_mark_iff.mp h
      rw [Piece.texts_marks, ih hmore, Piece.texts_cons]
      exact String.empty_append.symm

/-- Tags are balanced iff the emphases that they tell are. -/
theorem nests_eq_balanced (h : cues? pieces = some cues) (started : Nat) :
    nests (List.replicate started "emph") pieces =
      balanced started ((cues.filterMap Piece.mark?).filterMap Cue.starts?) := by
  induction pieces generalizing cues started with
  | nil =>
    cases h
    cases started <;> rfl
  | cons piece pieces ih =>
    cases piece with
    | text s =>
      obtain ⟨more, hmore, rfl⟩ := cues?_text_iff.mp h
      rw [nests]
      exact ih hmore started
    | mark tag =>
      obtain ⟨told, more, htag, hmore, rfl⟩ := cues?_mark_iff.mp h
      obtain ⟨rfl, rfl⟩ | ⟨rfl, rfl⟩ | ⟨rfl, rfl⟩ | ⟨digits, n, rfl, rfl⟩ := Tag.cues?_cases htag
      · rw [nests]
        exact ih hmore (started + 1)
      · cases started with
        | zero => rfl
        | succ started =>
          rw [List.replicate_succ, nests, decide_eq_true rfl, Bool.true_and]
          exact ih hmore started
      · rw [nests]
        exact ih hmore started
      · rw [nests]
        exact ih hmore started

end Markup

/-! ## Instructions -/

namespace Speech

namespace Instruction

/-- What the instruction tells besides text. -/
def cue? : Instruction → Option Cue
  | .say _ => none
  | .startEmphasis => some .startEmphasis
  | .endEmphasis => some .endEmphasis
  | .silence length =>
    if length.milliseconds = 0 then none else some (.pause length.milliseconds)

/-- The instruction starts an emphasis, or ends one. -/
def emphasis? : Instruction → Option Bool
  | .startEmphasis => some true
  | .endEmphasis => some false
  | .say _ | .silence _ => none

end Instruction

theorem map_piece_audible_cons (i : Instruction) (instructions : List Instruction) :
    (audible (i :: instructions)).map Instruction.piece =
      if i.isShortSilence then (audible instructions).map Instruction.piece
      else i.piece :: (audible instructions).map Instruction.piece := by
  rw [audible, List.filter_cons]
  cases i.isShortSilence <;> rfl

theorem texts_pieces (instructions : List Instruction) :
    Piece.texts ((audible instructions).map Instruction.piece) = saidBy instructions := by
  induction instructions with
  | nil => rfl
  | cons i instructions ih =>
    rw [map_piece_audible_cons, saidBy, List.map_cons, String.join_cons, ← saidBy, ← ih]
    cases i with
    | say | startEmphasis | endEmphasis => exact Piece.texts_cons _ _
    | silence length =>
      split
      · exact String.empty_append.symm
      · exact Piece.texts_cons _ _

theorem filterMap_mark?_pieces (instructions : List Instruction) :
    ((audible instructions).map Instruction.piece).filterMap Piece.mark? =
      instructions.filterMap Instruction.cue? := by
  induction instructions with
  | nil => rfl
  | cons i instructions ih =>
    rw [map_piece_audible_cons, List.filterMap_cons, ← ih]
    cases i with
    | say | startEmphasis | endEmphasis => rfl
    | silence length =>
      by_cases hshort : length.milliseconds = 0 <;>
        simp [Instruction.isShortSilence, Instruction.cue?, hshort, Instruction.piece, Piece.mark?]

theorem filterMap_starts? (instructions : List Instruction) :
    (instructions.filterMap Instruction.cue?).filterMap Cue.starts? =
      instructions.filterMap Instruction.emphasis? := by
  rw [List.filterMap_filterMap]
  congr 1
  funext i
  cases i with
  | say | startEmphasis | endEmphasis => rfl
  | silence length =>
    rw [Instruction.cue?]
    split <;> rfl

end Speech

/-- A marked speech whose last tag has come to its end decodes to what was said, if the writer of
markup has the usual forms of tags and writes each character of text that could be taken for markup
by its name, and all others as they are.

* Its tags and texts tell the instructions, in order, with texts joined and empty ones left out, but
  without the silences of less than a millisecond.
* Its texts are the transcript.
* Its tags tell what the instructions tell besides text, whatever texts there are.
* Its tags are balanced iff the emphases of the instructions are. -/
theorem markup_decodes [Escaping] {ω : Type} [MarkupWriter ω] [LawfulMarkupWriter ω]
    [StandardWriter ω] (hescape : EscapesMarkup) {instructions : List Instruction} {speech : Speech}
    (hbuilt : ofInstructions ω instructions = .ok speech) (hmarked : speech.isMarked = true)
    (hclosed : ¬ EndsInTag instructions) :
    ∃ pieces, scan speech.contents.toList = some pieces ∧
      ∃ cues, cues? pieces = some cues ∧
        cues = Piece.merge ((audible instructions).map Instruction.piece) ∧
        Piece.texts pieces = speech.transcript ∧
        cues.filterMap Piece.mark? = instructions.filterMap Instruction.cue? ∧
        nests [] pieces = balanced 0 (instructions.filterMap Instruction.emphasis?) := by
  have hspeech : speech = .marked (writerOf instructions).written (saidBy instructions) := by
    rw [ofInstructions_eq] at hbuilt
    by_cases hneeds : instructions.any Instruction.needsMarkup
    · rw [if_pos hneeds] at hbuilt
      cases houtput : MarkupWriter.output (piecesOf instructions) (MarkupWriter.fresh : ω) with
      | error e =>
        rw [houtput] at hbuilt
        cases hbuilt
      | ok written =>
        have hwritten := StandardWriter.written_of_output houtput
        rw [StandardWriter.view_fresh] at hwritten
        rw [houtput] at hbuilt
        cases hbuilt
        rw [writerOf, hwritten]
    · rw [if_neg hneeds] at hbuilt
      cases hbuilt
      cases hmarked
  have hended : (writerOf instructions).tagOpen = false :=
    Bool.eq_false_iff.mpr (mt (tagOpen_writerOf_iff instructions).mp hclosed)
  obtain ⟨tags, hwritten, hcues⟩ := tells_writerOf hended
  have hmerged := cues?_merge hcues
  rw [hspeech]
  refine ⟨Piece.merge tags, hwritten.scan hescape, _, hmerged, rfl, ?_, ?_, ?_⟩
  · rw [← texts_cues? hmerged, Piece.texts_merge, texts_pieces]
    rfl
  · rw [Piece.filterMap_mark?_merge, filterMap_mark?_pieces]
  · have hbalanced := nests_eq_balanced hmerged 0
    rwa [Piece.filterMap_mark?_merge, filterMap_mark?_pieces, filterMap_starts?] at hbalanced

/-- Instructions with texts that look like markup, and a silence of more than `2 ^ 64` milliseconds. -/
def hostile : List Instruction :=
  [.say "1 < 2 &amp;", .startEmphasis, .say "</emph>", .say "", .endEmphasis,
    .silence ⟨20000000000000000, 250999999⟩, .startEmphasis, .endEmphasis, .say "\""]

theorem markup_decodes_hostile :
    @EscapesMarkup .entities ∧ ¬ EndsInTag hostile ∧
      ∃ speech, ofInstructions StringWriter hostile = .ok speech ∧ speech.isMarked = true ∧
      ∃ pieces, scan speech.contents.toList = some pieces ∧
        cues? pieces = some [.text "1 < 2 &amp;", .mark .startEmphasis, .text "</emph>",
          .mark .endEmphasis, .mark (.pause 20000000000000000250), .mark .startEmphasis,
          .mark .endEmphasis, .text "\""] ∧
        Piece.texts pieces = speech.transcript ∧ nests [] pieces = true := by
  obtain ⟨speech, hbuilt, hmarked⟩ : ∃ speech, ofInstructions StringWriter hostile = .ok speech ∧
      speech.isMarked = true := ⟨_, rfl, rfl⟩
  have hclosed : ¬ EndsInTag hostile := by
    unfold EndsInTag
    decide
  have hmerged : Piece.merge ((audible hostile).map Instruction.piece) = [.text "1 < 2 &amp;",
      .mark .startEmphasis, .text "</emph>", .mark .endEmphasis,
      .mark (.pause 20000000000000000250), .mark .startEmphasis, .mark .endEmphasis, .text "\""] := by
    decide
  obtain ⟨pieces, hscan, cues, hcues, rfl, htexts, -, hbalanced⟩ :=
    markup_decodes escapesMarkup_entities hbuilt hmarked hclosed
  exact ⟨escapesMarkup_entities, hclosed, speech, hbuilt, hmarked, pieces, hscan, hmerged ▸ hcues,
    htexts, hbalanced⟩

/-- A silence of less than a millisecond among the instructions is not found again in the markup. -/
theorem short_silence_untold :
    let instructions : List Instruction := [.startEmphasis, .silence ⟨0, 999999⟩, .endEmphasis]
    ¬ EndsInTag instructions ∧
      ofInstructions StringWriter instructions = .ok (.marked "<emph />" "") ∧
      (scan "<emph />".toList).bind cues? = some [.mark .startEmphasis, .mark .endEmphasis] ∧
      (scan "<emph />".toList).bind cues? ≠
        some (Piece.merge (instructions.map Instruction.piece)) := by
  intro instructions
  have hclosed : ¬ EndsInTag instructions := by
    unfold EndsInTag
    decide
  exact ⟨hclosed, rfl, by decide, by decide⟩

end Colloquy
