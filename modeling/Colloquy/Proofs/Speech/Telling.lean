import Colloquy.Proofs.Speech.Cues
import Colloquy.Proofs.Text.NormalForm
import Mathlib.Data.List.Induction

/-!
# What markup tells

Whatever instructions a writer of markup is given, what it has written tells the cues that they
stand for, in between their texts (`Stands.foldl_put`). Only the last tag may not have come to its
end yet, namely if it starts an emphasis and nothing was written behind it (`tagOpen_writerOf_iff`).
This is shown of the writer to a string, and holds of any writer with the same forms of texts and
tags, as far as it does not fail (`StandardWriter.written_of_output`).
-/

namespace Colloquy

open Text Markup Speech

namespace Speech

/-! ## What instructions tell -/

namespace Instruction

/-- The cue, or the text, that the instruction gives. -/
def piece : Instruction → Piece Cue
  | .say text => .text text
  | .startEmphasis => .mark .startEmphasis
  | .endEmphasis => .mark .endEmphasis
  | .silence length => .mark (.pause length.milliseconds)

/-- A silence of less than a millisecond. -/
def isShortSilence : Instruction → Bool
  | .silence length => length.milliseconds = 0
  | .say _ | .startEmphasis | .endEmphasis => false

end Instruction

/-- The instructions without the silences of less than a millisecond. -/
def audible (instructions : List Instruction) : List Instruction :=
  instructions.filter (!·.isShortSilence)

/-- The last of the instructions starts an emphasis, so that its tag has not come to its end. -/
def EndsInTag (instructions : List Instruction) : Prop :=
  (audible instructions).getLast? = some .startEmphasis

end Speech

/-! ## The tags that are written -/

namespace Markup

theorem tag?_start : tag? "emph".toList = some (.start "emph" []) := by decide

theorem tag?_stop : tag? "/emph".toList = some (.stop "emph") := by decide

theorem tag?_empty : tag? "emph /".toList = some (.empty "emph" []) := by decide

/-- No character of ASCII that leaves ink is blank. -/
theorem isBlank_eq_false_of_ascii {c : Char} (h : 33 ≤ c.toNat ∧ c.toNat ≤ 126) :
    isBlank c = false := by
  rw [isBlank_eq_false_iff]
  intro r hr
  have hapart : r.last < 33 ∨ 126 < r.first := by
    revert r
    decide
  omega

theorem isBlank_eq_false_of_isDigit {c : Char} (h : c.isDigit) : isBlank c = false := by
  have hcode : 48 ≤ c.toNat ∧ c.toNat ≤ 57 := by
    simpa [Char.isDigit, UInt32.le_iff_toNat_le] using h
  exact isBlank_eq_false_of_ascii (by omega)

theorem attribute?_msec {digits : List Char} (h : '"' ∉ digits) :
    attribute? ("msec=\"".toList ++ (digits ++ ['"'])) = some ("msec", String.ofList digits) := by
  have hkey : '"' ∉ "msec=".toList := by decide
  have hcut : "msec=\"".toList ++ (digits ++ ['"']) =
      "msec=".toList ++ '"' :: (digits ++ '"' :: []) := rfl
  have hsplit : ("msec=\"".toList ++ (digits ++ ['"'])).splitOn '"' =
      ["msec=".toList, digits, []] := by
    rw [hcut, List.splitOn_append_cons_self_of_not_mem hkey,
      List.splitOn_append_cons_self_of_not_mem h, List.splitOn_nil]
  rw [attribute?, hsplit]
  rfl

/-- Between the brackets of the tag of a silence there are two words, and the slash. -/
theorem splitWords_silence {digits : List Char} (h : ∀ c ∈ digits, c.isDigit) :
    splitWords ("silence".toList ++ ' ' :: (("msec=\"".toList ++ (digits ++ ['"'])) ++ ' ' :: [])) =
      ["silence".toList, "msec=\"".toList ++ (digits ++ ['"'])] := by
  have hname : ∀ c ∈ "silence".toList, 33 ≤ c.toNat ∧ c.toNat ≤ 126 := by simp
  have hkey : ∀ c ∈ "msec=\"".toList, 33 ≤ c.toNat ∧ c.toNat ≤ 126 := by simp
  have hattribute : ∀ c ∈ "msec=\"".toList ++ (digits ++ ['"']), isBlank c = false := by
    intro c hc
    rcases List.mem_append.mp hc with hc | hc
    · exact isBlank_eq_false_of_ascii (hkey c hc)
    · rcases List.mem_append.mp hc with hc | hc
      · exact isBlank_eq_false_of_isDigit (h c hc)
      · rw [List.mem_singleton.mp hc]
        decide
  rw [splitWords_append_blank _ _ isBlank_space, splitWords_append_blank _ _ isBlank_space,
    splitWords_word (by decide) fun c hc => isBlank_eq_false_of_ascii (hname c hc),
    splitWords_word (by simp) hattribute]
  rfl

theorem tag?_silence {digits : List Char} (h : ∀ c ∈ digits, c.isDigit) :
    tag? ("silence msec=\"".toList ++ digits ++ "\" /".toList) =
      some (.empty "silence" [("msec", String.ofList digits)]) := by
  have hquote : '"' ∉ digits := fun hmem => by simpa using h _ hmem
  have hshape : "silence msec=\"".toList ++ digits ++ "\" /".toList =
      "silence".toList ++ ' ' :: (("msec=\"".toList ++ (digits ++ ['"'])) ++ ' ' :: []) ++ ['/'] := by
    simp
  rw [hshape, tag?, if_neg (by simp), List.getLast?_concat, List.dropLast_concat]
  dsimp only
  rw [if_pos rfl, splitWords_silence h]
  dsimp only
  rw [List.mapM_cons, attribute?_msec hquote]
  rfl

end Markup

variable [Escaping]

/-! ## What a writer has written -/

/-- The characters are those of tags and texts that tell the cues. -/
def Tells (cs : List Char) (cues : List (Piece Cue)) : Prop :=
  ∃ pieces, Written cs pieces ∧ cues? pieces = some cues

namespace Tells

variable {cs : List Char} {cues : List (Piece Cue)}

theorem nil : Tells [] [] := ⟨[], .nil, rfl⟩

theorem text (h : Tells cs cues) (s : String) :
    Tells (cs ++ s.toList.flatMap Escaping.escape) (cues ++ [.text s]) := by
  obtain ⟨pieces, hwritten, hcues⟩ := h
  exact ⟨_, hwritten.text s, cues?_append hcues rfl⟩

theorem tag (h : Tells cs cues) {written : List Char} (hstart : '<' ∉ written)
    (hstop : '>' ∉ written) {tag : Tag} (htag : tag? written = some tag) {told : List Cue}
    (htold : tag.cues? = some told) :
    Tells (cs ++ ('<' :: written ++ ['>'])) (cues ++ told.map .mark) := by
  obtain ⟨pieces, hwritten, hcues⟩ := h
  have hlast : cues? [.mark tag] = some (told.map .mark) :=
    cues?_mark_iff.mpr ⟨told, [], htold, rfl, (List.append_nil _).symm⟩
  exact ⟨_, hwritten.tag hstart hstop htag, cues?_append hcues hlast⟩

end Tells

/-- What the writer has written tells the cues, up to a start tag that still is open. -/
inductive Stands (w : StringWriter) : List (Piece Cue) → Prop
  | closed {cues : List (Piece Cue)} (hopen : w.tagOpen = false) (h : Tells w.written.toList cues) :
    Stands w cues
  | opened {cs : List Char} {cues : List (Piece Cue)} (hopen : w.tagOpen = true)
    (hwritten : w.written.toList = cs ++ "<emph".toList) (h : Tells cs cues) :
    Stands w (cues ++ [.mark .startEmphasis])

namespace Stands

variable {w : StringWriter} {cues : List (Piece Cue)}

/-- The bracket that ends the tag makes it a cue. -/
theorem closeTag (h : Stands w cues) : Tells w.closeTag.written.toList cues := by
  cases h with
  | closed hopen h =>
    rw [StringWriter.closeTag, hopen]
    exact h
  | @opened cs cues hopen hwritten h =>
    have hclosed : w.closeTag.written.toList = cs ++ ('<' :: "emph".toList ++ ['>']) := by
      rw [StringWriter.closeTag, if_pos hopen, String.toList_append, hwritten, List.append_assoc]
      rfl
    rw [hclosed]
    exact h.tag (by decide) (by decide) tag?_start rfl

theorem text (h : Stands w cues) (s : String) : Stands (w.text s) (cues ++ [.text s]) := by
  have hwritten : (w.text s).written.toList =
      w.closeTag.written.toList ++ s.toList.flatMap Escaping.escape := by
    rw [StringWriter.text, String.toList_append, escapeText, String.toList_ofList]
  exact .closed rfl (hwritten ▸ h.closeTag.text s)

theorem startEmphasis (h : Stands w cues) :
    Stands (w.startTag "emph" []) (cues ++ [.mark .startEmphasis]) := by
  refine .opened rfl ?_ h.closeTag
  rw [StringWriter.startTag, String.toList_append, String.toList_append, String.toList_append,
    List.append_assoc, List.append_assoc]
  rfl

/-- An emphasis that is ended at once leaves one tag, which tells its start and its end. -/
theorem endEmphasis (h : Stands w cues) :
    Stands (w.endTag "emph") (cues ++ [.mark .endEmphasis]) := by
  cases h with
  | closed hopen h =>
    rw [StringWriter.endTag, if_neg (by simp [hopen])]
    refine .closed rfl ?_
    rw [String.toList_append, String.toList_append, String.toList_append, List.append_assoc,
      List.append_assoc]
    have htag : Tells (w.written.toList ++ ('<' :: "/emph".toList ++ ['>']))
        (cues ++ [.mark .endEmphasis]) := h.tag (by decide) (by decide) tag?_stop rfl
    exact htag
  | @opened cs earlier hopen hwritten h =>
    rw [StringWriter.endTag, if_pos hopen, List.append_assoc]
    refine .closed rfl ?_
    rw [String.toList_append, hwritten, List.append_assoc]
    have htag : Tells (cs ++ ('<' :: "emph /".toList ++ ['>']))
        (earlier ++ [.mark .startEmphasis, .mark .endEmphasis]) :=
      h.tag (by decide) (by decide) tag?_empty rfl
    exact htag

theorem silence (h : Stands w cues) (milliseconds : Nat) :
    Stands ((w.startTag "silence" [("msec", toString milliseconds)]).endTag "silence")
      (cues ++ [.mark (.pause milliseconds)]) := by
  have hplain : ∀ c, c.isDigit = false → c ∉ "silence msec=\"".toList → c ∉ "\" /".toList →
      c ∉ "silence msec=\"".toList ++ (toString milliseconds).toList ++ "\" /".toList := by
    intro c hc hbefore hafter hmem
    rcases List.mem_append.mp hmem with hmem | hmem
    · rcases List.mem_append.mp hmem with hmem | hmem
      · exact hbefore hmem
      · rw [isDigit_of_mem_toString hmem] at hc
        cases hc
    · exact hafter hmem
  have htold : Tag.cues? (.empty "silence" [("msec", String.ofList (toString milliseconds).toList)]) =
      some [.pause milliseconds] := by
    rw [String.ofList_toList, Tag.cues?, number?_toString]
    rfl
  have htag := h.closeTag.tag (hplain '<' (by decide) (by decide) (by decide))
    (hplain '>' (by decide) (by decide) (by decide)) (tag?_silence fun _ => isDigit_of_mem_toString)
    htold
  have hwritten : ((w.startTag "silence" [("msec", toString milliseconds)]).endTag
      "silence").written.toList = w.closeTag.written.toList ++ ('<' :: ("silence msec=\"".toList ++
        (toString milliseconds).toList ++ "\" /".toList) ++ ['>']) := by
    simp [StringWriter.endTag, StringWriter.startTag, String.join_cons]
  exact .closed rfl (hwritten ▸ htag)

/-- What was written for an instruction tells what the instruction is. -/
theorem pieces (h : Stands w cues) (i : Instruction) :
    Stands (i.pieces.foldl StringWriter.put w)
      (cues ++ (Speech.audible [i]).map Instruction.piece) := by
  cases i with
  | say s => exact h.text s
  | startEmphasis => exact h.startEmphasis
  | endEmphasis => exact h.endEmphasis
  | silence length =>
    rw [Instruction.pieces]
    by_cases hshort : length.milliseconds = 0
    · rw [if_pos hshort]
      simpa [Speech.audible, Instruction.isShortSilence, hshort] using h
    · rw [if_neg hshort]
      simpa [Speech.audible, Instruction.isShortSilence, hshort, Instruction.piece,
        StringWriter.put] using h.silence length.milliseconds

theorem foldl_put (h : Stands w cues) (instructions : List Instruction) :
    Stands ((piecesOf instructions).foldl StringWriter.put w)
      (cues ++ (Speech.audible instructions).map Instruction.piece) := by
  induction instructions generalizing w cues with
  | nil => simpa [Speech.audible, piecesOf] using h
  | cons i instructions ih =>
    have hnext := ih (h.pieces i)
    rw [List.append_assoc, ← List.map_append, ← List.foldl_append] at hnext
    have haudible : Speech.audible [i] ++ Speech.audible instructions =
        Speech.audible (i :: instructions) := (List.filter_append [i] instructions).symm
    rwa [haudible] at hnext

end Stands

/-- The writer to a string, used from the first instruction on. -/
def writerOf (instructions : List Instruction) : StringWriter :=
  (piecesOf instructions).foldl StringWriter.put .empty

theorem tells_writerOf {instructions : List Instruction}
    (h : (writerOf instructions).tagOpen = false) :
    Tells (writerOf instructions).written.toList ((audible instructions).map Instruction.piece) := by
  have hstands : Stands StringWriter.empty [] := .closed rfl .nil
  have hwritten := hstands.foldl_put instructions
  rw [List.nil_append] at hwritten
  generalize (audible instructions).map Instruction.piece = cues at hwritten ⊢
  cases hwritten with
  | closed _ htells => exact htells
  | opened hopen =>
    rw [writerOf, hopen] at h
    cases h

/-- A tag is left open if an emphasis is started last, silences of less than a millisecond apart. -/
theorem tagOpen_writerOf_iff (instructions : List Instruction) :
    (writerOf instructions).tagOpen = true ↔ EndsInTag instructions := by
  induction instructions using List.reverseRecOn with
  | nil => simp [writerOf, piecesOf, StringWriter.empty, EndsInTag, audible]
  | append_singleton instructions i ih =>
    have hlast : writerOf (instructions ++ [i]) =
        i.pieces.foldl StringWriter.put (writerOf instructions) := by
      rw [writerOf, piecesOf, List.flatMap_append, List.foldl_append, List.flatMap_singleton]
      rfl
    rw [hlast, EndsInTag, audible, List.filter_append]
    cases i with
    | say text =>
      simp [Instruction.pieces, StringWriter.put, StringWriter.text, Instruction.isShortSilence]
    | startEmphasis =>
      simp [Instruction.pieces, StringWriter.put, StringWriter.startTag, Instruction.isShortSilence]
    | endEmphasis =>
      rw [Instruction.pieces, List.foldl_cons, List.foldl_nil, StringWriter.put,
        StringWriter.endTag]
      split <;> simp [Instruction.isShortSilence]
    | silence length =>
      by_cases hshort : length.milliseconds = 0
      · simpa [Instruction.pieces, Instruction.isShortSilence, hshort, EndsInTag, audible] using ih
      · simp [Instruction.pieces, Instruction.isShortSilence, hshort, StringWriter.put,
          StringWriter.endTag, StringWriter.startTag]

/-! ## Writers with the usual forms -/

/-- A writer of markup with the usual forms of texts and tags. A write that does not fail adds what
a writer to a string would add. -/
class StandardWriter (ω : Type) [MarkupWriter ω] where
  /-- The writer to a string that has written the same. -/
  view : ω → StringWriter
  view_fresh : view MarkupWriter.fresh = .empty
  view_write : ∀ (piece : MarkupPiece) (w next : ω),
    MarkupWriter.write piece w = (.ok (), next) → view next = (view w).put piece
  written_view : ∀ w : ω, (view w).written = MarkupWriter.written w

namespace StandardWriter

instance : StandardWriter StringWriter where
  view := id
  view_fresh := rfl
  view_write _ _ _ h := (Prod.mk.inj h).2.symm
  written_view _ := rfl

/-- If nothing has failed, the same was written as with a writer to a string. -/
theorem written_of_output {ω : Type} [MarkupWriter ω] [StandardWriter ω]
    {pieces : List MarkupPiece} {w : ω} {written : String}
    (h : MarkupWriter.output pieces w = .ok written) :
    (pieces.foldl StringWriter.put (view w)).written = written := by
  induction pieces generalizing w with
  | nil =>
    cases h
    exact written_view w
  | cons piece pieces ih =>
    rw [MarkupWriter.output] at h
    rcases hwrite : MarkupWriter.write piece w with ⟨_ | ⟨⟩, next⟩
    · rw [hwrite] at h
      cases h
    · rw [hwrite] at h
      rw [List.foldl_cons, ← view_write piece w next hwrite]
      exact ih h

end StandardWriter

end Colloquy
