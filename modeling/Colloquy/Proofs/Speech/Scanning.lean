import Colloquy.Speech.Markup
import Colloquy.Text.Words

/-!
# Scanning markup

Markup is scanned into tags and text: it is cut where tags begin and end, and the references in the
text between them are replaced by the characters they stand for. Tags and texts that are written
behind one another are scanned as they were written, but for texts without a tag between them, which
are read as one, and for empty texts (`Written.scan`). All this takes is that no character of a text
is written such that it could be taken for markup (`EscapesMarkup`).
-/

namespace Colloquy.Markup

open Text

/-! ## Rows of marks and texts -/

/-- A mark, or text that stands between marks. -/
inductive Piece (α : Type)
  | mark (a : α)
  | text (s : String)
  deriving DecidableEq, Repr

namespace Piece

variable {α : Type}

/-- Puts text in front of pieces, joined with the text they begin with. -/
def consText (s : String) : List (Piece α) → List (Piece α)
  | .text t :: pieces => .text (s ++ t) :: pieces
  | pieces => if s = "" then pieces else .text s :: pieces

/-- Puts a piece in front of others. -/
def cons : Piece α → List (Piece α) → List (Piece α)
  | .mark a, pieces => .mark a :: pieces
  | .text s, pieces => consText s pieces

/-- Joins texts without a mark between them, and leaves out empty ones. -/
def merge (pieces : List (Piece α)) : List (Piece α) := pieces.foldr cons []

theorem consText_consText (s t : String) (pieces : List (Piece α)) :
    consText s (consText t pieces) = consText (s ++ t) pieces := by
  rcases pieces with _ | ⟨a | u, pieces⟩
  · by_cases ht : t = "" <;> by_cases hs : s = "" <;> simp [consText, hs, ht]
  · by_cases ht : t = "" <;> by_cases hs : s = "" <;> simp [consText, hs, ht]
  · simp [consText, String.append_assoc]

theorem merge_marks (marks : List α) (pieces : List (Piece α)) :
    merge (marks.map .mark ++ pieces) = marks.map .mark ++ merge pieces := by
  induction marks with
  | nil => rfl
  | cons a marks ih => exact congrArg (Piece.mark a :: ·) ih

end Piece

/-! ## References -/

/-- The characters that have a name in markup. -/
def entities : List (List Char × Char) :=
  [("lt".toList, '<'), ("gt".toList, '>'), ("amp".toList, '&'), ("quot".toList, '"'),
    ("apos".toList, '\x27')]

/-- The character of that name. -/
def entity? (name : List Char) : Option Char := (entities.find? (·.1 == name)).map (·.2)

/-- Replaces references by what they stand for. In a reference, the part of its name that has been
read is given. -/
def decodeFrom : Option (List Char) → List Char → Option (List Char)
  | none, [] => some []
  | some _, [] => none
  | none, c :: cs => if c = '&' then decodeFrom (some []) cs else (decodeFrom none cs).map (c :: ·)
  | some name, c :: cs =>
    if c = ';' then do return (← entity? name) :: (← decodeFrom none cs)
    else decodeFrom (some (name ++ [c])) cs

/-- The text that is written with references. -/
def decode (cs : List Char) : Option String := (decodeFrom none cs).map String.ofList

/-- Each character of a text is written as it is, if it cannot be taken for markup, or else by its
name. -/
def EscapesMarkup [Escaping] : Prop :=
  ∀ c, (Escaping.escape c = [c] ∧ c ≠ '<' ∧ c ≠ '&') ∨
    ∃ name, entity? name = some c ∧ Escaping.escape c = '&' :: name ++ [';']

/-- The usual escaping leaves no markup in texts. -/
theorem escapesMarkup_entities : @EscapesMarkup .entities := by
  intro c
  change (escapeChar c = [c] ∧ _) ∨ ∃ name, entity? name = some c ∧ escapeChar c = _
  unfold escapeChar
  split
  · exact Or.inr ⟨"lt".toList, rfl, rfl⟩
  · exact Or.inr ⟨"gt".toList, rfl, rfl⟩
  · exact Or.inr ⟨"amp".toList, rfl, rfl⟩
  · next hlt hgt hamp => exact Or.inl ⟨rfl, hlt, hamp⟩

theorem mem_entities {name : List Char} {c : Char} (h : entity? name = some c) :
    (name, c) ∈ entities := by
  rw [entity?, Option.map_eq_some_iff] at h
  obtain ⟨⟨found, _⟩, hfind, rfl⟩ := h
  have hname : found = name := by simpa using List.find?_some hfind
  exact hname ▸ List.mem_of_find?_eq_some hfind

theorem entities_plain : ∀ entity ∈ entities, ';' ∉ entity.1 ∧ '<' ∉ entity.1 := by decide

theorem decodeFrom_name {name : List Char} (h : ';' ∉ name) (read cs : List Char) :
    decodeFrom (some read) (name ++ ';' :: cs) = decodeFrom (some (read ++ name)) (';' :: cs) := by
  induction name generalizing read with
  | nil => rw [List.nil_append, List.append_nil]
  | cons c name ih =>
    obtain ⟨hc, hname⟩ := not_or.mp (mt List.mem_cons.mpr h)
    rw [List.cons_append, decodeFrom, if_neg (Ne.symm hc), ih hname, List.append_assoc,
      List.singleton_append]

section

variable [Escaping] (h : EscapesMarkup)

include h

theorem decodeFrom_escape (c : Char) (cs : List Char) :
    decodeFrom none (Escaping.escape c ++ cs) = (decodeFrom none cs).map (c :: ·) := by
  obtain ⟨hescape, -, hc⟩ | ⟨name, hname, hescape⟩ := h c
  · rw [hescape, List.singleton_append, decodeFrom, if_neg hc]
  · have hplain := (entities_plain _ (mem_entities hname)).1
    rw [hescape, List.cons_append, List.cons_append, decodeFrom, if_pos rfl, List.append_assoc,
      List.singleton_append, decodeFrom_name hplain, List.nil_append, decodeFrom, if_pos rfl, hname]
    cases decodeFrom none cs <;> rfl

theorem decodeFrom_escaped (text cs : List Char) :
    decodeFrom none (text.flatMap Escaping.escape ++ cs) =
      (decodeFrom none cs).map (text ++ ·) := by
  induction text with
  | nil => simp
  | cons c text ih =>
    rw [List.flatMap_cons, List.append_assoc, decodeFrom_escape h, ih, Option.map_map]
    rfl

/-- The text that is written for a text is that text. -/
theorem decode_escaped (text : String) (cs : List Char) :
    decode (text.toList.flatMap Escaping.escape ++ cs) = (decode cs).map (text ++ ·) := by
  rw [decode, decodeFrom_escaped h, decode, Option.map_map, Option.map_map]
  congr 1
  funext rest
  rw [Function.comp_apply, Function.comp_apply, String.ofList_append, String.ofList_toList]

/-- No text begins a tag. -/
theorem not_mem_escaped (text : List Char) : '<' ∉ text.flatMap Escaping.escape := by
  rw [List.mem_flatMap]
  rintro ⟨c, -, hmem⟩
  obtain ⟨hescape, hc, -⟩ | ⟨name, hname, hescape⟩ := h c
  · rw [hescape, List.mem_singleton] at hmem
    exact hc hmem.symm
  · have hplain := (entities_plain _ (mem_entities hname)).2
    rw [hescape] at hmem
    simp [hplain] at hmem

end

/-! ## Tags -/

inductive Tag
  | start (name : String) (attributes : List (String × String))
  | stop (name : String)
  /-- A start with its end. -/
  | empty (name : String) (attributes : List (String × String))
  deriving DecidableEq, Repr

/-- A name, and a value in quotation marks. -/
def attribute? (written : List Char) : Option (String × String) :=
  match written.splitOn '"' with
  | [key, value, []] =>
    if key.getLast? = some '=' then some (String.ofList key.dropLast, String.ofList value) else none
  | _ => none

/-- The tag of which this stands between the brackets. -/
def tag? (written : List Char) : Option Tag :=
  if written.head? = some '/' then some (.stop (String.ofList written.tail))
  else
    let isEmpty := written.getLast? = some '/'
    match splitWords (if isEmpty then written.dropLast else written) with
    | [] => none
    | name :: attributes => do
      let attributes ← attributes.mapM attribute?
      return if isEmpty then .empty (String.ofList name) attributes
        else .start (String.ofList name) attributes

/-! ## Scanning -/

/-- The tags and texts of markup that was cut where tags begin. -/
def scanTags : List (List Char) → Option (List (Piece Tag))
  | [] => some []
  | written :: more =>
    match written.dropWhile (· ≠ '>') with
    | [] => none
    | _ :: text => do
      let tag ← tag? (written.takeWhile (· ≠ '>'))
      return .mark tag :: Piece.consText (← decode text) (← scanTags more)

/-- The tags and texts of markup, if all tags come to their end and all references are known. -/
def scan (markup : List Char) : Option (List (Piece Tag)) :=
  match markup.splitOn '<' with
  | [] => none
  | text :: tags => do return Piece.consText (← decode text) (← scanTags tags)

theorem splitOn_append {xs : List Char} (h : '<' ∉ xs) (cs : List Char) :
    (xs ++ cs).splitOn '<' = (cs.splitOn '<').modifyHead (xs ++ ·) := by
  induction xs with
  | nil =>
    cases hcs : cs.splitOn '<' <;> simp [hcs]
  | cons x xs ih =>
    obtain ⟨hx, hxs⟩ := not_or.mp (mt List.mem_cons.mpr h)
    rw [List.cons_append, List.splitOn_cons_eq_if_modifyHead, if_neg (by simpa using Ne.symm hx),
      ih hxs, List.modifyHead_modifyHead]
    rfl

theorem scan_escaped [Escaping] (h : EscapesMarkup) (text : String) (cs : List Char) :
    scan (text.toList.flatMap Escaping.escape ++ cs) = (scan cs).map (Piece.consText text) := by
  rw [scan, splitOn_append (not_mem_escaped h _), scan]
  cases hcs : cs.splitOn '<' with
  | nil => exact absurd hcs (List.splitOn_ne_nil _ _)
  | cons first tags =>
    rw [List.modifyHead_cons]
    dsimp only
    rw [decode_escaped h]
    cases decode first with
    | none => rfl
    | some rest =>
      cases scanTags tags with
      | none => rfl
      | some pieces => exact congrArg some (Piece.consText_consText text rest pieces).symm

theorem scan_tag {written : List Char} (hstart : '<' ∉ written) (hstop : '>' ∉ written) {tag : Tag}
    (htag : tag? written = some tag) (cs : List Char) :
    scan ('<' :: written ++ '>' :: cs) = (scan cs).map (.mark tag :: ·) := by
  have hplain : '<' ∉ written ++ ['>'] := by simp [hstart]
  have hinside : ∀ c ∈ written, decide (c ≠ '>') = true := fun c hc =>
    decide_eq_true fun he => hstop (he ▸ hc)
  have hcut : ∀ text, (written ++ '>' :: text).takeWhile (· ≠ '>') = written ∧
      (written ++ '>' :: text).dropWhile (· ≠ '>') = '>' :: text := by
    intro text
    rw [List.takeWhile_append_of_pos hinside, List.dropWhile_append_of_pos hinside]
    simp
  have hnothing : decode [] = some "" := rfl
  rw [List.cons_append, List.append_cons written, scan, List.splitOn_cons_eq_if_modifyHead,
    if_pos (beq_self_eq_true _), splitOn_append hplain, scan]
  cases hcs : cs.splitOn '<' with
  | nil => exact absurd hcs (List.splitOn_ne_nil _ _)
  | cons text tags =>
    rw [List.modifyHead_cons, List.append_assoc, List.singleton_append]
    dsimp only
    rw [scanTags, (hcut text).1, (hcut text).2, htag, hnothing]
    dsimp only
    cases decode text with
    | none => rfl
    | some rest => cases scanTags tags <;> rfl

/-! ## Pieces behind one another -/

section

variable [Escaping]

/-- The characters that are written for pieces, one behind the other. -/
inductive Written : List Char → List (Piece Tag) → Prop
  | nil : Written [] []
  | text {cs : List Char} {pieces : List (Piece Tag)} (h : Written cs pieces) (text : String) :
    Written (cs ++ text.toList.flatMap Escaping.escape) (pieces ++ [.text text])
  | tag {cs written : List Char} {pieces : List (Piece Tag)} {tag : Tag} (h : Written cs pieces)
    (hstart : '<' ∉ written) (hstop : '>' ∉ written) (htag : tag? written = some tag) :
    Written (cs ++ ('<' :: written ++ ['>'])) (pieces ++ [.mark tag])

theorem Written.scan_append {cs : List Char} {pieces : List (Piece Tag)} (hescape : EscapesMarkup)
    (h : Written cs pieces) (rest : List Char) :
    scan (cs ++ rest) = (scan rest).map (pieces.foldr Piece.cons ·) := by
  induction h generalizing rest with
  | nil => simp
  | text _ text ih =>
    rw [List.append_assoc, ih, scan_escaped hescape, Option.map_map]
    simp only [List.foldr_append]
    rfl
  | @tag _ written _ tag _ hstart hstop htag ih =>
    rw [List.append_assoc, List.append_assoc, List.singleton_append, ih,
      scan_tag hstart hstop htag, Option.map_map]
    simp only [List.foldr_append]
    rfl

/-- What was written is scanned as it was written. -/
theorem Written.scan {cs : List Char} {pieces : List (Piece Tag)} (hescape : EscapesMarkup)
    (h : Written cs pieces) : scan cs = some (Piece.merge pieces) := by
  have hscan := h.scan_append hescape []
  rwa [List.append_nil] at hscan

end

end Colloquy.Markup
