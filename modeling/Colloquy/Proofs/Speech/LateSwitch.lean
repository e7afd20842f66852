import Colloquy.Speech.Draft

/-!
# The late switch from text to markup

A draft of a speech collects plain text and turns to a writer of markup only when it must. This
cannot be seen from outside: a draft that needs markup gives what a writer that was used from the
first instruction on would have written, or the first failure of that writer; one that needs none
gives the text that was said (`ofInstructions_eq`); and nothing is left behind when a speech is
built, not even a failure (`late_switch_unobservable`). All that counts for this is that texts are written
character by character (`LawfulMarkupWriter`).
-/

namespace Colloquy

namespace Speech.Draft

/-! ## The instructions between builds -/

def Edit.isBuild : Edit → Bool
  | .build => true
  | .add _ => false

def Edit.instruction? : Edit → Option Instruction
  | .add instruction => some instruction
  | .build => none

/-- The instructions for each speech that is built: those since the build before. -/
def parts (edits : List Edit) : List (List Instruction) :=
  ((edits.splitOnP Edit.isBuild).dropLast).map (·.filterMap Edit.instruction?)

theorem splitOnP_adds (instructions : List Instruction) :
    (instructions.map Edit.add).splitOnP Edit.isBuild = [instructions.map Edit.add] :=
  List.splitOnP_eq_singleton fun e he => by
    obtain ⟨i, -, rfl⟩ := List.mem_map.mp he
    rfl

theorem parts_adds (instructions : List Instruction) : parts (instructions.map .add) = [] := by
  rw [parts, splitOnP_adds]
  rfl

theorem parts_adds_build (instructions : List Instruction) (edits : List Edit) :
    parts (instructions.map .add ++ .build :: edits) = instructions :: parts edits := by
  have hadds : (instructions.map Edit.add).filterMap Edit.instruction? = instructions := by
    rw [List.filterMap_map]
    exact List.filterMap_some
  rw [parts, List.splitOnP_append_cons _ _ rfl, splitOnP_adds, List.singleton_append,
    List.dropLast_cons_of_ne_nil (List.splitOnP_ne_nil _ _), List.map_cons, hadds]
  rfl

end Speech.Draft

/-! ## Pieces, one after the other -/

namespace MarkupWriter

variable {ω : Type} [MarkupWriter ω]

theorem output_append_congr {pieces pieces' : List MarkupPiece}
    (h : ∀ w : ω, output pieces w = output pieces' w) (earlier : List MarkupPiece) (w : ω) :
    output (earlier ++ pieces) w = output (earlier ++ pieces') w := by
  induction earlier generalizing w with
  | nil => exact h w
  | cons piece earlier ih =>
    rw [List.cons_append, List.cons_append, output, output]
    rcases write piece w with ⟨_ | _, next⟩
    · rfl
    · exact ih next

end MarkupWriter

namespace StringWriter

variable [Escaping]

theorem escapeText_append (a b : String) : escapeText (a ++ b) = escapeText a ++ escapeText b := by
  rw [escapeText, String.toList_append, List.flatMap_append, String.ofList_append]
  rfl

/-- Texts that are written behind one another might as well be written at once. -/
theorem text_text (w : StringWriter) (a b : String) : (w.text a).text b = w.text (a ++ b) := by
  have hclosed : (w.text a).closeTag = w.text a := rfl
  rw [text, hclosed, text, text, escapeText_append, String.append_assoc]

instance : LawfulMarkupWriter StringWriter where
  output_text_text a b pieces w := congrArg (MarkupWriter.output pieces) (w.text_text a b)
  output_text_empty _ := rfl

end StringWriter

namespace Speech

/-! ## A writer that is used from the start -/

namespace Instruction

/-- What the instruction stands for: one piece of text for a text, the tags of an emphasis or of a
silence, and nothing for a silence of less than a millisecond. -/
def pieces : Instruction → List MarkupPiece
  | .say text => [.text text]
  | .startEmphasis => [.startTag "emph" []]
  | .endEmphasis => [.endTag "emph"]
  | .silence length =>
    if length.milliseconds = 0 then []
    else [.startTag "silence" [("msec", toString length.milliseconds)], .endTag "silence"]

/-- The text that the instruction adds to the transcript. -/
def said : Instruction → String
  | .say text => text
  | .startEmphasis | .endEmphasis | .silence _ => ""

/-- The instruction can only be carried out with markup. -/
def needsMarkup : Instruction → Bool
  | .say _ => false
  | .startEmphasis | .endEmphasis => true
  | .silence length => length.milliseconds ≠ 0

end Instruction

/-- The pieces that instructions stand for, one behind the other. -/
def piecesOf (instructions : List Instruction) : List MarkupPiece :=
  instructions.flatMap Instruction.pieces

/-- The texts that are said, one behind the other. -/
def saidBy (instructions : List Instruction) : String :=
  String.join (instructions.map Instruction.said)

namespace Draft

variable {ω : Type}

/-- The draft is no longer plain text. -/
def isMarkup (d : Draft ω) : Bool :=
  match d.contents with
  | .text _ => false
  | .markup _ => true

/-- As long as a draft is plain text, it holds all that was said, and nothing has failed. -/
def Coherent (d : Draft ω) : Prop :=
  ∀ said, d.contents = .text said → said = d.transcript ∧ d.failure = none

theorem coherent_empty : Coherent (empty : Draft ω) := by
  rintro said ⟨⟩
  exact ⟨rfl, rfl⟩

/-! ## One write -/

theorem wrote_transcript (d : Draft ω) (result : Except MarkupFailure Unit × ω) :
    (d.wrote result).transcript = d.transcript := by
  rcases result with ⟨_ | _, _⟩ <;> rfl

theorem wrote_isMarkup (d : Draft ω) (result : Except MarkupFailure Unit × ω) :
    (d.wrote result).isMarkup = true := by
  rcases result with ⟨_ | _, _⟩ <;> rfl

/-- The first failure stays. -/
theorem wrote_failure {d : Draft ω} {e : MarkupFailure} (h : d.failure = some e)
    (result : Except MarkupFailure Unit × ω) : (d.wrote result).failure = some e := by
  rcases result with ⟨_ | _, _⟩
  · rw [wrote, h]
    rfl
  · exact h

theorem coherent_of_isMarkup {d : Draft ω} (h : d.isMarkup = true) : Coherent d := by
  intro said hsaid
  rw [isMarkup, hsaid] at h
  cases h

variable [MarkupWriter ω]

/-- What a writer that was used from the first instruction on would have written when the pieces are
written as well. -/
def outcome (d : Draft ω) (pieces : List MarkupPiece) : Except MarkupFailure String :=
  match d.failure, d.contents with
  | some e, _ => .error e
  | none, .markup w => MarkupWriter.output pieces w
  | none, .text said => MarkupWriter.output (.text said :: pieces) (MarkupWriter.fresh : ω)

theorem outcome_of_failure {d : Draft ω} {e : MarkupFailure} (h : d.failure = some e)
    (pieces : List MarkupPiece) : d.outcome pieces = .error e := by
  rw [outcome, h]

theorem outcome_wrote {d : Draft ω} (h : d.failure = none) (piece : MarkupPiece) (w : ω)
    (pieces : List MarkupPiece) :
    (d.wrote (MarkupWriter.write piece w)).outcome pieces =
      MarkupWriter.output (piece :: pieces) w := by
  rw [MarkupWriter.output]
  rcases MarkupWriter.write piece w with ⟨e | _, next⟩
  · rw [wrote, outcome, h]
    rfl
  · rw [wrote, outcome, h]

/-! ## One piece -/

theorem append_eq_wrote (d : Draft ω) (piece : MarkupPiece) :
    ∃ result, d.append piece = d.wrote result := by
  rw [append]
  split
  · exact ⟨_, rfl⟩
  · split
    · exact ⟨_, rfl⟩
    · split <;> exact ⟨_, rfl⟩

theorem transcript_append (d : Draft ω) (piece : MarkupPiece) :
    (d.append piece).transcript = d.transcript := by
  obtain ⟨result, happend⟩ := d.append_eq_wrote piece
  rw [happend, wrote_transcript]

theorem isMarkup_append (d : Draft ω) (piece : MarkupPiece) : (d.append piece).isMarkup = true := by
  obtain ⟨result, happend⟩ := d.append_eq_wrote piece
  rw [happend, wrote_isMarkup]

theorem failure_append {d : Draft ω} {e : MarkupFailure} (h : d.failure = some e)
    (piece : MarkupPiece) : (d.append piece).failure = some e := by
  obtain ⟨result, happend⟩ := d.append_eq_wrote piece
  rw [happend, wrote_failure h]

theorem outcome_append [LawfulMarkupWriter ω] (d : Draft ω) (piece : MarkupPiece)
    (pieces : List MarkupPiece) :
    (d.append piece).outcome pieces = d.outcome (piece :: pieces) := by
  cases hfailure : d.failure with
  | some e => rw [outcome_of_failure (failure_append hfailure piece), outcome_of_failure hfailure]
  | none =>
    rw [append, outcome.eq_def d, hfailure]
    rcases d.contents with said | w
    · dsimp only
      by_cases hsaid : said = ""
      · rw [if_pos hsaid, hsaid, LawfulMarkupWriter.output_text_empty, outcome_wrote hfailure]
      · rw [if_neg hsaid, MarkupWriter.output]
        rcases MarkupWriter.write (.text said) (MarkupWriter.fresh : ω) with ⟨e | _, next⟩
        · dsimp only
          rw [wrote, outcome, hfailure]
          rfl
        · exact outcome_wrote hfailure piece next pieces
    · exact outcome_wrote hfailure piece w pieces

/-! ## One instruction -/

theorem add_say_of_text {d : Draft ω} {said : String} (h : d.contents = .text said)
    (text : String) :
    d.add (.say text) = ⟨.text (said ++ text), d.transcript ++ text, d.failure⟩ := by
  rw [add, h]

theorem add_say_of_markup {d : Draft ω} {w : ω} (h : d.contents = .markup w) (text : String) :
    d.add (.say text) = { d.wrote (MarkupWriter.write (.text text) w) with
      transcript := d.transcript ++ text } := by
  rw [add, h]
  dsimp only
  rcases MarkupWriter.write (.text text) w with ⟨_ | _, _⟩ <;> rfl

theorem transcript_add (d : Draft ω) (i : Instruction) :
    (d.add i).transcript = d.transcript ++ i.said := by
  cases i with
  | say text =>
    rcases hcontents : d.contents with said | w
    · rw [add_say_of_text hcontents]
      rfl
    · rw [add_say_of_markup hcontents]
      rfl
  | startEmphasis | endEmphasis => exact (d.transcript_append _).trans String.append_empty.symm
  | silence length =>
    rw [add, Instruction.said, String.append_empty]
    split
    · rfl
    · rw [transcript_append, transcript_append]

theorem isMarkup_add (d : Draft ω) (i : Instruction) :
    (d.add i).isMarkup = (d.isMarkup || i.needsMarkup) := by
  cases i with
  | say text =>
    rw [Instruction.needsMarkup, Bool.or_false]
    rcases hcontents : d.contents with said | w
    · rw [add_say_of_text hcontents, isMarkup, isMarkup, hcontents]
    · rw [add_say_of_markup hcontents, isMarkup, isMarkup, hcontents]
      exact wrote_isMarkup d _
  | startEmphasis | endEmphasis =>
    rw [Instruction.needsMarkup, Bool.or_true]
    exact d.isMarkup_append _
  | silence length =>
    rw [add, Instruction.needsMarkup]
    split <;> simp [*, isMarkup_append]

theorem failure_add {d : Draft ω} {e : MarkupFailure} (h : d.failure = some e) (i : Instruction) :
    (d.add i).failure = some e := by
  cases i with
  | say text =>
    rcases hcontents : d.contents with said | w
    · rw [add_say_of_text hcontents]
      exact h
    · rw [add_say_of_markup hcontents]
      exact wrote_failure h _
  | startEmphasis | endEmphasis => exact failure_append h _
  | silence length =>
    rw [add]
    split
    · exact h
    · exact failure_append (failure_append h _) _

theorem Coherent.add {d : Draft ω} (h : Coherent d) (i : Instruction) : Coherent (d.add i) := by
  cases i with
  | say text =>
    rcases hcontents : d.contents with said | w
    · obtain ⟨rfl, hnone⟩ := h said hcontents
      rw [add_say_of_text hcontents]
      rintro _ ⟨⟩
      exact ⟨rfl, hnone⟩
    · rw [add_say_of_markup hcontents]
      exact coherent_of_isMarkup (wrote_isMarkup d _)
  | startEmphasis | endEmphasis => exact coherent_of_isMarkup (isMarkup_append _ _)
  | silence length =>
    rw [Draft.add]
    split
    · exact h
    · exact coherent_of_isMarkup (isMarkup_append _ _)

/-- What is written for the draft goes on as if it had been written from the start. -/
theorem outcome_add [LawfulMarkupWriter ω] (d : Draft ω) (i : Instruction)
    (pieces : List MarkupPiece) : (d.add i).outcome pieces = d.outcome (i.pieces ++ pieces) := by
  cases hfailure : d.failure with
  | some e => rw [outcome_of_failure (failure_add hfailure i), outcome_of_failure hfailure]
  | none =>
    cases i with
    | say text =>
      rcases hcontents : d.contents with said | w
      · rw [add_say_of_text hcontents, outcome, outcome, hfailure, hcontents]
        exact (LawfulMarkupWriter.output_text_text said text pieces MarkupWriter.fresh).symm
      · rw [add_say_of_markup hcontents, outcome.eq_def d, hfailure, hcontents]
        exact outcome_wrote hfailure (.text text) w pieces
    | startEmphasis | endEmphasis => exact outcome_append d _ pieces
    | silence length =>
      rw [add, Instruction.pieces]
      split
      · rfl
      · rw [outcome_append, outcome_append]
        rfl

/-- A draft that is plain text gives its text, any other what was written, or why it was not. -/
theorem Coherent.build {d : Draft ω} (h : Coherent d) :
    d.build = if d.isMarkup then (d.outcome []).map (.marked · d.transcript)
      else .ok (.plain d.transcript) := by
  rw [Draft.build, isMarkup, outcome]
  rcases hcontents : d.contents with said | w
  · obtain ⟨rfl, hnone⟩ := h said hcontents
    rw [hnone]
    rfl
  · rcases d.failure with _ | e <;> rfl

/-! ## Instructions, one after the other -/

theorem outcome_foldl_add [LawfulMarkupWriter ω] (d : Draft ω) (instructions : List Instruction)
    (pieces : List MarkupPiece) :
    (instructions.foldl add d).outcome pieces = d.outcome (piecesOf instructions ++ pieces) := by
  induction instructions generalizing d with
  | nil => rfl
  | cons i instructions ih =>
    rw [List.foldl_cons, ih, outcome_add, piecesOf, piecesOf, List.flatMap_cons, List.append_assoc]

theorem transcript_foldl_add (d : Draft ω) (instructions : List Instruction) :
    (instructions.foldl add d).transcript = d.transcript ++ saidBy instructions := by
  induction instructions generalizing d with
  | nil => exact (String.append_empty).symm
  | cons i instructions ih =>
    rw [List.foldl_cons, ih, transcript_add, saidBy, saidBy, List.map_cons, String.join_cons,
      String.append_assoc]

theorem isMarkup_foldl_add (d : Draft ω) (instructions : List Instruction) :
    (instructions.foldl add d).isMarkup =
      (d.isMarkup || instructions.any Instruction.needsMarkup) := by
  induction instructions generalizing d with
  | nil => simp
  | cons i instructions ih => rw [List.foldl_cons, ih, isMarkup_add, List.any_cons, Bool.or_assoc]

theorem Coherent.foldl_add {d : Draft ω} (h : Coherent d) (instructions : List Instruction) :
    Coherent (instructions.foldl Draft.add d) := by
  induction instructions generalizing d with
  | nil => exact h
  | cons i instructions ih => exact ih (h.add i)

end Draft

section

variable {ω : Type} [MarkupWriter ω]

/-- A speech that needs markup is what a writer used from the start has written, or the first
failure of that writer, any other the text that was said. -/
theorem ofInstructions_eq [LawfulMarkupWriter ω] (instructions : List Instruction) :
    ofInstructions ω instructions =
      if instructions.any Instruction.needsMarkup then
        (MarkupWriter.output (piecesOf instructions) (MarkupWriter.fresh : ω)).map
          (.marked · (saidBy instructions))
      else .ok (.plain (saidBy instructions)) := by
  have hstart (pieces : List MarkupPiece) : (Draft.empty : Draft ω).outcome pieces =
      MarkupWriter.output pieces (MarkupWriter.fresh : ω) :=
    LawfulMarkupWriter.output_text_empty pieces
  rw [ofInstructions, (Draft.coherent_empty.foldl_add instructions).build,
    Draft.isMarkup_foldl_add, Draft.transcript_foldl_add, Draft.outcome_foldl_add, hstart,
    List.append_nil]
  simp only [Draft.empty, Draft.isMarkup, Bool.false_or, String.empty_append]

/-- Two texts among the instructions may be said at once. -/
theorem ofInstructions_say_say [LawfulMarkupWriter ω] (instructions more : List Instruction)
    (a b : String) :
    ofInstructions ω (instructions ++ .say a :: .say b :: more) =
      ofInstructions ω (instructions ++ .say (a ++ b) :: more) := by
  have hneeds : (instructions ++ .say a :: .say b :: more).any Instruction.needsMarkup =
      (instructions ++ .say (a ++ b) :: more).any Instruction.needsMarkup := by
    simp [Instruction.needsMarkup]
  have hsaid : saidBy (instructions ++ .say a :: .say b :: more) =
      saidBy (instructions ++ .say (a ++ b) :: more) := by
    simp [saidBy, Instruction.said, String.append_assoc]
  have hpieces : MarkupWriter.output (piecesOf (instructions ++ .say a :: .say b :: more))
        (MarkupWriter.fresh : ω) =
      MarkupWriter.output (piecesOf (instructions ++ .say (a ++ b) :: more))
        (MarkupWriter.fresh : ω) := by
    rw [piecesOf, piecesOf, List.flatMap_append, List.flatMap_append]
    exact MarkupWriter.output_append_congr
      (LawfulMarkupWriter.output_text_text a b (piecesOf more)) _ _
  rw [ofInstructions_eq, ofInstructions_eq, hneeds, hsaid, hpieces]

namespace Draft

/-! ## Several speeches -/

/-- What a row of requests to a draft is answered with. -/
def speeches (d : Draft ω) : List Edit → List (Except MarkupFailure Speech)
  | [] => []
  | e :: edits => (d.edit e).1.toList ++ (d.edit e).2.speeches edits

/-- Nothing is left behind when a speech is built. -/
theorem speeches_foldl_add (instructions : List Instruction) (edits : List Edit) :
    (instructions.foldl add (empty : Draft ω)).speeches edits =
      (parts (instructions.map .add ++ edits)).map (ofInstructions ω) := by
  induction edits generalizing instructions with
  | nil =>
    rw [List.append_nil, parts_adds]
    rfl
  | cons e edits ih =>
    cases e with
    | add i =>
      have hnext := ih (instructions ++ [i])
      rw [List.foldl_append, List.map_append, List.append_assoc] at hnext
      exact hnext
    | build =>
      have hfresh := ih []
      rw [parts_adds_build, List.map_cons, ← List.nil_append edits, ← List.map_nil, ← hfresh]
      rfl

/-- What was asked for before makes no difference, if it makes none to the next speech. -/
theorem speeches_congr {instructions instructions' : List Instruction}
    (h : ∀ more, ofInstructions ω (instructions ++ more) = ofInstructions ω (instructions' ++ more))
    (edits : List Edit) :
    (instructions.foldl add (empty : Draft ω)).speeches edits =
      (instructions'.foldl add (empty : Draft ω)).speeches edits := by
  induction edits generalizing instructions instructions' with
  | nil => rfl
  | cons e edits ih =>
    cases e with
    | add i =>
      have hnext := @ih (instructions ++ [i]) (instructions' ++ [i]) fun more => by
        rw [List.append_assoc, List.append_assoc]
        exact h ([i] ++ more)
      rw [List.foldl_append, List.foldl_append] at hnext
      exact hnext
    | build =>
      have hbuilt := h []
      rw [List.append_nil, List.append_nil] at hbuilt
      exact congrArg (· :: (empty : Draft ω).speeches edits) hbuilt

theorem speeches_say_say [LawfulMarkupWriter ω] (instructions : List Instruction)
    (before after : List Edit) (a b : String) :
    (instructions.foldl add (empty : Draft ω)).speeches
        (before ++ .add (.say a) :: .add (.say b) :: after) =
      (instructions.foldl add (empty : Draft ω)).speeches
        (before ++ .add (.say (a ++ b)) :: after) := by
  induction before generalizing instructions with
  | nil =>
    have hsame (more : List Instruction) :
        ofInstructions ω (instructions ++ [.say a, .say b] ++ more) =
          ofInstructions ω (instructions ++ [.say (a ++ b)] ++ more) := by
      rw [List.append_assoc, List.append_assoc]
      exact ofInstructions_say_say instructions more a b
    have hjoined := speeches_congr hsame after
    rw [List.foldl_append, List.foldl_append] at hjoined
    exact hjoined
  | cons e before ih =>
    cases e with
    | add i =>
      have hnext := ih (instructions ++ [i])
      rw [List.foldl_append] at hnext
      exact hnext
    | build => exact congrArg (_ :: ·) (ih [])

end Draft

end

/-- Requests to a draft of a speech, in any order, with any writer that writes texts character by
character and may fail at any piece:

* what each build gives is that of the instructions since the build before, on their own;
* a speech is plain, of the text that was said, if there is no emphasis and no silence of a
  millisecond or more, and otherwise marked with what a writer has written that was used from the
  first instruction on, with the text that was said as its transcript; if that writer fails, its
  first failure is given;
* to say one text and then another is to say both at once, wherever this happens. -/
theorem late_switch_unobservable {ω : Type} [MarkupWriter ω] [LawfulMarkupWriter ω]
    (edits : List Draft.Edit) :
    (Draft.empty : Draft ω).speeches edits = (Draft.parts edits).map (ofInstructions ω) ∧
      (∀ instructions, ofInstructions ω instructions =
        if instructions.any Instruction.needsMarkup then
          (MarkupWriter.output (piecesOf instructions) (MarkupWriter.fresh : ω)).map
            (.marked · (saidBy instructions))
        else .ok (.plain (saidBy instructions))) ∧
      ∀ before after a b,
        (Draft.empty : Draft ω).speeches (before ++ .add (.say a) :: .add (.say b) :: after) =
          (Draft.empty : Draft ω).speeches (before ++ .add (.say (a ++ b)) :: after) :=
  ⟨Draft.speeches_foldl_add [] edits, ofInstructions_eq, Draft.speeches_say_say []⟩

/-- A writer that ends no element. -/
structure EndlessWriter where
  inner : StringWriter
  deriving DecidableEq, Repr

instance [Escaping] : MarkupWriter EndlessWriter where
  fresh := ⟨.empty⟩
  write
    | .endTag name, w => (.error ⟨"end of " ++ name⟩, w)
    | piece, w => (.ok (), ⟨w.inner.put piece⟩)
  written w := w.inner.written

/-- A silence of less than a millisecond, one of a millisecond, and two speeches built. -/
def interrupted : List Draft.Edit :=
  [.add (.say "a"), .add (.silence ⟨0, 999999⟩), .add (.say "<"), .build,
    .add (.say "<"), .add (.silence ⟨0, 1000000⟩), .add .endEmphasis, .build, .add (.say "b"),
    .build]

/-- With a writer to a string, and with one that fails: its first failure is given once. -/
theorem late_switch_unobservable_interrupted :
    LawfulMarkupWriter StringWriter ∧ LawfulMarkupWriter EndlessWriter ∧
      (Draft.empty : Draft StringWriter).speeches interrupted =
        [.ok (.plain "a<"), .ok (.marked "&lt;<silence msec=\"1\" /></emph>" "<"),
          .ok (.plain "b")] ∧
      (Draft.empty : Draft EndlessWriter).speeches interrupted =
        [.ok (.plain "a<"), .error ⟨"end of silence"⟩, .ok (.plain "b")] := by
  have hlawful : LawfulMarkupWriter EndlessWriter :=
    ⟨fun a b pieces w => congrArg (fun w => MarkupWriter.output pieces (EndlessWriter.mk w))
      (w.inner.text_text a b), fun _ => rfl⟩
  exact ⟨inferInstance, hlawful, (late_switch_unobservable interrupted).1.trans rfl,
    (late_switch_unobservable interrupted).1.trans rfl⟩

end Speech

end Colloquy
