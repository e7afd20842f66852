import Colloquy.Proofs.Engine.TypedLines
import Colloquy.Proofs.Session.Silence

/-!
# Listening over typed input

A session over typed input reads its lines one by one. It passes over those the grammar does not
accept (`silence_of_rejected`), stops behind the first one that is accepted, and gives up at the end
of the input. Afterwards it is at rest again, with the lines that follow still to be read.
-/

namespace Colloquy

open Text

variable {g : Grammar}

/-- Lines that are not accepted are a silence, one attempt each. -/
theorem TypedInput.silence_of_rejected (timeout : Duration) {input : TypedInput}
    (hloaded : input.loaded = some g) (hending : input.ending = .closed)
    {before rest : List (List UInt8)} (hlines : lines input.unread = before ++ rest)
    (hrejected : ∀ line ∈ before, g.recognize (decodeUtf8 line) = none) :
    Engine.Silence timeout before.length input { input with unread := rest.flatten } := by
  induction before generalizing input with
  | nil =>
    rw [List.nil_append] at hlines
    rw [← hlines, lines_flatten]
    exact .none input
  | cons line before ih =>
    obtain ⟨hline, hbefore⟩ := List.forall_mem_cons.mp hrejected
    rw [List.cons_append] at hlines
    have hattempt := attempt_cons hloaded hlines (Or.inl hending)
    rw [hline] at hattempt
    exact .attempt hattempt (ih hloaded hending (lines_flatten_of_cons hlines) hbefore)

namespace Session

/-- Nothing is loaded, neither for the session nor for the engine, and the input ends without a
failure. -/
structure AtRest (s : Session TypedInput) : Prop where
  active : s.active = none
  loaded : s.world.loaded = none
  ending : s.world.ending = .closed

/-- The same session, with only the lines `rest` left to read. -/
def reading (s : Session TypedInput) (rest : List (List UInt8)) : Session TypedInput :=
  { s with world := { s.world with unread := rest.flatten } }

theorem AtRest.reading {s : Session TypedInput} (h : s.AtRest) (rest : List (List UInt8)) :
    (s.reading rest).AtRest := ⟨h.active, h.loaded, h.ending⟩

/-! ## From rest to rest -/

variable {s : Session TypedInput} {before rest : List (List UInt8)}

/-- Listening ends behind lines that are not accepted if the attempt that follows is answered. -/
theorem ends_after_rejected (h : s.AtRest) (hlines : lines s.world.unread = before ++ rest)
    (hrejected : ∀ line ∈ before, g.recognize (decodeUtf8 line) = none)
    {later : List (List UInt8)} (answer : Except EngineFailure Recognition)
    (hattempt : (⟨rest.flatten, .closed, some g⟩ : TypedInput).attempt =
      (answer.map some, ⟨later.flatten, .closed, some g⟩)) :
    s.Ends g (listenCalls g s.config.attemptTimeout before.length (answer.map some) (.ok ()))
      (conclusion g answer (.ok ())) (s.reading later) := by
  rcases s with ⟨⟨unread, ending, loaded⟩, config, active⟩
  obtain ⟨rfl, rfl, rfl⟩ := h
  let start : TypedInput := ⟨unread, .closed, some g⟩
  have hload : Engine.load g (⟨unread, .closed, none⟩ : TypedInput) = (.ok (), start) := rfl
  have hsilence : Engine.Silence config.attemptTimeout before.length start
      ⟨rest.flatten, .closed, some g⟩ :=
    TypedInput.silence_of_rejected _ rfl rfl hlines hrejected
  exact .of_answer rfl answer hload hsilence hattempt rfl

/-- Listening hears the first line that is accepted. -/
theorem ends_of_accepted (h : s.AtRest) {line : List UInt8} {heard : Recognition}
    (hlines : lines s.world.unread = before ++ line :: rest)
    (hrejected : ∀ l ∈ before, g.recognize (decodeUtf8 l) = none)
    (haccepted : g.recognize (decodeUtf8 line) = some heard) :
    s.Ends g (listenCalls g s.config.attemptTimeout before.length (.ok (some heard)) (.ok ()))
      (.ok (.ofRecognition g heard)) (s.reading rest) := by
  have hnext := lines_flatten_of_append hlines
  refine ends_after_rejected h hlines hrejected (.ok heard) ?_
  rw [TypedInput.attempt_cons rfl hnext (Or.inl rfl), haccepted]
  rfl

/-- Listening meets the end of the input if no line is accepted. -/
theorem ends_of_all_rejected (h : s.AtRest)
    (hrejected : ∀ l ∈ lines s.world.unread, g.recognize (decodeUtf8 l) = none) :
    s.Ends g (listenCalls g s.config.attemptTimeout (lines s.world.unread).length
        (.error .inputClosed) (.ok ()))
      (.error (.recognitionEngine .inputClosed)) (s.reading []) := by
  have hlines : lines s.world.unread = lines s.world.unread ++ [] := (List.append_nil _).symm
  exact ends_after_rejected h hlines hrejected (.error .inputClosed) rfl

/-- Some line is the first that is accepted, unless none is. -/
theorem first_accepted_or_all_rejected (g : Grammar) (ls : List (List UInt8)) :
    (∃ before line rest heard, ls = before ++ line :: rest ∧
        (∀ l ∈ before, g.recognize (decodeUtf8 l) = none) ∧
        g.recognize (decodeUtf8 line) = some heard) ∨
      ∀ l ∈ ls, g.recognize (decodeUtf8 l) = none := by
  induction ls with
  | nil => exact Or.inr (List.forall_mem_nil _)
  | cons line ls ih =>
    cases hline : g.recognize (decodeUtf8 line) with
    | some heard => exact Or.inl ⟨[], line, ls, heard, rfl, List.forall_mem_nil _, hline⟩
    | none =>
      rcases ih with ⟨before, next, rest, heard, rfl, hrejected, haccepted⟩ | hrejected
      · refine Or.inl ⟨line :: before, next, rest, heard, rfl, ?_, haccepted⟩
        exact List.forall_mem_cons.mpr ⟨hline, hrejected⟩
      · exact Or.inr (List.forall_mem_cons.mpr ⟨hline, hrejected⟩)

/-- Listening over typed input ends. It hears the first line that is accepted, reads no further,
and makes one attempt for each line it reads; without such a line it reads all lines and meets the
end of the input with one attempt more. Either way nothing is loaded afterwards, and the lines that
were not read are still there. -/
theorem listen_first_accepted (g : Grammar) (s : Session TypedInput) (h : s.AtRest) :
    (∃ calls answer after, s.Ends g calls answer after) ∧
      (∀ before line rest heard, lines s.world.unread = before ++ line :: rest →
        (∀ l ∈ before, g.recognize (decodeUtf8 l) = none) →
        g.recognize (decodeUtf8 line) = some heard →
        s.Ends g (listenCalls g s.config.attemptTimeout before.length (.ok (some heard)) (.ok ()))
            (.ok ⟨heard.text, heard.confidence, g.extract heard.slots⟩) (s.reading rest) ∧
          lines (s.reading rest).world.unread = rest ∧ (s.reading rest).AtRest) ∧
      ((∀ l ∈ lines s.world.unread, g.recognize (decodeUtf8 l) = none) →
        s.Ends g (listenCalls g s.config.attemptTimeout (lines s.world.unread).length
              (.error .inputClosed) (.ok ()))
            (.error (.recognitionEngine .inputClosed)) (s.reading []) ∧
          lines (s.reading []).world.unread = [] ∧ (s.reading []).AtRest) := by
  refine ⟨?_, ?_, ?_⟩
  · rcases first_accepted_or_all_rejected g (lines s.world.unread) with
      ⟨before, line, rest, heard, hlines, hrejected, haccepted⟩ | hrejected
    · exact ⟨_, _, _, ends_of_accepted h hlines hrejected haccepted⟩
    · exact ⟨_, _, _, ends_of_all_rejected h hrejected⟩
  · intro before line rest heard hlines hrejected haccepted
    have hbehind : lines rest.flatten = rest :=
      lines_flatten_of_cons (lines_flatten_of_append hlines)
    exact ⟨ends_of_accepted h hlines hrejected haccepted, hbehind, h.reading rest⟩
  · intro hrejected
    exact ⟨ends_of_all_rejected h hrejected, rfl, h.reading []⟩

/-- A session in which two lines are read and one is left. -/
def greetingSession : Session TypedInput :=
  new (.ofBytes (utf8 "Hello\nhello   COMPUTER \nMy name is Kai")) .usual

theorem listen_first_accepted_greeting :
    greetingSession.AtRest ∧
      ∃ heard, Turn.greeting.grammar.recognize "hello   COMPUTER \n" = some heard ∧
      greetingSession.Ends Turn.greeting.grammar
        (listenCalls Turn.greeting.grammar ⟨10, 0⟩ 1 (.ok (some heard)) (.ok ()))
        (.ok ⟨heard.text, heard.confidence, Turn.greeting.grammar.extract heard.slots⟩)
        (greetingSession.reading [utf8 "My name is Kai"]) := by
  have hrest : greetingSession.AtRest := ⟨rfl, rfl, rfl⟩
  have hlines : lines greetingSession.world.unread =
      [utf8 "Hello\n"] ++ utf8 "hello   COMPUTER \n" :: [utf8 "My name is Kai"] := by
    decide +kernel
  have hrejected : Turn.greeting.grammar.recognize "Hello\n" = none := by
    rw [← Option.isNone_iff_eq_none]
    decide +kernel
  have haccepted : (Turn.greeting.grammar.recognize "hello   COMPUTER \n").isSome = true := by
    decide +kernel
  obtain ⟨heard, hheard⟩ := Option.isSome_iff_exists.mp haccepted
  have hall := (listen_first_accepted Turn.greeting.grammar greetingSession hrest).2.1 _ _ _ heard
    hlines (by simpa [decodeUtf8_utf8] using hrejected) (by rw [decodeUtf8_utf8, hheard])
  exact ⟨hrest, heard, hheard, hall.1⟩

end Session

end Colloquy
