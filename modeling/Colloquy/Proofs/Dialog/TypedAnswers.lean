import Colloquy.CommandLine
import Colloquy.Proofs.Dialog.Answerable
import Colloquy.Proofs.Dialog.Unfailing
import Colloquy.Proofs.Session.FirstAccepted

/-!
# Dialogs over typed answers

A dialog over typed input answers each turn with the first of the lines left that its grammar
accepts. That is as good as any choice of lines, so with a voice and a display that do not fail the
dialog comes to its end exactly if its turns can be answered (`run_ok_iff_answerable`). Otherwise it
ends for want of input, in the first turn that cannot be answered along with those before it.
-/

namespace Colloquy

open Text

/-- Some line is the first that the turn accepts, unless it accepts none. -/
theorem Turn.first_accepted_or_all_rejected (turn : Turn) (ls : List (List UInt8)) :
    (∃ before line rest, ls = before ++ line :: rest ∧ (∀ l ∈ before, ¬ turn.Accepts l) ∧
        turn.Accepts line) ∨
      ∀ l ∈ ls, ¬ turn.Accepts l := by
  rcases Session.first_accepted_or_all_rejected turn.grammar ls with
    ⟨before, line, rest, heard, hls, hrejected, haccepted⟩ | hrejected
  · refine Or.inl ⟨before, line, rest, hls, ?_, heard, haccepted⟩
    exact fun l hl => Turn.not_accepts_iff.mpr (hrejected l hl)
  · exact Or.inr fun l hl => Turn.not_accepts_iff.mpr (hrejected l hl)

namespace Dialog

variable {υ δ : Type} [Voice υ] [Display δ]

/-- Nothing is loaded, the lines `ls` are left to be read, and neither the voice nor the display
fails. -/
structure Ready (s : Session (Stage TypedInput υ δ)) (ls : List (List UInt8)) : Prop where
  atRest : s.offstage.AtRest
  unread : lines s.offstage.world.unread = ls
  voice : Voice.Unfailing s.world.voice
  display : Display.Unfailing s.world.display

namespace Ready

variable {s : Session (Stage TypedInput υ δ)} {ls : List (List UInt8)}

/-! ## Lines that are said -/

theorem say (h : Ready s ls) (speech : Speech) :
    ∃ after, Dialog.say speech s = (.ok (), after) ∧ Ready after ls := by
  obtain ⟨display, hwrite, hdisplay⟩ := h.display.writeLine speech.transcript
  obtain ⟨voice, hspeak, hvoice⟩ := h.voice.speak speech
  refine ⟨{ s with world := { s.world with voice, display } }, ?_,
    h.atRest, h.unread, hvoice, hdisplay⟩
  rw [say_apply]
  simp only [Stage.writeLine_eq, hwrite, Stage.speak_eq, hspeak]

theorem reply (h : Ready s ls) (turn : Turn) (phrase : Phrase) :
    ∃ after, Dialog.reply turn phrase s = (.ok (), after) ∧ Ready after ls :=
  reply_succeeds (fun _ h => h.say)
    (fun _ h color => ⟨h.atRest, h.unread, h.voice, h.display.setHighlight color⟩) h turn phrase

/-! ## Listening -/

variable {patience : Nat} {turn : Turn} {before rest : List (List UInt8)} {line : List UInt8}

theorem listen_accepted (h : Ready s (before ++ line :: rest))
    (hrejected : ∀ l ∈ before, ¬ turn.Accepts l) (haccepts : turn.Accepts line)
    (hpatience : before.length < patience) :
    ∃ phrase after, Dialog.listen patience turn.grammar s = (.ok phrase, after) ∧
      Ready after rest := by
  obtain ⟨heard, hheard⟩ := haccepts
  have hends := Session.ends_of_accepted h.atRest h.unread
    (fun l hl => Turn.not_accepts_iff.mp (hrejected l hl)) hheard
  have hlisten := hends.answered patience (by rwa [countP_listenCalls])
  refine ⟨.ofRecognition turn.grammar heard,
    (s.offstage.reading rest).staged s.world.voice s.world.display, ?_,
    h.atRest.reading rest, lines_flatten_of_cons (lines_flatten_of_append h.unread),
    h.voice, h.display⟩
  rw [Dialog.listen, Session.listen_offstage, hlisten]

theorem listen_rejected (h : Ready s ls) (hrejected : ∀ l ∈ ls, ¬ turn.Accepts l)
    (hpatience : ls.length < patience) :
    ∃ after, Dialog.listen patience turn.grammar s =
      (.error (.failed (.recognitionEngine .inputClosed)), after) := by
  obtain ⟨hrest, rfl, -, -⟩ := h
  have hends := Session.ends_of_all_rejected hrest
    fun l hl => Turn.not_accepts_iff.mp (hrejected l hl)
  have hlisten := hends.answered patience (by rwa [countP_listenCalls])
  refine ⟨(s.offstage.reading []).staged s.world.voice s.world.display, ?_⟩
  rw [Dialog.listen, Session.listen_offstage, hlisten]

/-! ## Turns -/

/-- A turn takes the lines up to the first that is accepted. -/
theorem runTurn_accepted (h : Ready s (before ++ line :: rest))
    (hrejected : ∀ l ∈ before, ¬ turn.Accepts l) (haccepts : turn.Accepts line)
    (hpatience : before.length < patience) :
    ∃ phrase after, runTurn patience turn s = (.ok phrase, after) ∧ Ready after rest := by
  obtain ⟨prompted, hprompt, hready⟩ := h.say (.plain turn.prompt)
  obtain ⟨phrase, answered, hlisten, hready⟩ :=
    hready.listen_accepted hrejected haccepts hpatience
  obtain ⟨reported, hreport, hready⟩ := hready.say (.plain (reportLine phrase))
  obtain ⟨after, hreply, hready⟩ := hready.reply turn phrase
  refine ⟨phrase, after, ?_, hready⟩
  simp only [runTurn, Act.bind_apply, hprompt, hlisten, hreport, hreply, Act.pure_apply]

theorem runTurn_rejected (h : Ready s ls) (hrejected : ∀ l ∈ ls, ¬ turn.Accepts l)
    (hpatience : ls.length < patience) :
    ∃ after, runTurn patience turn s =
      (.error (.failed (.recognitionEngine .inputClosed)), after) := by
  obtain ⟨prompted, hprompt, hready⟩ := h.say (.plain turn.prompt)
  obtain ⟨after, hlisten⟩ := hready.listen_rejected hrejected hpatience
  refine ⟨after, ?_⟩
  simp only [runTurn, Act.bind_apply, hprompt, hlisten]

/-- Turns succeed if they can be answered. Otherwise they fail in the first turn that cannot be
answered along with those before it. -/
theorem takeTurns (h : Ready s ls) (turns : List Turn) (hpatience : ls.length < patience) :
    (Answerable turns ls ∧
        ∃ after rest, Dialog.takeTurns patience turns s = (.ok (), after) ∧ Ready after rest) ∨
      ∃ asked turn later after, turns = asked ++ turn :: later ∧ Answerable asked ls ∧
        ¬ Answerable (asked ++ [turn]) ls ∧ Dialog.takeTurns patience turns s =
          (.error (.failed (.turn turn (.recognitionEngine .inputClosed))), after) := by
  induction turns generalizing s ls with
  | nil => exact Or.inl ⟨answerable_nil ls, s, ls, takeTurns_nil patience s, h⟩
  | cons turn turns ih =>
    rcases turn.first_accepted_or_all_rejected ls with
      ⟨before, line, rest, rfl, hrejected, haccepts⟩ | hrejected
    · rw [List.length_append, List.length_cons] at hpatience
      have hbefore : before.length < patience := by omega
      have hrest : rest.length < patience := by omega
      obtain ⟨phrase, next, hturn, hnext⟩ := h.runTurn_accepted hrejected haccepts hbefore
      rw [takeTurns_cons, hturn]
      rcases ih hnext hrest with
        ⟨hanswerable, hmore⟩ | ⟨asked, missing, later, after, rfl, hasked, hmissing, hmore⟩
      · exact Or.inl ⟨(answerable_cons_iff hrejected haccepts).mpr hanswerable, hmore⟩
      · refine Or.inr ⟨turn :: asked, missing, later, after, rfl, ?_, ?_, hmore⟩
        · exact (answerable_cons_iff hrejected haccepts).mpr hasked
        · rw [List.cons_append, answerable_cons_iff hrejected haccepts]
          exact hmissing
    · obtain ⟨after, hturn⟩ := h.runTurn_rejected hrejected hpatience
      refine Or.inr ⟨[], turn, turns, after, rfl, answerable_nil ls,
        not_answerable_of_rejected hrejected, ?_⟩
      rw [takeTurns_cons, hturn]
      rfl

/-- The opening and the closing line never fail, so a dialog ends as its turns do. -/
theorem run (h : Ready s ls) (hpatience : ls.length < patience) :
    (Answerable Turn.all ls ∧ (Dialog.run patience s).1 = .ok ()) ∨
      ∃ asked turn later, Turn.all = asked ++ turn :: later ∧ Answerable asked ls ∧
        ¬ Answerable (asked ++ [turn]) ls ∧
        (Dialog.run patience s).1 =
          .error (.failed (.turn turn (.recognitionEngine .inputClosed))) := by
  obtain ⟨opened, hopen, hready⟩ := h.say (.plain openingLine)
  rw [run_apply, hopen]
  dsimp only
  rcases hready.takeTurns Turn.all hpatience with
    ⟨hanswerable, reached, rest, hturns, hreached⟩ |
      ⟨asked, turn, later, after, hall, hasked, hmissing, hturns⟩
  · obtain ⟨closed, hclose, -⟩ := hreached.say (.plain closingLine)
    refine Or.inl ⟨hanswerable, ?_⟩
    rw [hturns]
    dsimp only
    rw [hclose]
  · refine Or.inr ⟨asked, turn, later, hall, hasked, hmissing, ?_⟩
    rw [hturns]

end Ready

/-! ## Whole dialogs -/

/-- The session in which the program holds its dialog. -/
def programSession (input : TypedInput) : Session (Stage TypedInput MuteVoice Console) :=
  Session.new ⟨input, .new, .new none⟩ .usual

theorem ready_programSession (bytes : List UInt8) :
    Ready (programSession (.ofBytes bytes)) (lines bytes) :=
  ⟨⟨rfl, rfl, rfl⟩, rfl, MuteVoice.unfailing rfl, Console.unfailing rfl⟩

theorem error_converse (input : TypedInput) :
    (CommandLine.converse input).error =
      match (run input.patience (programSession input)).1 with
      | .ok () | .error .listening => none
      | .error (.failed cause) => some cause := by
  dsimp only [CommandLine.converse, programSession]
  generalize run (σ := Stage TypedInput MuteVoice Console) input.patience _ = ended
  rfl

theorem exitCode_converse_iff (bytes : List UInt8) :
    (CommandLine.converse (.ofBytes bytes)).exitCode = 0 ↔
      Answerable Turn.all (lines bytes) := by
  have hpatience : (lines bytes).length < (TypedInput.ofBytes bytes).patience :=
    Nat.lt_succ_of_le (length_lines_le bytes)
  rw [CommandLine.Outcome.exitCode, error_converse]
  rcases (ready_programSession bytes).run hpatience with
    ⟨hanswerable, hrun⟩ | ⟨asked, turn, later, hall, -, hmissing, hrun⟩
  · rw [hrun]
    exact iff_of_true rfl hanswerable
  · rw [hrun]
    rw [hall]
    exact iff_of_false nofun (not_answerable_append hmissing later)

/-- A dialog over typed input comes to its end exactly if there are lines at increasing positions
that the grammars of the turns accept, one by one. Otherwise it meets the end of the input in the
last turn of the shortest row of first turns for which there are none. So the program is successful
exactly on input that can answer all turns. -/
theorem run_ok_iff_answerable {s : Session (Stage TypedInput υ δ)} {ls : List (List UInt8)}
    (h : Ready s ls) {patience : Nat} (hpatience : ls.length < patience) :
    ((run patience s).1 = .ok () ↔ Answerable Turn.all ls) ∧
      (¬ Answerable Turn.all ls →
        ∃ k turn, IsLeast {n | ¬ Answerable (Turn.all.take n) ls} (k + 1) ∧
          Turn.all[k]? = some turn ∧
          (run patience s).1 =
            .error (.failed (.turn turn (.recognitionEngine .inputClosed)))) ∧
      ∀ bytes, (CommandLine.converse (.ofBytes bytes)).exitCode = 0 ↔
        Answerable Turn.all (lines bytes) := by
  rcases h.run hpatience with
    ⟨hanswerable, hrun⟩ | ⟨asked, turn, later, hall, hasked, hmissing, hrun⟩
  · exact ⟨iff_of_true hrun hanswerable, absurd hanswerable, exitCode_converse_iff⟩
  · have hnot : ¬ Answerable Turn.all ls := hall ▸ not_answerable_append hmissing later
    refine ⟨iff_of_false ?_ hnot, fun _ => ⟨asked.length, turn, ?_, ?_, hrun⟩,
      exitCode_converse_iff⟩
    · rw [hrun]
      exact nofun
    · rw [hall]
      exact isLeast_not_answerable hasked hmissing later
    · rw [hall, List.getElem?_append_right (Nat.le_refl _), Nat.sub_self, List.getElem?_cons_zero]

/-- Lines that answer all turns. Each of the two names fits either of the last two turns. -/
def twoNames : List UInt8 :=
  utf8 "Hello Computer\nred\ncolor red\nMy name is Ada\nMy name is Kai"

/-- Lines of which the second comes too early: no color is left to be heard behind it. -/
def earlyName : List UInt8 := utf8 "Hello Computer\nMy name is Ada"

theorem run_ok_iff_answerable_names :
    Ready (programSession (.ofBytes twoNames)) (lines twoNames) ∧
      Ready (programSession (.ofBytes earlyName)) (lines earlyName) ∧
      (lines twoNames).length < 6 ∧ (lines earlyName).length < 6 ∧
      (run 6 (programSession (.ofBytes twoNames))).1 = .ok () ∧
      (CommandLine.converse (.ofBytes twoNames)).exitCode = 0 ∧
      (run 6 (programSession (.ofBytes earlyName))).1 =
        .error (.failed (.turn .freeChoice (.recognitionEngine .inputClosed))) := by
  have htwo : Answerable Turn.all (lines twoNames) := by decide +kernel
  have hfirst : Answerable [.greeting] (lines earlyName) := by decide +kernel
  have hsecond : ¬ Answerable ([.greeting] ++ [.freeChoice]) (lines earlyName) := by
    decide +kernel
  have hearly : ¬ Answerable Turn.all (lines earlyName) :=
    not_answerable_append hsecond [.favoriteColor, .wildcardName, .dictatedName]
  have hready := ready_programSession twoNames
  have hready' := ready_programSession earlyName
  have hpatience : (lines twoNames).length < 6 := by decide +kernel
  have hpatience' : (lines earlyName).length < 6 := by decide +kernel
  obtain ⟨hok, -, hexit⟩ := run_ok_iff_answerable hready hpatience
  obtain ⟨-, hmissing, -⟩ := run_ok_iff_answerable hready' hpatience'
  obtain ⟨k, turn, hleast, hturn, hrun⟩ := hmissing hearly
  have hnext : IsLeast {n | ¬ Answerable (Turn.all.take n) (lines earlyName)} (1 + 1) :=
    isLeast_not_answerable hfirst hsecond [.favoriteColor, .wildcardName, .dictatedName]
  obtain rfl := Nat.succ.inj (hleast.unique hnext)
  cases hturn
  exact ⟨hready, hready', hpatience, hpatience', hok.mpr htwo, (hexit twoNames).mpr htwo, hrun⟩

end Dialog

end Colloquy
