import Colloquy.Dialog.Stage
import Colloquy.Display.Console
import Colloquy.Proofs.Dialog.Acts
import Colloquy.Proofs.Session.Carried

/-!
# Stages without failures

Often only the engine of a stage matters: the voice and the display never fail. A mute voice that
was not told to fail and a console over a sink without a limit are of that kind. Listening goes on a
stage as it does with the engine alone (`listen_offstage`).
-/

namespace Colloquy

open Text

variable {ε υ δ : Type}

/-- The voice never fails: some states, its own among them, are such that whatever it is asked to
say in one of them is said, and leads to one of them again. -/
def Voice.Unfailing [Voice υ] (voice : υ) : Prop :=
  ∃ fine : υ → Prop, fine voice ∧
    ∀ v, fine v → ∀ speech, ∃ next, Voice.speak speech v = (.ok (), next) ∧ fine next

/-- The display never fails: some states, its own among them, are such that whatever it is asked to
show in one of them is shown, and leads to one of them again, as a change of the highlight does. -/
def Display.Unfailing [Display δ] (display : δ) : Prop :=
  ∃ fine : δ → Prop, fine display ∧
    ∀ d, fine d →
      (∀ line, ∃ next, Display.writeLine line d = (.ok (), next) ∧ fine next) ∧
        ∀ color, fine (Display.setHighlight color d)

namespace Voice.Unfailing

theorem speak [Voice υ] {voice : υ} (h : Unfailing voice) (speech : Speech) :
    ∃ next, Voice.speak speech voice = (.ok (), next) ∧ Unfailing next := by
  obtain ⟨fine, hfine, hkept⟩ := h
  obtain ⟨next, hspeak, hnext⟩ := hkept voice hfine speech
  exact ⟨next, hspeak, fine, hnext, hkept⟩

end Voice.Unfailing

namespace Display.Unfailing

variable [Display δ] {display : δ}

theorem writeLine (h : Unfailing display) (line : String) :
    ∃ next, Display.writeLine line display = (.ok (), next) ∧ Unfailing next := by
  obtain ⟨fine, hfine, hkept⟩ := h
  obtain ⟨next, hwrite, hnext⟩ := (hkept display hfine).1 line
  exact ⟨next, hwrite, fine, hnext, hkept⟩

theorem setHighlight (h : Unfailing display) (color : Option TermColor) :
    Unfailing (Display.setHighlight color display) := by
  obtain ⟨fine, hfine, hkept⟩ := h
  exact ⟨fine, (hkept display hfine).2 color, hkept⟩

end Display.Unfailing

/-! ## A mute voice and a console -/

theorem MuteVoice.unfailing {voice : MuteVoice} (h : voice.failure = none) :
    Voice.Unfailing voice := by
  refine ⟨fun v => v.failure = none, h, ?_⟩
  intro v hv speech
  refine ⟨{ v with calls := v.calls + 1 }, ?_, hv⟩
  simp only [Voice.speak, hv]

namespace ByteSink

variable {sink : ByteSink}

theorem write_of_unlimited (h : sink.capacity = none) (bytes : List UInt8) :
    sink.write bytes = (.ok (), { sink with written := sink.written ++ bytes }) := by
  simp only [write, fitting, h, if_true]

theorem writeAll_of_unlimited (h : sink.capacity = none) (pieces : List (List UInt8)) :
    writeAll pieces sink = (.ok (), { sink with written := sink.written ++ pieces.flatten }) := by
  induction pieces generalizing sink with
  | nil => rw [writeAll, List.flatten_nil, List.append_nil]
  | cons piece pieces ih =>
    rw [writeAll, write_of_unlimited h]
    refine (ih ?_).trans ?_
    · exact h
    · rw [List.flatten_cons, List.append_assoc]

end ByteSink

namespace Console

variable [Terminal TermColor] {console : Console}

theorem writeLine_of_unlimited (h : console.sink.capacity = none) (line : String) :
    Display.writeLine line console = (.ok (), { console with sink := { console.sink with
      written := console.sink.written ++ ((pieces console.highlight line).map utf8).flatten } }) := by
  have hwrite := ByteSink.writeAll_of_unlimited h ((pieces console.highlight line).map utf8)
  simp only [Display.writeLine, writeLine, hwrite]

theorem unfailing (h : console.sink.capacity = none) : Display.Unfailing console := by
  refine ⟨fun c => c.sink.capacity = none, h, ?_⟩
  intro c hc
  exact ⟨fun line => ⟨_, writeLine_of_unlimited hc line, hc⟩, fun _ => hc⟩

end Console

/-! ## The parts of a stage -/

namespace Stage

theorem writeLine_eq [Display δ] (line : String) (stage : Stage ε υ δ) :
    Display.writeLine line stage = ((Display.writeLine line stage.display).1,
      { stage with display := (Display.writeLine line stage.display).2 }) := rfl

theorem speak_eq [Voice υ] (speech : Speech) (stage : Stage ε υ δ) :
    Voice.speak speech stage = ((Voice.speak speech stage.voice).1,
      { stage with voice := (Voice.speak speech stage.voice).2 }) := rfl

end Stage

namespace Session

/-- The same session on a stage with this voice and this display. -/
def staged (voice : υ) (display : δ) (s : Session ε) : Session (Stage ε υ δ) :=
  ⟨⟨s.world, voice, display⟩, s.config, s.active⟩

/-- The session with nothing but the engine of its stage. -/
def offstage (s : Session (Stage ε υ δ)) : Session ε := ⟨s.world.engine, s.config, s.active⟩

variable [Engine ε]

theorem carries_staged (voice : υ) (display : δ) :
    Carries (staged voice display : Session ε → Session (Stage ε υ δ)) where
  active _ := rfl
  pollInterval _ := rfl
  load g s := by
    rcases s with ⟨world, config, _ | active⟩
    · simp only [load, staged, Engine.load, Stage.askEngine]
      rcases Engine.load g world with ⟨_ | _, _⟩ <;> rfl
    · rfl
  attempt s := by
    simp only [attempt, staged, Engine.attempt, Stage.askEngine]
    rcases Engine.attempt s.config.attemptTimeout s.world with ⟨_ | _, _⟩ <;> rfl
  unload s := by
    simp only [unload, staged, Engine.unload, Stage.askEngine]
    rcases Engine.unload s.world with ⟨_ | _, _⟩ <;> rfl

theorem listen_offstage (patience : Nat) (g : Grammar) (s : Session (Stage ε υ δ)) :
    s.listen patience g = ((s.offstage.listen patience g).1,
      (s.offstage.listen patience g).2.staged s.world.voice s.world.display) :=
  (carries_staged s.world.voice s.world.display).listen patience g s.offstage

end Session

end Colloquy
