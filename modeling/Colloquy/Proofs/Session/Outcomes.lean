import Colloquy.Dialog.Turn
import Colloquy.Engine.Prepared
import Colloquy.Proofs.Session.OneGrammar
import Colloquy.Proofs.Session.Silence

/-!
# How listening ends

Listening is over when the load is refused or when an attempt is answered, however many recognized
nothing before. The result follows from the answer to that attempt and from the answer to the
unload: the failure of the attempt comes first, then that of the unload, and then the phrase
(`listen_outcomes`). Whatever it is, the session is free to listen again
(`attend_ne_alreadyLoaded`).
-/

namespace Colloquy.Session

variable {σ : Type} [Engine σ] {g : Grammar} {s : Session σ}

/-! ## Listening again -/

theorem attend_recorded (g : Grammar) (way : Way) (s : Session σ) :
    s.attend g way = ((s.recorded.attend g way).1, (s.recorded.attend g way).2.forget) :=
  carries_forget.attend g way s.recorded

/-- Listening that is over leaves no grammar active. -/
theorem Ends.active {calls : List Event} {result : Except Error Phrase} {after : Session σ}
    (h : s.Ends g calls result after) (hnone : s.active = none) : after.active = none := by
  have hlisten := attend_recorded g (.waiting (calls.countP Event.isAttempt)) s
  rw [attend, h.answered _ (Nat.le_refl _), leave, Prod.mk.injEq] at hlisten
  obtain ⟨hresult, rfl⟩ := hlisten
  refine (attend_over (s := s.recorded) hnone ?_).1
  rw [← hresult]
  intro hgoing
  cases hgoing

/-- A session without an active grammar never refuses to listen because of one. -/
theorem attend_ne_alreadyLoaded (hnone : s.active = none) (g : Grammar) (way : Way)
    (active requested : String) :
    (s.attend g way).1 ≠ .over (.error (.grammarAlreadyLoaded active requested)) := by
  rw [attend_recorded, attend_eq]
  obtain ⟨name, hname, -⟩ | ⟨-, e, after, hload, -⟩ | ⟨-, loaded, hload, -⟩ :=
    load_cases g s.recorded
  · exact absurd (hname.symm.trans hnone) (Option.some_ne_none name)
  · rw [hload]
    intro hrefused
    cases hrefused
  · rw [hload]
    refine leave_conclude_ne ?_ g _ _ loaded
    rintro cause ⟨⟩

/-! ## All outcomes -/

/-- How listening ends in a session with no active grammar, for every engine. If the load is refused,
nothing else is asked and the result is that failure. Otherwise any number of attempts may recognize
nothing, and the next one is answered: its failure is the result whatever the unload answers, then a
failure of the unload is, and if there is neither it is the phrase. However listening ends, listening
again is not refused because of the grammar. -/
theorem listen_outcomes (g : Grammar) (s : Session σ) (hnone : s.active = none) :
    (∀ e left, Engine.load g s.world = (.error e, left) →
        s.Ends g [.loaded g.name (.error e)] (.error (.grammarLoad g.name e))
          ⟨left, s.config, none⟩) ∧
      (∀ loaded silent world answer heard freed last,
        Engine.load g s.world = (.ok (), loaded) →
        Engine.Silence s.config.attemptTimeout silent loaded world →
        Engine.attempt s.config.attemptTimeout world = (answer, heard) → answer ≠ .ok none →
        Engine.unload heard = (freed, last) →
        ∃ result,
          s.Ends g (listenCalls g s.config.attemptTimeout silent answer freed) result
            ⟨last, s.config, none⟩ ∧
          (∀ r, answer = .ok (some r) → freed = .ok () →
            result = .ok ⟨r.text, r.confidence, g.extract r.slots⟩) ∧
          (∀ r u, answer = .ok (some r) → freed = .error u →
            result = .error (.recognitionEngine u)) ∧
          ∀ e, answer = .error e → result = .error (.recognitionEngine e)) ∧
      ∀ calls result after, s.Ends g calls result after → after.active = none ∧
        ∀ next way active requested,
          (after.attend next way).1 ≠ .over (.error (.grammarAlreadyLoaded active requested)) := by
  refine ⟨fun e left hload => .of_refused hnone hload, ?_, fun calls result after h => ?_⟩
  · intro loaded silent world answer heard freed last hload hsilence hattempt hanswer hunload
    rcases answer with e | _ | r
    · refine ⟨.error (.recognitionEngine e),
        .of_answer hnone (.error e) hload hsilence hattempt hunload, nofun, nofun, ?_⟩
      rintro _ ⟨⟩
      rfl
    · exact absurd rfl hanswer
    · refine ⟨conclusion g (.ok r) freed,
        .of_answer hnone (.ok r) hload hsilence hattempt hunload, ?_, ?_, nofun⟩
      · rintro _ ⟨⟩ rfl
        rfl
      · rintro _ u ⟨⟩ rfl
        rfl
  · have hafter := h.active hnone
    exact ⟨hafter, attend_ne_alreadyLoaded hafter⟩

/-- A greeting, as an engine may report it. -/
def greeted : Recognition := ⟨"hello computer", 0.5, []⟩

/-- A session whose engine recognizes nothing twice, then a greeting, and then cannot unload. -/
def busy : Session PreparedEngine :=
  new ⟨[.ok none, .ok none, .ok (some greeted)], [], [some (.rejected "busy")], true⟩ .usual

/-- The third attempt is answered, but the unload fails, and the greeting is lost. Listening again
is not refused. -/
theorem listen_outcomes_busy :
    busy.active = none ∧
      busy.Ends Turn.greeting.grammar
        (listenCalls Turn.greeting.grammar ⟨10, 0⟩ 2 (.ok (some greeted))
          (.error (.rejected "busy")))
        (.error (.recognitionEngine (.rejected "busy"))) (new ⟨[], [], [], true⟩ .usual) ∧
      ∀ next way active requested, ((new ⟨[], [], [], true⟩ .usual : Session PreparedEngine).attend
        next way).1 ≠ .over (.error (.grammarAlreadyLoaded active requested)) := by
  obtain ⟨-, hloaded, hagain⟩ := listen_outcomes Turn.greeting.grammar busy rfl
  obtain ⟨result, hends, -, hbusy, -⟩ := hloaded busy.world 2
    ⟨[.ok (some greeted)], [], [some (.rejected "busy")], true⟩ (.ok (some greeted))
    ⟨[], [], [some (.rejected "busy")], true⟩ (.error (.rejected "busy")) ⟨[], [], [], true⟩
    rfl (.attempt rfl (.attempt rfl (.none _))) rfl nofun rfl
  rw [hbusy greeted (.rejected "busy") rfl rfl] at hends
  exact ⟨rfl, hends, (hagain _ _ _ hends).2⟩

end Colloquy.Session
