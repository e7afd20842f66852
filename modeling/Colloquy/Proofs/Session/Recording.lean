import Colloquy.Proofs.Session.Carried
import Colloquy.Trace

/-!
# Recorded sessions

A session may be held over an engine whose requests are noted down. Recording changes nothing else:
the session without the record may stand in for the recorded one (`carries_forget`), so what a
session asks of its engine can be read off its record (`load_cases`, `attempt_cases`,
`unload_cases`).
-/

namespace Colloquy

/-! ## Recorded requests -/

namespace Recorded

variable {σ : Type} [Engine σ]

theorem load_eq (g : Grammar) (r : Recorded σ) :
    Engine.load g r = ((Engine.load g r.world).1,
      ⟨(Engine.load g r.world).2, r.trace ++ [.loaded g.name (Engine.load g r.world).1]⟩) := rfl

theorem attempt_eq (timeout : Duration) (r : Recorded σ) :
    Engine.attempt timeout r = ((Engine.attempt timeout r.world).1,
      ⟨(Engine.attempt timeout r.world).2,
        r.trace ++ [.attempted timeout (Engine.attempt timeout r.world).1]⟩) := rfl

theorem unload_eq (r : Recorded σ) :
    Engine.unload r = ((Engine.unload r.world).1,
      ⟨(Engine.unload r.world).2, r.trace ++ [.unloaded (Engine.unload r.world).1]⟩) := rfl

end Recorded

/-! ## Sessions with and without a record -/

namespace Session

variable {σ : Type}

/-- The same session, with a record of its requests that is still empty. -/
def recorded (s : Session σ) : Session (Recorded σ) := ⟨.new s.world, s.config, s.active⟩

/-- The same session without its record. -/
def forget (s : Session (Recorded σ)) : Session σ := ⟨s.world.world, s.config, s.active⟩

theorem forget_recorded (s : Session σ) : s.recorded.forget = s := rfl

variable [Engine σ]

theorem carries_forget : Carries (forget : Session (Recorded σ) → Session σ) where
  active _ := rfl
  pollInterval _ := rfl
  load g s := by
    rcases s with ⟨⟨world, trace⟩, config, _ | active⟩
    · simp only [load, forget, Recorded.load_eq]
      rcases Engine.load g world with ⟨_ | _, _⟩ <;> rfl
    · rfl
  attempt s := by
    rcases s with ⟨⟨world, trace⟩, config, active⟩
    simp only [attempt, forget, Recorded.attempt_eq]
    rcases Engine.attempt config.attemptTimeout world with ⟨_ | _, _⟩ <;> rfl
  unload s := by
    rcases s with ⟨⟨world, trace⟩, config, active⟩
    simp only [unload, forget, Recorded.unload_eq]
    rcases Engine.unload world with ⟨_ | _, _⟩ <;> rfl

theorem listen_forget (patience : Nat) (g : Grammar) (s : Session (Recorded σ)) :
    s.forget.listen patience g = ((s.listen patience g).1, (s.listen patience g).2.forget) :=
  carries_forget.listen patience g s

/-! ## Requests of a recorded session -/

/-- A load is refused without a request, fails, or succeeds. -/
theorem load_cases (g : Grammar) (s : Session (Recorded σ)) :
    (∃ active, s.active = some active ∧
        s.load g = (.error (.grammarAlreadyLoaded active g.name), s)) ∨
      (s.active = none ∧ ∃ e after, s.load g = (.error (.grammarLoad g.name e), after) ∧
        after.world.trace = s.world.trace ++ [.loaded g.name (.error e)] ∧
        after.config = s.config ∧ after.active = none) ∨
      (s.active = none ∧ ∃ after, s.load g = (.ok (), after) ∧
        after.world.trace = s.world.trace ++ [.loaded g.name (.ok ())] ∧
        after.config = s.config ∧ after.active = some g.name) := by
  obtain ⟨⟨world, trace⟩, config, _ | active⟩ := s
  · apply Or.inr
    rcases hload : Engine.load g world with ⟨e | _, after⟩
    · refine Or.inl ⟨rfl, e, ⟨⟨after, _⟩, config, none⟩, ?_, rfl, rfl, rfl⟩
      simp only [load, Recorded.load_eq, hload]
    · refine Or.inr ⟨rfl, ⟨⟨after, _⟩, config, some g.name⟩, ?_, rfl, rfl, rfl⟩
      simp only [load, Recorded.load_eq, hload]
  · exact Or.inl ⟨active, rfl, rfl⟩

theorem attempt_cases (s : Session (Recorded σ)) :
    ∃ answer after, s.attempt = (answer.mapError .recognitionEngine, after) ∧
      after.world.trace = s.world.trace ++ [.attempted s.config.attemptTimeout answer] ∧
      after.config = s.config ∧ after.active = s.active := by
  rcases hattempt : Engine.attempt s.config.attemptTimeout s.world.world with ⟨e | heard, after⟩
  · refine ⟨.error e, ⟨⟨after, _⟩, s.config, s.active⟩, ?_, rfl, rfl, rfl⟩
    simp only [attempt, Recorded.attempt_eq, hattempt]
    rfl
  · refine ⟨.ok heard, ⟨⟨after, _⟩, s.config, s.active⟩, ?_, rfl, rfl, rfl⟩
    simp only [attempt, Recorded.attempt_eq, hattempt]
    rfl

theorem unload_cases (s : Session (Recorded σ)) :
    ∃ answer after, s.unload = (answer.mapError .recognitionEngine, after) ∧
      after.world.trace = s.world.trace ++ [.unloaded answer] ∧
      after.config = s.config ∧ after.active = none := by
  rcases hunload : Engine.unload s.world.world with ⟨e | _, after⟩
  · refine ⟨.error e, ⟨⟨after, _⟩, s.config, none⟩, ?_, rfl, rfl, rfl⟩
    simp only [unload, Recorded.unload_eq, hunload]
    rfl
  · refine ⟨.ok (), ⟨⟨after, _⟩, s.config, none⟩, ?_, rfl, rfl, rfl⟩
    simp only [unload, Recorded.unload_eq, hunload]
    rfl

end Session

end Colloquy
