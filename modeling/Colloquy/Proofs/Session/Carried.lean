import Colloquy.Proofs.Session.Listening

/-!
# Sessions that go alike

A session may be replaced by another one, over the same engine or over a different one, if loads,
attempts and unloads are answered alike and lead to sessions that replace each other again
(`Carries`). Listening, in any way, then goes alike as well (`Carries.attend`).
-/

namespace Colloquy.Session

variable {σ τ : Type} [Engine σ] [Engine τ]

/-- The session `f s` may stand in for `s`: every request leads from the one to the other. -/
structure Carries (f : Session σ → Session τ) : Prop where
  active : ∀ s, (f s).active = s.active
  pollInterval : ∀ s, (f s).config.pollInterval = s.config.pollInterval
  load : ∀ g s, (f s).load g = ((s.load g).1, f (s.load g).2)
  attempt : ∀ s, (f s).attempt = (s.attempt.1, f s.attempt.2)
  unload : ∀ s, (f s).unload = (s.unload.1, f s.unload.2)

namespace Carries

variable {f : Session σ → Session τ}

theorem hear (h : Carries f) (patience : Nat) (s : Session σ) :
    hear patience (f s) = ((hear patience s).1, f (hear patience s).2) := by
  induction patience generalizing s with
  | zero => rfl
  | succ patience ih =>
    simp only [Session.hear, h.attempt]
    rcases s.attempt with ⟨_ | _ | _, after⟩
    · rfl
    · exact ih after
    · rfl

theorem finish (h : Carries f) (g : Grammar) (outcome : Except Error Recognition)
    (s : Session σ) :
    (f s).finish g outcome = ((s.finish g outcome).1, f (s.finish g outcome).2) := by
  simp only [Session.finish, h.unload]
  rcases s.unload with ⟨_ | _, _⟩ <;> cases outcome <;> rfl

theorem conclude (h : Carries f) (g : Grammar) (outcome : Option (Except Error Recognition))
    (s : Session σ) :
    conclude g (outcome, f s) = ((conclude g (outcome, s)).1, f (conclude g (outcome, s)).2) := by
  cases outcome with
  | none => rfl
  | some outcome => rw [Session.conclude, h.finish, Session.conclude]

theorem release (h : Carries f) (s : Session σ) : (f s).release = f s.release := by
  have hactive := h.active s
  rcases hs : s.active with _ | name
  · rw [hs] at hactive
    rw [release_of_active_none hs, release_of_active_none hactive]
  · rw [hs] at hactive
    rw [release_of_active_some hs, release_of_active_some hactive, h.unload]

theorem leave (h : Carries f) (gaveUp : Bool) (answer : Option (Except Error Phrase))
    (s : Session σ) : leave gaveUp (answer, f s) =
      ((leave gaveUp (answer, s)).1, f (leave gaveUp (answer, s)).2) := by
  cases answer with
  | some answer => rfl
  | none =>
    cases gaveUp with
    | false => rfl
    | true => rw [Session.leave, h.release, Session.leave]

theorem listen (h : Carries f) (patience : Nat) (g : Grammar) (s : Session σ) :
    (f s).listen patience g = ((s.listen patience g).1, f (s.listen patience g).2) := by
  rw [listen_eq, listen_eq, h.load]
  rcases s.load g with ⟨_ | _, loaded⟩
  · rfl
  · dsimp only
    rw [h.hear]
    exact h.conclude g _ _

theorem attend (h : Carries f) (g : Grammar) (way : Way) (s : Session σ) :
    (f s).attend g way = ((s.attend g way).1, f (s.attend g way).2) := by
  rw [attend_eq, attend_eq, h.load]
  rcases s.load g with ⟨_ | _, loaded⟩
  · rfl
  · dsimp only
    rw [h.hear, h.pollInterval, h.conclude]
    exact h.leave _ _ _

end Carries

end Colloquy.Session
