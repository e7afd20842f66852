import Colloquy.Proofs.Session.Listening
import Colloquy.Proofs.Session.Recording

/-!
# Requests to a session

A session is asked to load, to unload and to listen in any of the three ways, again and again. What
requests lead to does not depend on whether those to the engine are noted down (`Carries.serve`), so
every session that is reached has a record (`reached_recorded`).
-/

namespace Colloquy.Session

variable {σ : Type} [Engine σ]

/-! ## Requests to a session -/

inductive Request
  | load (g : Grammar)
  | unload
  | listen (g : Grammar) (way : Way)

/-- The session after a request. -/
def serve (s : Session σ) : Request → Session σ
  | .load g => (s.load g).2
  | .unload => s.unload.2
  | .listen g way => (s.attend g way).2

/-- The sessions that requests lead to, one request after the other. Listening may be followed for
as long as one likes, so the sessions that are still listening are among them. -/
inductive Reached (fresh : Session σ) : Session σ → Prop
  | fresh : Reached fresh fresh
  | serve {s : Session σ} (h : Reached fresh s) (request : Request) :
    Reached fresh (s.serve request)

/-! ## Requests to a recorded session -/

theorem Carries.serve {τ : Type} [Engine τ] {f : Session σ → Session τ} (h : Carries f)
    (s : Session σ) (request : Request) : (f s).serve request = f (s.serve request) := by
  cases request with
  | load g => rw [Session.serve, h.load, Session.serve]
  | unload => rw [Session.serve, h.unload, Session.serve]
  | listen g way => rw [Session.serve, h.attend, Session.serve]

/-- Every session that is reached can be reached with a record. -/
theorem reached_recorded {fresh s : Session σ} (h : Reached fresh s) :
    ∃ r, Reached fresh.recorded r ∧ r.forget = s := by
  induction h with
  | fresh => exact ⟨fresh.recorded, .fresh, forget_recorded fresh⟩
  | serve _ request ih =>
    obtain ⟨r, hr, rfl⟩ := ih
    exact ⟨r.serve request, hr.serve request, (carries_forget.serve r request).symm⟩

end Colloquy.Session
