import Colloquy.Proofs.Session.Recording

/-!
# The end of listening

Listening goes on for as long as attempts recognize nothing, so it is followed here with any number
of attempts. It ends if from some number of attempts on its answer is the same; that number is the
number of attempts it makes.
-/

namespace Colloquy

/-- The engine was asked whether it heard something. -/
def Event.isAttempt : Event → Bool
  | .attempted _ _ => true
  | _ => false

/-- The requests of listening that is over: a load, attempts that recognized nothing, one that was
answered, and an unload. -/
def listenCalls (g : Grammar) (timeout : Duration) (silent : Nat)
    (answer : Except EngineFailure (Option Recognition)) (freed : Except EngineFailure Unit) :
    List Event :=
  .loaded g.name (.ok ()) ::
    (List.replicate silent (.attempted timeout (.ok none)) ++
      [.attempted timeout answer, .unloaded freed])

theorem countP_listenCalls (g : Grammar) (timeout : Duration) (silent : Nat)
    (answer : Except EngineFailure (Option Recognition)) (freed : Except EngineFailure Unit) :
    (listenCalls g timeout silent answer freed).countP Event.isAttempt = silent + 1 := by
  simp [listenCalls, List.countP_cons, List.countP_append, List.countP_replicate, Event.isAttempt]

namespace Session

variable {σ : Type} [Engine σ]

/-- Listening for `g` ends with `answer` and leaves the session `after`. On the way the engine
receives the requests `calls` and no others, and before the last of its attempts listening is still
going on. -/
structure Ends (s : Session σ) (g : Grammar) (calls : List Event)
    (answer : Except Error Phrase) (after : Session σ) : Prop where
  answered : ∀ patience, calls.countP Event.isAttempt ≤ patience →
    s.listen patience g = (some answer, after)
  recorded : ∀ patience, calls.countP Event.isAttempt ≤ patience →
    (s.recorded.listen patience g).2.world.trace = calls
  unanswered : ∀ patience, patience < calls.countP Event.isAttempt →
    (s.listen patience g).1 = none

/-- Whether and how listening ends can be read off the recorded session. -/
theorem Ends.of_recorded {s : Session σ} {g : Grammar} {calls : List Event}
    {answer : Except Error Phrase} {after : Session (Recorded σ)}
    (hcalls : after.world.trace = calls)
    (hends : ∀ patience, calls.countP Event.isAttempt ≤ patience →
      s.recorded.listen patience g = (some answer, after))
    (hgoes : ∀ patience, patience < calls.countP Event.isAttempt →
      (s.recorded.listen patience g).1 = none) :
    s.Ends g calls answer after.forget where
  answered patience h := by
    have hlisten := listen_forget patience g s.recorded
    rw [hends patience h] at hlisten
    exact hlisten
  recorded patience h := by
    rw [hends patience h]
    exact hcalls
  unanswered patience h := by
    have hlisten := congrArg Prod.fst (listen_forget patience g s.recorded)
    exact hlisten.trans (hgoes patience h)

/-- Listening ends in one way only. -/
theorem Ends.unique {s : Session σ} {g : Grammar} {calls calls' : List Event}
    {answer answer' : Except Error Phrase} {after after' : Session σ}
    (h : s.Ends g calls answer after) (h' : s.Ends g calls' answer' after') :
    calls = calls' ∧ answer = answer' ∧ after = after' := by
  let patience := max (calls.countP Event.isAttempt) (calls'.countP Event.isAttempt)
  have hle : calls.countP Event.isAttempt ≤ patience := Nat.le_max_left _ _
  have hle' : calls'.countP Event.isAttempt ≤ patience := Nat.le_max_right _ _
  have hlisten := (h.answered patience hle).symm.trans (h'.answered patience hle')
  have htrace := (h.recorded patience hle).symm.trans (h'.recorded patience hle')
  rw [Prod.mk.injEq, Option.some.injEq] at hlisten
  exact ⟨htrace, hlisten.1, hlisten.2⟩

end Session

end Colloquy
