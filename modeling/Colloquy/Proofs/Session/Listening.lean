import Colloquy.Session.Polling

/-!
# Three ways of listening

Listening may wait inside its attempts, it may poll, and it may poll up to a deadline. The three
ways differ in when they make an attempt; apart from that they are one: the grammar is loaded,
attempts are made until one is answered, and the outcome is concluded by an unload (`attend_eq`).
None of this depends on the timer, whose sleeps only decide how many attempts come before a
deadline.

* `hear_add`: a row of attempts may be cut in two.
* `resume_eq`, `poll_eq`, `pollUntil_eq`: polling makes the attempts of `hear` and concludes them.
* `awaitPhrase_eq`: polling without a deadline is answered as listening that waits is.
* `leave_conclude`, `leave_conclude_over`: there is one unload at the end, and none is left to the
  release unless listening was abandoned.
-/

namespace Colloquy.Session

variable {σ : Type} [Engine σ]

/-! ## Attempts -/

theorem hear_zero (s : Session σ) : hear 0 s = (none, s) := rfl

/-- A row of attempts may be cut in two: the second part is made if the first recognized nothing. -/
theorem hear_add (m n : Nat) (s : Session σ) :
    hear (m + n) s =
      match hear m s with
      | (none, s) => hear n s
      | (some outcome, s) => (some outcome, s) := by
  induction m generalizing s with
  | zero => rw [Nat.zero_add, hear_zero]
  | succ m ih =>
    rw [Nat.add_right_comm, hear, hear]
    rcases s.attempt with ⟨_ | _ | _, after⟩
    · rfl
    · exact ih after
    · rfl

theorem hear_one_snd (s : Session σ) : (hear 1 s).2 = s.attempt.2 := by
  rw [hear]
  rcases s.attempt with ⟨_ | _ | _, _⟩ <;> rfl

theorem load_config (g : Grammar) (s : Session σ) : (s.load g).2.config = s.config := by
  unfold load
  rcases s.active with _ | active
  · rcases Engine.load g s.world with ⟨_ | _, _⟩ <;> rfl
  · rfl

theorem attempt_active (s : Session σ) :
    s.attempt.2.active = s.active ∧ s.attempt.2.config = s.config := by
  unfold attempt
  rcases Engine.attempt s.config.attemptTimeout s.world with ⟨_ | _, _⟩ <;> exact ⟨rfl, rfl⟩

theorem hear_active (patience : Nat) (s : Session σ) :
    (hear patience s).2.active = s.active ∧ (hear patience s).2.config = s.config := by
  induction patience generalizing s with
  | zero => exact ⟨rfl, rfl⟩
  | succ patience ih =>
    have hattempt := attempt_active s
    rw [hear]
    generalize s.attempt = answered at hattempt ⊢
    obtain ⟨_ | _ | _, after⟩ := answered
    · exact hattempt
    · exact ⟨(ih after).1.trans hattempt.1, (ih after).2.trans hattempt.2⟩
    · exact hattempt

/-! ## Conclusions -/

theorem unload_active (s : Session σ) : s.unload.2.active = none := by
  unfold unload
  rcases Engine.unload s.world with ⟨_ | _, _⟩ <;> rfl

theorem finish_snd (g : Grammar) (outcome : Except Error Recognition) (s : Session σ) :
    (s.finish g outcome).2 = s.unload.2 := by
  unfold finish
  rcases s.unload with ⟨_ | _, _⟩ <;> cases outcome <;> rfl

theorem release_of_active_none {s : Session σ} (h : s.active = none) : s.release = s := by
  rw [release, h]

theorem release_of_active_some {s : Session σ} {name : String} (h : s.active = some name) :
    s.release = s.unload.2 := by
  rw [release, h]

theorem release_finish (g : Grammar) (outcome : Except Error Recognition) (s : Session σ) :
    (s.finish g outcome).2.release = (s.finish g outcome).2 := by
  apply release_of_active_none
  rw [finish_snd, unload_active]

/-- What attempts come to: nothing yet, or the answer with which listening ends. -/
def conclude (g : Grammar) :
    Option (Except Error Recognition) × Session σ → Option (Except Error Phrase) × Session σ
  | (none, s) => (none, s)
  | (some outcome, s) => (some (s.finish g outcome).1, (s.finish g outcome).2)

theorem resume_eq (g : Grammar) (s : Session σ) : s.resume g = conclude g (hear 1 s) := by
  rw [resume, hear]
  rcases s.attempt with ⟨_ | _ | _, after⟩
  · dsimp only [conclude]
    rw [release_finish]
  · rfl
  · dsimp only [conclude]
    rw [release_finish]

theorem listen_eq (patience : Nat) (g : Grammar) (s : Session σ) :
    s.listen patience g =
      match s.load g with
      | (.error e, s) => (some (.error e), s)
      | (.ok (), s) => conclude g (hear patience s) := by
  rw [listen]
  rcases s.load g with ⟨_ | _, loaded⟩
  · rfl
  · dsimp only
    rcases hear patience loaded with ⟨_ | _, _⟩ <;> rfl

/-! ## Polling -/

section

variable (timer : Timer)

theorem poll_eq (g : Grammar) (interval : Duration) (patience now : Nat) (s : Session σ) :
    ((poll timer g interval patience now s).1.map Prod.fst,
        (poll timer g interval patience now s).2) = conclude g (hear patience s) := by
  induction patience generalizing now s with
  | zero => rfl
  | succ patience ih =>
    rw [poll, resume_eq, Nat.add_comm patience, hear_add]
    rcases hear 1 s with ⟨_ | outcome, after⟩
    · exact ih _ after
    · rfl

/-- Without a deadline, polling is answered as listening that waits is. -/
theorem awaitPhrase_eq (patience : Nat) (g : Grammar) (s : Session σ) :
    ((s.awaitPhrase timer patience g).1.map Prod.fst, (s.awaitPhrase timer patience g).2) =
      s.listen patience g := by
  rw [awaitPhrase, listen_eq]
  rcases s.load g with ⟨_ | _, loaded⟩
  · rfl
  · exact poll_eq timer g loaded.config.pollInterval patience 0 loaded

variable (interval : Duration) (deadline : Nat)

/-- How many attempts polling makes from the moment `now` on if it recognizes nothing: up to the
deadline, and `patience` of them at most. -/
def attemptsUntil : (patience now : Nat) → Nat
  | 0, _ => 0
  | patience + 1, now =>
    if timer.wakeTime interval now ≤ deadline then
      attemptsUntil patience (timer.wakeTime interval now) + 1
    else 1

/-- Whether the deadline then comes before the last of `patience` attempts, or right behind it. -/
def timeUp : (patience now : Nat) → Bool
  | 0, _ => false
  | patience + 1, now =>
    if timer.wakeTime interval now ≤ deadline then timeUp patience (timer.wakeTime interval now)
    else true

end

/-- How listening stands whose attempts came to this, if it has been given up or not. -/
def Standing.of (gaveUp : Bool) : Option (Except Error Phrase) → Standing
  | some answer => .over answer
  | none => if gaveUp then .abandoned else .going

theorem pollUntil_eq (timer : Timer) (g : Grammar) (interval : Duration)
    (deadline patience now : Nat) (s : Session σ) :
    pollUntil timer g interval deadline patience now s =
      (.of (timeUp timer interval deadline patience now)
          (conclude g (hear (attemptsUntil timer interval deadline patience now) s)).1,
        (conclude g (hear (attemptsUntil timer interval deadline patience now) s)).2) := by
  induction patience generalizing now s with
  | zero => rfl
  | succ patience ih =>
    rw [pollUntil, resume_eq, attemptsUntil, timeUp]
    by_cases hnext : timer.wakeTime interval now ≤ deadline
    · rw [if_pos hnext, if_pos hnext, Nat.add_comm _ 1, hear_add]
      rcases hear 1 s with ⟨_ | outcome, after⟩
      · exact (if_pos hnext).trans (ih _ after)
      · rfl
    · rw [if_neg hnext, if_neg hnext]
      rcases hear 1 s with ⟨_ | outcome, after⟩
      · exact if_neg hnext
      · rfl

/-! ## All three ways -/

/-- A way of listening. It is followed for so many attempts, answered or not; the third may be
abandoned before, at a deadline. -/
inductive Way
  | waiting (patience : Nat)
  | polling (timer : Timer) (patience : Nat)
  | pollingUntil (timer : Timer) (deadline patience : Nat)

/-- What is left of listening whose attempts came to this, if it is given up or not. -/
def leave : (gaveUp : Bool) → Option (Except Error Phrase) × Session σ → Standing × Session σ
  | _, (some answer, s) => (.over answer, s)
  | true, (none, s) => (.abandoned, s.release)
  | false, (none, s) => (.going, s)

/-- Listens in one of the three ways. -/
def attend (g : Grammar) (way : Way) (s : Session σ) : Standing × Session σ :=
  match way with
  | .waiting patience => leave false (s.listen patience g)
  | .polling timer patience =>
    leave false ((s.awaitPhrase timer patience g).1.map Prod.fst, (s.awaitPhrase timer patience g).2)
  | .pollingUntil timer deadline patience => s.awaitUntil timer deadline patience g

/-- The number of attempts after which listening is no longer followed. -/
def Way.attempts (interval : Duration) : Way → Nat
  | .waiting patience | .polling _ patience => patience
  | .pollingUntil timer deadline patience => attemptsUntil timer interval deadline patience 0

/-- Listening is given up then, unless it is answered before. -/
def Way.givesUp (interval : Duration) : Way → Bool
  | .waiting _ | .polling _ _ => false
  | .pollingUntil timer deadline patience => timeUp timer interval deadline patience 0

theorem attend_eq (g : Grammar) (way : Way) (s : Session σ) :
    s.attend g way =
      match s.load g with
      | (.error e, s) => (.over (.error e), s)
      | (.ok (), s) => leave (way.givesUp s.config.pollInterval)
          (conclude g (hear (way.attempts s.config.pollInterval) s)) := by
  cases way with
  | waiting patience =>
    rw [attend, listen_eq]
    rcases s.load g with ⟨_ | _, _⟩ <;> rfl
  | polling timer patience =>
    rw [attend, awaitPhrase_eq, listen_eq]
    rcases s.load g with ⟨_ | _, _⟩ <;> rfl
  | pollingUntil timer deadline patience =>
    rw [attend, awaitUntil]
    rcases s.load g with ⟨_ | _, loaded⟩
    · rfl
    · dsimp only [Way.attempts, Way.givesUp]
      rw [pollUntil_eq]
      generalize timeUp timer loaded.config.pollInterval deadline patience 0 = gaveUp
      rcases conclude g _ with ⟨_ | _, _⟩ <;> cases gaveUp <;> rfl

/-- Listening that is no longer followed leaves the session as the attempts left it, or unloads. -/
theorem leave_conclude (g : Grammar) (gaveUp : Bool)
    (reached : Option (Except Error Recognition) × Session σ) :
    (leave gaveUp (conclude g reached)).2 = reached.2 ∨
      (leave gaveUp (conclude g reached)).2 = reached.2.unload.2 := by
  obtain ⟨_ | outcome, s⟩ := reached
  · cases gaveUp with
    | false => exact Or.inl rfl
    | true =>
      rcases hactive : s.active with _ | name
      · exact Or.inl (release_of_active_none hactive)
      · exact Or.inr (release_of_active_some hactive)
  · apply Or.inr
    rw [← finish_snd g outcome]
    rfl

/-- Listening that does not go on has unloaded. -/
theorem leave_conclude_over {g : Grammar} {gaveUp : Bool}
    {reached : Option (Except Error Recognition) × Session σ} {name : String}
    (hactive : reached.2.active = some name)
    (hover : (leave gaveUp (conclude g reached)).1 ≠ .going) :
    (leave gaveUp (conclude g reached)).2 = reached.2.unload.2 := by
  obtain ⟨_ | outcome, s⟩ := reached
  · cases gaveUp with
    | false => exact absurd rfl hover
    | true => exact release_of_active_some hactive
  · rw [← finish_snd g outcome]
    rfl

end Colloquy.Session
