import Colloquy.Dialog.Turn
import Colloquy.Engine.Prepared
import Colloquy.Proofs.Session.Ends

/-!
# Polling and waiting agree

Polling passes another timeout to the engine than waiting does. For an engine that does not care
about it, a session whose attempts do not wait may stand in for any other (`carries_unwaiting`), so
the two ways of listening end alike, after the same requests (`awaitPhrase_agrees`). Polling takes
time: one sleep between an attempt and the next, however long the timer sleeps (`poll_time`).
-/

namespace Colloquy

/-- The same request and answer, with no time to wait. -/
def Event.unwaiting : Event → Event
  | .attempted _ answer => .attempted .zero answer
  | event => event

namespace Session

variable {σ : Type}

/-- The same session, in which attempts do not wait and never have. -/
def unwaiting (s : Session (Recorded σ)) : Session (Recorded σ) :=
  { s.polling with world := ⟨s.world.world, s.world.trace.map Event.unwaiting⟩ }

variable [Engine σ]

/-! ## The same requests -/

theorem carries_unwaiting
    (hfree : ∀ t t' (world : σ), Engine.attempt t world = Engine.attempt t' world) :
    Carries (unwaiting : Session (Recorded σ) → Session (Recorded σ)) where
  active _ := rfl
  pollInterval _ := rfl
  load g s := by
    rcases s with ⟨⟨world, trace⟩, config, _ | active⟩
    · simp only [load, unwaiting, polling, Recorded.load_eq]
      rcases Engine.load g world with ⟨_ | _, _⟩ <;> simp [Event.unwaiting]
    · rfl
  attempt s := by
    rcases s with ⟨⟨world, trace⟩, config, active⟩
    simp only [attempt, unwaiting, polling, Recorded.attempt_eq, hfree .zero config.attemptTimeout]
    rcases Engine.attempt config.attemptTimeout world with ⟨_ | _, _⟩ <;> simp [Event.unwaiting]
  unload s := by
    rcases s with ⟨⟨world, trace⟩, config, active⟩
    simp only [unload, unwaiting, polling, Recorded.unload_eq]
    rcases Engine.unload world with ⟨_ | _, _⟩ <;> simp [Event.unwaiting]

/-! ## The time it takes -/

/-- The number of attempts so far. -/
def attempts (s : Session (Recorded σ)) : Nat := s.world.trace.countP Event.isAttempt

theorem attempts_load (g : Grammar) (s : Session (Recorded σ)) :
    (s.load g).2.attempts = s.attempts := by
  obtain ⟨active, -, hload⟩ | ⟨-, e, after, hload, htrace, -⟩ | ⟨-, after, hload, htrace, -⟩ :=
    load_cases g s
  · rw [hload]
  · rw [hload, attempts, htrace, List.countP_append]
    rfl
  · rw [hload, attempts, htrace, List.countP_append]
    rfl

theorem attempts_attempt (s : Session (Recorded σ)) :
    s.attempt.2.attempts = s.attempts + 1 := by
  obtain ⟨answer, after, hattempt, htrace, -⟩ := attempt_cases s
  rw [hattempt, attempts, htrace, List.countP_append]
  rfl

theorem attempts_unload (s : Session (Recorded σ)) : s.unload.2.attempts = s.attempts := by
  obtain ⟨answer, after, hunload, htrace, -⟩ := unload_cases s
  rw [hunload, attempts, htrace, List.countP_append]
  rfl

theorem attempts_resume (g : Grammar) (s : Session (Recorded σ)) :
    (s.resume g).2.attempts = s.attempts + 1 := by
  have hattempts := attempts_attempt s
  rw [← hear_one_snd] at hattempts
  rw [resume_eq]
  generalize hear 1 s = heard at hattempts ⊢
  obtain ⟨_ | outcome, after⟩ := heard
  · exact hattempts
  · rw [conclude, finish_snd, attempts_unload]
    exact hattempts

section

variable {timer : Timer} {g : Grammar}

/-- A row of attempts may be cut in two: the second part begins one sleep for each attempt later. -/
theorem poll_add (interval : Duration) (m n now : Nat) (s : Session σ) :
    poll timer g interval (m + n) now s =
      match poll timer g interval m now s with
      | (none, s) => poll timer g interval n (timer.sleeps interval m now) s
      | (some answer, s) => (some answer, s) := by
  induction m generalizing now s with
  | zero => rw [Nat.zero_add, poll, Timer.sleeps]
  | succ m ih =>
    rw [Nat.add_right_comm, poll, poll, Timer.sleeps]
    rcases s.resume g with ⟨_ | answer, after⟩
    · exact ih _ after
    · rfl

/-- Polling ends at the moment of its last attempt, after one sleep for each of the others. -/
theorem poll_time {interval : Duration} {patience now time : Nat}
    {s after : Session (Recorded σ)} {answer : Except Error Phrase}
    (h : poll timer g interval patience now s = (some (answer, time), after)) :
    ∃ retries, after.attempts = s.attempts + retries + 1 ∧
      time = timer.sleeps interval retries now := by
  induction patience generalizing now s with
  | zero => cases h
  | succ patience ih =>
    have hattempts := attempts_resume g s
    rw [poll] at h
    rcases hresume : s.resume g with ⟨_ | first, later⟩
    · rw [hresume] at h hattempts
      obtain ⟨retries, hlater, htime⟩ := ih h
      refine ⟨retries + 1, ?_, htime⟩
      rw [hlater, hattempts]
      omega
    · rw [hresume] at h hattempts
      cases h
      exact ⟨0, hattempts, rfl⟩

/-- Listening that is still going on makes its next attempts one sleep for each attempt later. -/
theorem awaitPhrase_add {m : Nat} {s after : Session σ}
    (h : s.awaitPhrase timer m g = (none, after)) (n : Nat) :
    s.awaitPhrase timer (m + n) g = poll timer g s.config.pollInterval n
      (timer.sleeps s.config.pollInterval m 0) after := by
  have hconfig := load_config g s
  rw [awaitPhrase] at h ⊢
  rcases hload : s.load g with ⟨e | _, loaded⟩
  · rw [hload] at h
    cases h
  · rw [hload] at h hconfig
    dsimp only at h hconfig ⊢
    rw [hconfig] at h ⊢
    rw [poll_add, h]

theorem awaitPhrase_time {patience time : Nat} {s after : Session (Recorded σ)}
    {answer : Except Error Phrase}
    (h : s.awaitPhrase timer patience g = (some (answer, time), after)) :
    time = timer.sleeps s.config.pollInterval (after.attempts - s.attempts - 1) 0 := by
  have hattempts := attempts_load g s
  have hconfig := load_config g s
  rw [awaitPhrase] at h
  rcases hload : s.load g with ⟨e | _, loaded⟩
  · rw [hload] at h hattempts
    cases h
    rw [← hattempts, Nat.sub_self, Nat.zero_sub, Timer.sleeps]
  · rw [hload] at h hattempts hconfig
    dsimp only at h hattempts hconfig
    rw [hconfig] at h
    obtain ⟨retries, hafter, htime⟩ := poll_time h
    have hretries : after.attempts - s.attempts - 1 = retries := by omega
    rw [hretries, htime]

end

/-! ## Both ways -/

/-- Polling and waiting agree over an engine that does not care about the timeout, from any state of
session and engine, whatever the engine answers and whatever the timer does. After any number of
attempts either both are still going on or both have ended, with the same answer; the same grammar
is active, the engine is in the same state, and it received the same requests, except that the
attempts of polling do not wait. The requests include all unloads, so the release at the end of
polling adds none. Polling sleeps for the interval between two attempts: the attempt behind
`patience` others is made after as many sleeps, and polling ends at the moment of its last attempt.
With a timer that keeps to the interval, so many sleeps take so many intervals. -/
theorem awaitPhrase_agrees
    (hfree : ∀ t t' (world : σ), Engine.attempt t world = Engine.attempt t' world)
    (timer : Timer) (s : Session σ) (g : Grammar) (patience : Nat) :
    let waited := s.recorded.listen patience g
    let polled := s.polling.recorded.awaitPhrase timer patience g
    let interval := s.config.pollInterval
    (polled.1.map Prod.fst = waited.1 ∧
        polled.2.active = waited.2.active ∧
        polled.2.world.world = waited.2.world.world ∧
        polled.2.world.trace = waited.2.world.trace.map Event.unwaiting) ∧
      ((polled.1 = none → ∀ more, s.polling.recorded.awaitPhrase timer (patience + more) g =
          poll timer g interval more (timer.sleeps interval patience 0) polled.2) ∧
        ∀ answer time, polled.1 = some (answer, time) →
          time = timer.sleeps interval (polled.2.attempts - 1) 0) ∧
      (timer.Exact interval → ∀ count,
        timer.sleeps interval count 0 = count * interval.inNanoseconds) := by
  intro waited polled interval
  have hagree : (polled.1.map Prod.fst, polled.2) = (waited.1, waited.2.unwaiting) := by
    rw [awaitPhrase_eq]
    exact (carries_unwaiting hfree).listen patience g s.recorded
  obtain ⟨hanswer, hafter⟩ := Prod.mk.inj hagree
  refine ⟨⟨hanswer, ?_, ?_, ?_⟩, ⟨?_, ?_⟩, ?_⟩
  · exact congrArg (·.active) hafter
  · exact congrArg (·.world.world) hafter
  · exact congrArg (·.world.trace) hafter
  · intro hnone
    exact awaitPhrase_add (Prod.ext hnone rfl)
  · intro answer time hsome
    exact awaitPhrase_time (Prod.ext hsome rfl)
  · intro hexact count
    rw [hexact.sleeps, Nat.zero_add]

/-- A session with an engine that fails at the third attempt and does not unload. -/
def unplugged (interval : Duration) : Session PreparedEngine :=
  new ⟨[.ok none, .ok none, .error (.deviceLost "unplugged")], [], [some (.rejected "busy")], false⟩
    ⟨⟨10, 0⟩, interval⟩

/-- Polling every fifty milliseconds fails after a tenth of a second, as waiting does, and with the
unload as its last request. -/
theorem awaitPhrase_agrees_unplugged :
    Timer.usual.Exact (.ofMilliseconds 50) ∧
      ∃ after, (unplugged (.ofMilliseconds 50)).polling.recorded.awaitPhrase .usual 3
          Turn.greeting.grammar =
          (some (.error (.recognitionEngine (.deviceLost "unplugged")), 100000000), after) ∧
        ((unplugged (.ofMilliseconds 50)).recorded.listen 3 Turn.greeting.grammar).1 =
          some (.error (.recognitionEngine (.deviceLost "unplugged"))) ∧
        after.world.trace = [.loaded "greeting" (.ok ()), .attempted .zero (.ok none),
          .attempted .zero (.ok none), .attempted .zero (.error (.deviceLost "unplugged")),
          .unloaded (.error (.rejected "busy"))] ∧
        after.attempts = 3 ∧ Timer.usual.sleeps (.ofMilliseconds 50) (3 - 1) 0 = 2 * 50000000 := by
  have hfree : ∀ t t' (world : PreparedEngine),
      Engine.attempt t world = Engine.attempt t' world := fun _ _ _ => rfl
  have hexact : Timer.usual.Exact (.ofMilliseconds 50) := Timer.exact_usual (by decide) (by decide)
  obtain ⟨⟨hanswer, -, -, htrace⟩, -, hsleeps⟩ :=
    awaitPhrase_agrees hfree .usual (unplugged (.ofMilliseconds 50)) Turn.greeting.grammar 3
  exact ⟨hexact, _, rfl, hanswer.symm, htrace, rfl, hsleeps hexact 2⟩

end Session

end Colloquy
