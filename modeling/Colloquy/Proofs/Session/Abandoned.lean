import Colloquy.Proofs.Session.Calls
import Colloquy.Proofs.Session.PollingAgrees

/-!
# Abandoned listening

Listening by polling may be given up at a deadline. With a timer that keeps to the interval,
attempts are made one interval after the other, and all of those that fall before the deadline, or on
it, count (`attemptsUntil_of_exact`): listening is abandoned if they recognized nothing
(`awaitUntil_eq_abandoned_iff`), and otherwise it ends as if there were no deadline
(`awaitPhrase_of_awaitUntil`). Abandoned listening leaves the session as a new one over the same
engine (`awaitUntil_abandoned`).

* `cancellation_safety`: all of this together, and that a grammar that was active before is left
  alone.
-/

namespace Colloquy.Session

variable {σ : Type} [Engine σ]

/-! ## One attempt after the other -/

/-- The session after `k` attempts, whatever they recognized. -/
def attempted : (k : Nat) → Session σ → Session σ
  | 0, s => s
  | k + 1, s => attempted k s.attempt.2

theorem hear_eq_none_iff (patience : Nat) (s : Session σ) :
    (hear patience s).1 = none ↔ ∀ k < patience, (attempted k s).attempt.1 = .ok none := by
  induction patience generalizing s with
  | zero => simp [hear_zero]
  | succ patience ih =>
    rw [Nat.forall_lt_succ_left, hear]
    simp only [attempted]
    rcases s.attempt with ⟨e | _ | heard, after⟩
    · simp
    · simpa using ih after
    · simp

/-! ## Up to the deadline -/

section

variable {timer : Timer} {interval : Duration} {deadline : Nat}

/-- The attempts up to the deadline come one interval after the other, and then the time is up. -/
theorem attemptsUntil_of_exact (hexact : timer.Exact interval) (hpos : 0 < interval.inNanoseconds)
    {patience : Nat} (now : Nat) (h : (deadline - now) / interval.inNanoseconds < patience) :
    attemptsUntil timer interval deadline patience now =
        (deadline - now) / interval.inNanoseconds + 1 ∧
      timeUp timer interval deadline patience now = true := by
  induction patience generalizing now with
  | zero => exact absurd h (Nat.not_lt_zero _)
  | succ patience ih =>
    rw [attemptsUntil, timeUp, hexact now]
    by_cases hnext : now + interval.inNanoseconds ≤ deadline
    · have hstep : (deadline - now) / interval.inNanoseconds =
          (deadline - (now + interval.inNanoseconds)) / interval.inNanoseconds + 1 := by
        rw [Nat.div_eq_sub_div hpos (by omega), Nat.sub_sub]
      rw [hstep] at h ⊢
      obtain ⟨hattempts, hup⟩ := ih _ (Nat.lt_of_succ_lt_succ h)
      rw [if_pos hnext, if_pos hnext, hattempts]
      exact ⟨rfl, hup⟩
    · have hlast : (deadline - now) / interval.inNanoseconds = 0 := Nat.div_eq_of_lt (by omega)
      rw [if_neg hnext, if_neg hnext, hlast]
      exact ⟨rfl, rfl⟩

/-- An answer that comes by the deadline comes without a deadline too, at the same moment. -/
theorem poll_of_pollUntil {g : Grammar} {patience now : Nat} {s after : Session σ}
    {answer : Except Error Phrase} (hnow : now ≤ deadline)
    (h : pollUntil timer g interval deadline patience now s = (.over answer, after)) :
    ∃ time ≤ deadline, ∀ more, patience ≤ more →
      poll timer g interval more now s = (some (answer, time), after) := by
  induction patience generalizing now s with
  | zero => cases h
  | succ patience ih =>
    rw [pollUntil] at h
    rcases hresume : s.resume g with ⟨_ | found, reached⟩
    · rw [hresume] at h
      dsimp only at h
      by_cases hnext : timer.wakeTime interval now ≤ deadline
      · rw [if_pos hnext] at h
        obtain ⟨time, htime, hpoll⟩ := ih hnext h
        refine ⟨time, htime, fun more hle => ?_⟩
        obtain ⟨more, rfl⟩ : ∃ n, more = n + 1 := ⟨more - 1, by omega⟩
        rw [poll, hresume]
        exact hpoll more (Nat.le_of_succ_le_succ hle)
      · rw [if_neg hnext] at h
        cases h
    · rw [hresume] at h
      cases h
      refine ⟨now, hnow, fun more hle => ?_⟩
      obtain ⟨more, rfl⟩ : ∃ n, more = n + 1 := ⟨more - 1, by omega⟩
      rw [poll, hresume]

end

section

variable {timer : Timer} {g : Grammar} {deadline patience : Nat}

/-- Listening up to a deadline makes the attempts that fall before it or on it, and then leaves. -/
theorem awaitUntil_eq {s loaded : Session σ} (hexact : timer.Exact s.config.pollInterval)
    (hpos : 0 < s.config.pollInterval.inNanoseconds) (hload : s.load g = (.ok (), loaded))
    (h : deadline / s.config.pollInterval.inNanoseconds < patience) :
    s.awaitUntil timer deadline patience g = leave true
      (conclude g (hear (deadline / s.config.pollInterval.inNanoseconds + 1) loaded)) := by
  have hconfig := load_config g s
  have hattend := attend_eq g (.pollingUntil timer deadline patience) s
  obtain ⟨hattempts, hup⟩ := attemptsUntil_of_exact hexact hpos 0 h
  rw [hload] at hattend hconfig
  dsimp only [Way.attempts, Way.givesUp] at hattend hconfig
  rw [hconfig, hattempts, hup, Nat.sub_zero] at hattend
  exact hattend

theorem leave_true_eq_abandoned_iff {reached : Option (Except Error Recognition) × Session σ} :
    (leave true (conclude g reached)).1 = .abandoned ↔ reached.1 = none := by
  rcases reached with ⟨_ | _, _⟩ <;> simp [leave, conclude]

/-- Listening is abandoned if no attempt up to the deadline recognized anything. -/
theorem awaitUntil_eq_abandoned_iff {s loaded : Session σ}
    (hexact : timer.Exact s.config.pollInterval)
    (hpos : 0 < s.config.pollInterval.inNanoseconds) (hload : s.load g = (.ok (), loaded))
    (h : deadline / s.config.pollInterval.inNanoseconds < patience) :
    (s.awaitUntil timer deadline patience g).1 = .abandoned ↔
      ∀ k, k * s.config.pollInterval.inNanoseconds ≤ deadline →
        (attempted k loaded).attempt.1 = .ok none := by
  rw [awaitUntil_eq hexact hpos hload h, leave_true_eq_abandoned_iff, hear_eq_none_iff]
  simp only [Nat.lt_succ_iff, Nat.le_div_iff_mul_le hpos]

/-- Listening that is answered by the deadline ends as if it had none, and in time. -/
theorem awaitPhrase_of_awaitUntil {s loaded after : Session σ} {answer : Except Error Phrase}
    (hload : s.load g = (.ok (), loaded))
    (h : s.awaitUntil timer deadline patience g = (.over answer, after)) :
    ∃ time ≤ deadline, ∀ more, patience ≤ more →
      s.awaitPhrase timer more g = (some (answer, time), after) := by
  rw [awaitUntil, hload] at h
  dsimp only at h
  rcases hpoll : pollUntil timer g loaded.config.pollInterval deadline patience 0 loaded with
    ⟨_ | _ | found, reached⟩
  · rw [hpoll] at h
    cases h
  · rw [hpoll] at h
    cases h
  · rw [hpoll] at h
    cases h
    obtain ⟨time, htime, hsame⟩ := poll_of_pollUntil (Nat.zero_le deadline) hpoll
    refine ⟨time, htime, fun more hle => ?_⟩
    rw [awaitPhrase, hload]
    exact hsame more hle

/-- Abandoned listening made a load, its attempts and one unload, whatever that was answered, and
left the session like a new one. -/
theorem awaitUntil_abandoned {s loaded : Session (Recorded σ)}
    (hexact : timer.Exact s.config.pollInterval)
    (hpos : 0 < s.config.pollInterval.inNanoseconds) (hnone : s.active = none)
    (hload : s.load g = (.ok (), loaded))
    (hpatience : deadline / s.config.pollInterval.inNanoseconds < patience)
    (h : (s.awaitUntil timer deadline patience g).1 = .abandoned) :
    (∃ freed, (s.awaitUntil timer deadline patience g).2.world.trace =
        s.world.trace ++ .loaded g.name (.ok ()) ::
          (List.replicate (deadline / s.config.pollInterval.inNanoseconds + 1)
            (.attempted s.config.attemptTimeout (.ok none)) ++ [.unloaded freed])) ∧
      (s.awaitUntil timer deadline patience g).2 =
        new (s.awaitUntil timer deadline patience g).2.world s.config := by
  obtain ⟨active, hactive, -⟩ | ⟨-, e, after, hrefused, -⟩ |
    ⟨-, later, hloaded, htrace, hconfig, hactive⟩ := load_cases g s
  · rw [hnone] at hactive
    cases hactive
  · rw [hload] at hrefused
    cases hrefused
  · rw [hload] at hloaded
    cases hloaded
    rw [awaitUntil_eq hexact hpos hload hpatience] at h ⊢
    generalize deadline / s.config.pollInterval.inNanoseconds + 1 = attempts at h ⊢
    have hstill := hear_active attempts loaded
    rcases hear_cases attempts loaded with
      ⟨heard, hhear, hmore⟩ | ⟨silent, answer, heard, -, hhear, -⟩
    · rw [hhear] at hstill ⊢
      dsimp only [conclude, leave] at hstill ⊢
      rw [release_of_active_some (hstill.1.trans hactive)]
      obtain ⟨freed, after, hunload, hfreed, hkept, hleft⟩ := unload_cases heard
      rw [hunload]
      refine ⟨⟨freed, ?_⟩, ?_⟩
      · rw [hfreed, hmore, htrace, hconfig]
        simp only [List.append_assoc, List.cons_append, List.nil_append]
      · dsimp only
        rw [new, ← hleft, ← hconfig, ← hstill.2, ← hkept]
    · rw [hhear] at h
      cases h

end

/-! ## Cancellation -/

/-- Listening may be cancelled safely, with a timer that keeps to the poll interval. If the session
had no active grammar and the load succeeds, listening is abandoned exactly if the attempts that
fall on the deadline or before it, one interval after the other from the beginning, recognized
nothing. It then made a load, these attempts and one unload, whose failure is not told, and the
session is like a new one over the same engine. If one of these attempts recognized a phrase or
failed, listening ends by the deadline as if there were none. If a grammar was active before,
listening fails at once, asks nothing and leaves that grammar alone. -/
theorem cancellation_safety (timer : Timer) (g : Grammar) (deadline : Nat)
    (s : Session (Recorded σ)) (hexact : timer.Exact s.config.pollInterval)
    (hpos : 0 < s.config.pollInterval.inNanoseconds) :
    let interval := s.config.pollInterval.inNanoseconds
    (∀ active, s.active = some active → ∀ patience, s.awaitUntil timer deadline patience g =
        (.over (.error (.grammarAlreadyLoaded active g.name)), s)) ∧
      ∀ loaded, s.active = none → s.load g = (.ok (), loaded) →
        ∀ patience, deadline / interval < patience →
          ((s.awaitUntil timer deadline patience g).1 = .abandoned ↔
              ∀ k, k * interval ≤ deadline → (attempted k loaded).attempt.1 = .ok none) ∧
            ((s.awaitUntil timer deadline patience g).1 = .abandoned →
              (∃ freed, (s.awaitUntil timer deadline patience g).2.world.trace =
                  s.world.trace ++ .loaded g.name (.ok ()) ::
                    (List.replicate (deadline / interval + 1)
                      (.attempted s.config.attemptTimeout (.ok none)) ++ [.unloaded freed])) ∧
                (s.awaitUntil timer deadline patience g).2 =
                  new (s.awaitUntil timer deadline patience g).2.world s.config) ∧
            ∀ k, k * interval ≤ deadline → (attempted k loaded).attempt.1 ≠ .ok none →
              ∃ answer after, s.awaitUntil timer deadline patience g = (.over answer, after) ∧
                ∃ time ≤ deadline, ∀ more, deadline / interval < more →
                  s.awaitPhrase timer more g = (some (answer, time), after) := by
  intro interval
  refine ⟨?_, ?_⟩
  · intro active hactive patience
    rw [awaitUntil, load, hactive]
  · intro loaded hnone hload patience hpatience
    have habandoned := awaitUntil_eq_abandoned_iff hexact hpos hload hpatience
    refine ⟨habandoned, awaitUntil_abandoned hexact hpos hnone hload hpatience, ?_⟩
    intro k hk hanswered
    -- With more patience than it takes, listening up to the deadline comes to the same.
    have henough := awaitUntil_eq hexact hpos hload (Nat.lt_succ_self (deadline / interval))
    rw [← awaitUntil_eq hexact hpos hload hpatience] at henough
    rcases hawait : s.awaitUntil timer deadline patience g with ⟨_ | _ | answer, after⟩
    · rw [awaitUntil_eq hexact hpos hload hpatience] at hawait
      generalize hear (deadline / interval + 1) loaded = reached at hawait
      obtain ⟨_ | _, _⟩ := reached <;> cases hawait
    · rw [hawait] at habandoned
      exact absurd (habandoned.mp rfl k hk) hanswered
    · obtain ⟨time, htime, hsame⟩ := awaitPhrase_of_awaitUntil hload (henough.trans hawait)
      exact ⟨answer, after, rfl, time, htime, hsame⟩

/-- With an interval of three milliseconds, the third attempt of `unplugged` is made after six and
fails: listening that is given up after five is abandoned behind two attempts, and listening that is
given up after six has failed. -/
theorem cancellation_safety_unplugged :
    let s := (unplugged (.ofMilliseconds 3)).recorded
    Timer.usual.Exact s.config.pollInterval ∧ 0 < s.config.pollInterval.inNanoseconds ∧
      ((s.awaitUntil .usual 5000000 2 Turn.greeting.grammar).1 = .abandoned ∧
        (∃ freed, (s.awaitUntil .usual 5000000 2 Turn.greeting.grammar).2.world.trace =
          [.loaded "greeting" (.ok ()), .attempted ⟨10, 0⟩ (.ok none),
            .attempted ⟨10, 0⟩ (.ok none), .unloaded freed]) ∧
        (s.awaitUntil .usual 5000000 2 Turn.greeting.grammar).2.active = none) ∧
      (∃ answer after, s.awaitUntil .usual 6000000 3 Turn.greeting.grammar = (.over answer, after) ∧
        ∃ time ≤ 6000000, ∀ more, 2 < more →
          s.awaitPhrase .usual more Turn.greeting.grammar = (some (answer, time), after)) ∧
      (s.load Turn.greeting.grammar).2.awaitUntil .usual 6000000 3 Turn.freeChoice.grammar =
        (.over (.error (.grammarAlreadyLoaded "greeting" "free_choice")),
          (s.load Turn.greeting.grammar).2) := by
  intro s
  have hexact : Timer.usual.Exact s.config.pollInterval :=
    Timer.exact_usual (by decide) (by decide)
  have hpos : 0 < s.config.pollInterval.inNanoseconds := by decide
  have hload : s.load Turn.greeting.grammar = (.ok (), (s.load Turn.greeting.grammar).2) := rfl
  have hinterval : s.config.pollInterval.inNanoseconds = 3000000 := by decide
  have hfive : 5000000 / 3000000 = 1 := by decide
  have hsix : 6000000 / 3000000 = 2 := by decide
  obtain ⟨-, hcancel⟩ := cancellation_safety .usual Turn.greeting.grammar 5000000 s hexact hpos
  obtain ⟨-, hcancel'⟩ := cancellation_safety .usual Turn.greeting.grammar 6000000 s hexact hpos
  rw [hinterval, hfive] at hcancel
  rw [hinterval, hsix] at hcancel'
  obtain ⟨hiff, habandoned, -⟩ := hcancel _ rfl hload 2 (by decide)
  obtain ⟨-, -, hanswered⟩ := hcancel' _ rfl hload 3 (by decide)
  have hsilent : (s.awaitUntil .usual 5000000 2 Turn.greeting.grammar).1 = .abandoned := by
    refine hiff.mpr fun k hk => ?_
    obtain rfl | rfl : k = 0 ∨ k = 1 := by omega
    · rfl
    · rfl
  obtain ⟨htrace, hnew⟩ := habandoned hsilent
  refine ⟨hexact, hpos, ⟨hsilent, htrace, congrArg (·.active) hnew⟩,
    hanswered 2 (by decide) nofun, ?_⟩
  exact (cancellation_safety .usual Turn.freeChoice.grammar 6000000
    (s.load Turn.greeting.grammar).2 hexact hpos).1 "greeting" rfl 3

end Colloquy.Session
