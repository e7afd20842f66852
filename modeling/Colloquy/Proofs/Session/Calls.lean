import Colloquy.Proofs.Session.Ends
import Colloquy.Proofs.Session.Listening

/-!
# The requests of listening

What listening asks of its engine, whatever the engine answers. Attempts are made until one of them
is answered, by a phrase or a failure, and those before it recognized nothing (`hear_cases`).
Listening as a whole is refused by the load, ends behind an attempt and the unload that follows it,
or is still going on (`listen_cases`).
-/

namespace Colloquy.Session

variable {σ : Type} [Engine σ]

/-- So many attempts recognize nothing, or one of them is answered. -/
theorem hear_cases (patience : Nat) (s : Session (Recorded σ)) :
    (∃ after, hear patience s = (none, after) ∧
        after.world.trace = s.world.trace ++
          List.replicate patience (.attempted s.config.attemptTimeout (.ok none))) ∨
      ∃ (silent : Nat) (answer : Except EngineFailure Recognition) (after : _),
        silent < patience ∧
        hear patience s = (some (answer.mapError .recognitionEngine), after) ∧
        after.world.trace = s.world.trace ++
          (List.replicate silent (.attempted s.config.attemptTimeout (.ok none)) ++
            [.attempted s.config.attemptTimeout (answer.map some)]) := by
  induction patience generalizing s with
  | zero => exact Or.inl ⟨s, rfl, (List.append_nil _).symm⟩
  | succ patience ih =>
    obtain ⟨answer, next, hattempt, htrace, hconfig, -⟩ := attempt_cases s
    rw [hear, hattempt]
    rcases answer with e | _ | heard
    · exact Or.inr ⟨0, .error e, next, Nat.succ_pos _, rfl, htrace⟩
    · rcases ih next with ⟨after, hafter, hmore⟩ | ⟨silent, answer, after, hlt, hafter, hmore⟩
      · refine Or.inl ⟨after, hafter, ?_⟩
        rw [hmore, htrace, hconfig, List.append_assoc, List.singleton_append, List.replicate_succ]
      · refine Or.inr ⟨silent + 1, answer, after, Nat.succ_lt_succ hlt, hafter, ?_⟩
        rw [hmore, htrace, hconfig, List.append_assoc, List.singleton_append, List.replicate_succ,
          List.cons_append]
    · exact Or.inr ⟨0, .ok heard, next, Nat.succ_pos _, rfl, htrace⟩

/-- The answer of listening that is over: the phrase that was heard, unless the attempt that ended it
or the unload behind it failed. -/
def conclusion (g : Grammar) (answer : Except EngineFailure Recognition)
    (freed : Except EngineFailure Unit) : Except Error Phrase :=
  (answer.bind fun heard => freed.map fun _ => .ofRecognition g heard).mapError .recognitionEngine

theorem finish_cases (g : Grammar) (answer : Except EngineFailure Recognition)
    (s : Session (Recorded σ)) :
    ∃ freed after,
      s.finish g (answer.mapError .recognitionEngine) = (conclusion g answer freed, after) ∧
        after.world.trace = s.world.trace ++ [.unloaded freed] ∧ after.active = none := by
  obtain ⟨freed, after, hunload, htrace, -, hactive⟩ := unload_cases s
  refine ⟨freed, after, ?_, htrace, hactive⟩
  unfold finish
  rw [hunload]
  rcases answer with e | heard <;> rcases freed with e' | _ <;> rfl

theorem leave_fst (gaveUp : Bool) (reached : Option (Except Error Phrase) × Session σ) :
    (leave gaveUp reached).1 = .of gaveUp reached.1 := by
  obtain ⟨_ | answer, s⟩ := reached <;> cases gaveUp <;> rfl

theorem Standing.of_eq_over_iff {gaveUp : Bool} {answer : Option (Except Error Phrase)}
    {result : Except Error Phrase} :
    Standing.of gaveUp answer = .over result ↔ answer = some result := by
  cases answer <;> cases gaveUp <;> simp [Standing.of]

/-- Once a grammar is loaded, listening fails with its attempts or with the unload, and in no other
way. -/
theorem leave_conclude_ne {e : Error} (he : ∀ cause, e ≠ .recognitionEngine cause) (g : Grammar)
    (gaveUp : Bool) (patience : Nat) (s : Session (Recorded σ)) :
    (leave gaveUp (conclude g (hear patience s))).1 ≠ .over (.error e) := by
  rw [leave_fst, ne_eq, Standing.of_eq_over_iff]
  rcases hear_cases patience s with ⟨after, hhear, -⟩ | ⟨silent, answer, heard, -, hhear, -⟩
  · rw [hhear, conclude]
    intro hfailed
    cases hfailed
  · obtain ⟨freed, after, hfinish, -⟩ := finish_cases g answer heard
    rw [hhear, conclude, hfinish, conclusion]
    intro hfailed
    cases hphrase : answer.bind fun r => freed.map fun _ => Phrase.ofRecognition g r with
    | ok phrase =>
      rw [hphrase] at hfailed
      cases hfailed
    | error cause =>
      rw [hphrase] at hfailed
      cases hfailed
      exact he cause rfl

/-- Listening that begins with no active grammar is refused, is still going on, or is over. -/
theorem listen_cases {s : Session (Recorded σ)} (hnone : s.active = none) (g : Grammar)
    (patience : Nat) :
    (∃ e after, s.listen patience g = (some (.error (.grammarLoad g.name e)), after) ∧
        after.world.trace = s.world.trace ++ [.loaded g.name (.error e)] ∧ after.active = none) ∨
      (∃ after, s.listen patience g = (none, after) ∧
        after.world.trace = s.world.trace ++ .loaded g.name (.ok ()) ::
          List.replicate patience (.attempted s.config.attemptTimeout (.ok none))) ∨
      ∃ silent answer freed after,
        s.listen patience g = (some (conclusion g answer freed), after) ∧
        after.world.trace = s.world.trace ++
          listenCalls g s.config.attemptTimeout silent (answer.map some) freed ∧
        after.active = none := by
  obtain ⟨active, hactive, -⟩ | ⟨-, e, after, hload, htrace, -, hactive⟩ |
    ⟨-, loaded, hload, htrace, hconfig, -⟩ := load_cases g s
  · rw [hnone] at hactive
    cases hactive
  · refine Or.inl ⟨e, after, ?_, htrace, hactive⟩
    rw [listen, hload]
  · apply Or.inr
    rw [listen, hload]
    rcases hear_cases patience loaded with ⟨after, hhear, hmore⟩ |
      ⟨silent, answer, heard, -, hhear, hmore⟩
    · refine Or.inl ⟨after, ?_, ?_⟩
      · dsimp only
        rw [hhear]
      · rw [hmore, htrace, hconfig, List.append_assoc, List.singleton_append]
    · obtain ⟨freed, after, hfinish, hfreed, hactive⟩ := finish_cases g answer heard
      refine Or.inr ⟨silent, answer, freed, after, ?_, ?_, hactive⟩
      · dsimp only
        rw [hhear]
        dsimp only
        rw [hfinish]
      · rw [hfreed, hmore, htrace, hconfig]
        simp only [listenCalls, List.append_assoc, List.cons_append, List.nil_append]

end Colloquy.Session
