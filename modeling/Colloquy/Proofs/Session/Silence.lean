import Colloquy.Proofs.Session.Calls

/-!
# Silence and an answer

While nothing is recognized, an engine goes from state to state (`Engine.Silence`), and a session
over it makes one attempt after the other (`hear_silence`). So the end of listening can be told from
a silence of the engine and the answer behind it, however long the silence is (`Ends.of_answer`). If
the load is refused, listening ends before that (`Ends.of_refused`).
-/

namespace Colloquy

variable {σ : Type} [Engine σ]

/-- So many attempts in a row recognize nothing, and lead the engine from one state to another. -/
inductive Engine.Silence (timeout : Duration) : Nat → σ → σ → Prop
  | none (world : σ) : Silence timeout 0 world world
  | attempt {count : Nat} {start next last : σ}
    (silent : Engine.attempt timeout start = (.ok .none, next))
    (rest : Silence timeout count next last) : Silence timeout (count + 1) start last

/-- The beginning of a silence is a silence. -/
theorem Engine.Silence.take {timeout : Duration} {count : Nat} {start last : σ}
    (h : Silence timeout count start last) {fewer : Nat} (hle : fewer ≤ count) :
    ∃ between, Silence timeout fewer start between := by
  induction h generalizing fewer with
  | none world =>
    obtain rfl : fewer = 0 := Nat.le_zero.mp hle
    exact ⟨world, .none world⟩
  | @attempt count start next last silent rest ih =>
    cases fewer with
    | zero => exact ⟨start, .none start⟩
    | succ fewer =>
      obtain ⟨between, hbetween⟩ := ih (Nat.le_of_succ_le_succ hle)
      exact ⟨between, .attempt silent hbetween⟩

namespace Session

variable {g : Grammar}

/-! ## What a recorded session goes through -/

theorem load_recorded {s : Session σ} (hnone : s.active = none) {loaded : σ}
    (hload : Engine.load g s.world = (.ok (), loaded)) :
    s.recorded.load g =
      (.ok (), ⟨⟨loaded, [.loaded g.name (.ok ())]⟩, s.config, some g.name⟩) := by
  simp only [load, recorded, hnone, Recorded.load_eq, Recorded.new, hload, List.nil_append]

theorem load_recorded_refused {s : Session σ} (hnone : s.active = none) {e : EngineFailure}
    {left : σ} (hload : Engine.load g s.world = (.error e, left)) :
    s.recorded.load g = (.error (.grammarLoad g.name e),
      ⟨⟨left, [.loaded g.name (.error e)]⟩, s.config, none⟩) := by
  simp only [load, recorded, hnone, Recorded.load_eq, Recorded.new, hload, List.nil_append]

section

variable {config : SessionConfig} {active : Option String}

/-- Silent attempts are made one after the other and lead to nothing. -/
theorem hear_silence {count : Nat} {start last : σ}
    (h : Engine.Silence config.attemptTimeout count start last) (active : Option String)
    (trace : List Event) (patience : Nat) :
    hear (count + patience) (⟨⟨start, trace⟩, config, active⟩ : Session (Recorded σ)) =
      hear patience ⟨⟨last, trace ++
        List.replicate count (.attempted config.attemptTimeout (.ok none))⟩, config, active⟩ := by
  induction h generalizing trace with
  | none => rw [Nat.zero_add, List.replicate_zero, List.append_nil]
  | attempt silent rest ih =>
    rw [Nat.add_right_comm, hear]
    simp only [attempt, Recorded.attempt_eq, silent]
    rw [ih, List.append_assoc, List.singleton_append, List.replicate_succ]

theorem hear_answer {world heard : σ} {answer : Except EngineFailure Recognition}
    (hattempt : Engine.attempt config.attemptTimeout world = (answer.map some, heard))
    (trace : List Event) (patience : Nat) :
    hear (patience + 1) (⟨⟨world, trace⟩, config, active⟩ : Session (Recorded σ)) =
      (some (answer.mapError .recognitionEngine), ⟨⟨heard, trace ++
        [.attempted config.attemptTimeout (answer.map some)]⟩, config, active⟩) := by
  rw [hear]
  simp only [attempt, Recorded.attempt_eq, hattempt]
  cases answer <;> rfl

theorem finish_recorded {heard last : σ} {freed : Except EngineFailure Unit}
    (hunload : Engine.unload heard = (freed, last)) (answer : Except EngineFailure Recognition)
    (trace : List Event) :
    (⟨⟨heard, trace⟩, config, active⟩ : Session (Recorded σ)).finish g
        (answer.mapError .recognitionEngine) =
      (conclusion g answer freed, ⟨⟨last, trace ++ [.unloaded freed]⟩, config, none⟩) := by
  simp only [finish, unload, Recorded.unload_eq, hunload]
  cases freed <;> cases answer <;> rfl

end

/-! ## The two ends -/

variable {s : Session σ}

/-- Listening is over at once if the load is refused. -/
theorem Ends.of_refused (hnone : s.active = none) {e : EngineFailure} {left : σ}
    (hload : Engine.load g s.world = (.error e, left)) :
    s.Ends g [.loaded g.name (.error e)] (.error (.grammarLoad g.name e))
      ⟨left, s.config, none⟩ := by
  have hrefused := load_recorded_refused hnone hload
  change s.Ends g _ _ (forget ⟨⟨left, [.loaded g.name (.error e)]⟩, s.config, none⟩)
  refine .of_recorded rfl (fun patience _ => ?_) (fun patience hlt => ?_)
  · rw [listen, hrefused]
  · exact absurd hlt (Nat.not_lt_zero patience)

/-- Listening ends at the first attempt that is answered, with one unload behind it. -/
theorem Ends.of_answer (hnone : s.active = none) {loaded world heard last : σ} {silent : Nat}
    (answer : Except EngineFailure Recognition) {freed : Except EngineFailure Unit}
    (hload : Engine.load g s.world = (.ok (), loaded))
    (hsilence : Engine.Silence s.config.attemptTimeout silent loaded world)
    (hattempt : Engine.attempt s.config.attemptTimeout world = (answer.map some, heard))
    (hunload : Engine.unload heard = (freed, last)) :
    s.Ends g (listenCalls g s.config.attemptTimeout silent (answer.map some) freed)
      (conclusion g answer freed) ⟨last, s.config, none⟩ := by
  have hloaded := load_recorded hnone hload
  let calls := listenCalls g s.config.attemptTimeout silent (answer.map some) freed
  change s.Ends g calls _ (forget ⟨⟨last, calls⟩, s.config, none⟩)
  refine .of_recorded rfl (fun patience hle => ?_) (fun patience hlt => ?_)
  · rw [countP_listenCalls] at hle
    obtain ⟨more, rfl⟩ := Nat.exists_eq_add_of_le hle
    rw [listen, hloaded]
    dsimp only
    rw [Nat.add_assoc, Nat.add_comm 1, hear_silence hsilence, hear_answer hattempt]
    dsimp only
    rw [finish_recorded hunload]
    simp only [calls, listenCalls, List.append_assoc, List.cons_append, List.nil_append]
  · -- With fewer attempts than it takes, all of them are part of the silence.
    rw [countP_listenCalls] at hlt
    obtain ⟨between, hbetween⟩ := hsilence.take (Nat.le_of_lt_succ hlt)
    have hhear := hear_silence hbetween (some g.name) [.loaded g.name (.ok ())] 0
    rw [Nat.add_zero, hear] at hhear
    rw [listen, hloaded]
    dsimp only
    rw [hhear]

end Session

end Colloquy
