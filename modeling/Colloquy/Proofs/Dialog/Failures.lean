import Colloquy.Proofs.Dialog.Conduct

/-!
# Failures of a dialog

A dialog fails exactly if its opening line, one of its turns, or its closing line does, and it stops
there: the first turn that fails is the last that is taken, and its failure is put down to it
(`run_eq_failed_iff`). The session is left as it was found, so the next dialog is not affected; with
a grammar that someone else has loaded each turn fails for that reason (`failure_contained`).
-/

namespace Colloquy.Dialog

open Act

variable {σ : Type} [Engine σ] [Voice σ] [Display σ]

/-! ## Turns that succeed -/

/-- The turns all succeed, one after the other, and lead from one session to another. -/
inductive Taken (patience : Nat) : Session σ → List Turn → Session σ → Prop
  | none (s : Session σ) : Taken patience s [] s
  | turn {s next after : Session σ} {turn : Turn} {turns : List Turn} {phrase : Phrase}
    (h : runTurn patience turn s = (.ok phrase, next)) (hmore : Taken patience next turns after) :
    Taken patience s (turn :: turns) after

theorem takeTurns_eq_ok_iff {patience : Nat} {turns : List Turn} {s after : Session σ} :
    takeTurns patience turns s = (.ok (), after) ↔ Taken patience s turns after := by
  induction turns generalizing s with
  | nil =>
    rw [takeTurns_nil]
    constructor
    · intro h
      cases h
      exact .none _
    · intro h
      cases h
      rfl
  | cons turn turns ih =>
    rw [takeTurns_cons]
    constructor
    · intro h
      rcases hturn : runTurn patience turn s with ⟨halt | phrase, next⟩
      · rw [hturn] at h
        cases h
      · rw [hturn] at h
        exact .turn hturn (ih.mp h)
    · intro h
      cases h with
      | turn hturn hmore =>
        rw [hturn]
        exact ih.mpr hmore

/-- A row of turns is halted by the first turn that is, and no turn is taken behind that one. -/
theorem takeTurns_eq_error_iff {patience : Nat} {turns : List Turn} {s after : Session σ}
    {halt : Halt} :
    takeTurns patience turns s = (.error halt, after) ↔
      ∃ asked turn later reached source, turns = asked ++ turn :: later ∧
        Taken patience s asked reached ∧
        runTurn patience turn reached = (.error source, after) ∧ halt = source.inTurn turn := by
  induction turns generalizing s with
  | nil =>
    rw [takeTurns_nil]
    constructor
    · intro h
      cases h
    · intro h
      obtain ⟨asked, turn, later, reached, source, h, -⟩ := h
      exact absurd h (by simp)
  | cons first turns ih =>
    rw [takeTurns_cons]
    constructor
    · intro h
      rcases hfirst : runTurn patience first s with ⟨source | phrase, next⟩
      · rw [hfirst] at h
        cases h
        exact ⟨[], first, turns, s, source, rfl, .none s, hfirst, rfl⟩
      · rw [hfirst] at h
        obtain ⟨asked, turn, later, reached, source, rfl, hasked, hturn, rfl⟩ := ih.mp h
        exact ⟨first :: asked, turn, later, reached, source, rfl, .turn hfirst hasked, hturn, rfl⟩
    · intro h
      obtain ⟨asked, turn, later, reached, source, hturns, hasked, hturn, rfl⟩ := h
      cases hasked with
      | none =>
        obtain ⟨rfl, rfl⟩ := List.cons.inj hturns
        rw [hturn]
      | turn hfirst hmore =>
        obtain ⟨rfl, rfl⟩ := List.cons.inj hturns
        rw [hfirst]
        exact ih.mpr ⟨_, turn, later, reached, source, rfl, hmore, hturn, rfl⟩

/-! ## Dialogs that fail -/

theorem failed_eq_inTurn_iff {cause : Error} {halt : Halt} {turn : Turn} :
    .failed cause = halt.inTurn turn ↔
      ∃ source, halt = .failed source ∧ cause = .turn turn source := by
  cases halt <;> simp [Halt.inTurn]

/-- A dialog fails with its opening line, with one of its turns, or with its closing line. -/
theorem run_eq_failed_iff {patience : Nat} {s after : Session σ} {cause : Error} :
    run patience s = (.error (.failed cause), after) ↔
      say (.plain openingLine) s = (.error (.failed cause), after) ∨
        ∃ opened, say (.plain openingLine) s = (.ok (), opened) ∧
          ((∃ asked turn later reached source, Turn.all = asked ++ turn :: later ∧
              Taken patience opened asked reached ∧
              runTurn patience turn reached = (.error (.failed source), after) ∧
              cause = .turn turn source) ∨
            ∃ reached, Taken patience opened Turn.all reached ∧
              say (.plain closingLine) reached = (.error (.failed cause), after)) := by
  constructor
  · intro h
    rw [run_apply] at h
    rcases hopen : say (.plain openingLine) s with ⟨halt | _, opened⟩
    · rw [hopen] at h
      exact Or.inl h
    · rw [hopen] at h
      dsimp only at h
      refine Or.inr ⟨opened, rfl, ?_⟩
      rcases htaken : takeTurns patience Turn.all opened with ⟨halt | _, reached⟩
      · rw [htaken] at h
        cases h
        obtain ⟨asked, turn, later, reached, halt, hall, hasked, hturn, hhalt⟩ :=
          takeTurns_eq_error_iff.mp htaken
        obtain ⟨source, rfl, rfl⟩ := failed_eq_inTurn_iff.mp hhalt
        exact Or.inl ⟨asked, turn, later, reached, source, hall, hasked, hturn, rfl⟩
      · rw [htaken] at h
        exact Or.inr ⟨reached, takeTurns_eq_ok_iff.mp htaken, h⟩
  · intro h
    rw [run_apply]
    obtain hopen | ⟨opened, hopen, ⟨asked, turn, later, reached, source, hall, hasked, hturn, rfl⟩ |
      ⟨reached, htaken, hclose⟩⟩ := h
    · rw [hopen]
    · have htaken := takeTurns_eq_error_iff.mpr
        ⟨asked, turn, later, reached, .failed source, hall, hasked, hturn, rfl⟩
      rw [hopen]
      dsimp only
      rw [htaken]
      rfl
    · rw [hopen]
      dsimp only
      rw [takeTurns_eq_ok_iff.mpr htaken]
      exact hclose

/-- While a grammar is active, a turn fails behind its prompt. -/
theorem runTurn_refused {patience : Nat} {turn : Turn} {s said : Session σ} {active : String}
    (hactive : s.active = some active) (hprompt : say (.plain turn.prompt) s = (.ok (), said)) :
    runTurn patience turn s =
      (.error (.failed (.grammarAlreadyLoaded active turn.grammar.name)), said) := by
  have hstill : said.active = some active := by
    rw [← hactive, ← say_active (.plain turn.prompt) s, hprompt]
  rw [runTurn, bind_apply, hprompt]
  dsimp only
  rw [bind_apply, listen_refused hstill]

/-! ## The next dialog -/

/-- A failure does not reach beyond its dialog, and is told for what it is. After any row of requests
to dialogs in one session, whether they succeeded or failed, the session has the active grammar that
it began with, or again none; so it has after the next request. If it began with one, a turn whose
prompt is said fails for that reason, without a request to the engine, and leaves that grammar
active. A dialog fails exactly if its opening line does, or a turn behind turns that all succeed, or
its closing line; the failure of a turn is put down to that turn, once, and those of the two lines
are told as they are. The session is then left where the failure left it, so no further turn has been
begun. -/
theorem failure_contained {fresh s : Session (Recorded σ)} (h : Held fresh s) (patience : Nat) :
    (s.active = fresh.active ∧
        ∀ call : Call, (call.act patience s).1 ≠ .error .listening →
          (call.act patience s).2.active = fresh.active) ∧
      (∀ active, fresh.active = some active → ∀ turn said,
        say (.plain turn.prompt) s = (.ok (), said) →
          runTurn patience turn s =
              (.error (.failed (.grammarAlreadyLoaded active turn.name)), said) ∧
            said.active = some active ∧
            said.world.trace = s.world.trace ++
              [.wrote turn.prompt (.ok ()), .spoke (.plain turn.prompt) (.ok ())]) ∧
      ∀ cause after, run patience s = (.error (.failed cause), after) ↔
        say (.plain openingLine) s = (.error (.failed cause), after) ∨
          ∃ opened, say (.plain openingLine) s = (.ok (), opened) ∧
            ((∃ asked turn later reached source, Turn.all = asked ++ turn :: later ∧
                Taken patience opened asked reached ∧
                runTurn patience turn reached = (.error (.failed source), after) ∧
                cause = .turn turn source) ∨
              ∃ reached, Taken patience opened Turn.all reached ∧
                say (.plain closingLine) reached = (.error (.failed cause), after)) := by
  refine ⟨⟨h.active, fun call hover => (h.call patience call hover).active⟩, ?_,
    fun cause after => run_eq_failed_iff⟩
  intro active hactive turn said hprompt
  have hstill : s.active = some active := h.active.trans hactive
  refine ⟨runTurn_refused hstill hprompt, ?_, ?_⟩
  · rw [← hstill, ← say_active (.plain turn.prompt) s, hprompt]
  · obtain ⟨e, after, hsay, -⟩ | ⟨e, after, hsay, -⟩ | ⟨after, hsay, htrace⟩ :=
      say_cases (.plain turn.prompt) s
    · rw [hprompt] at hsay
      cases hsay
    · rw [hprompt] at hsay
      cases hsay
    · rw [hprompt] at hsay
      cases hsay
      exact htrace

/-- A dialog in the session `interference` fails in its first turn, and the next one begins without
an active grammar. With a grammar loaded beforehand, a turn fails behind its prompt. -/
theorem failure_contained_interference :
    (∃ after, run 1 interference.recorded =
        (.error (.failed (.turn .greeting (.recognitionEngine (.deviceLost "unplugged")))), after) ∧
      Held interference.recorded after ∧ after.active = none) ∧
      ∃ said, say (.plain Turn.freeChoice.prompt)
          (interference.recorded.load Turn.greeting.grammar).2 = (.ok (), said) ∧
        runTurn 1 .freeChoice (interference.recorded.load Turn.greeting.grammar).2 =
          (.error (.failed (.grammarAlreadyLoaded "greeting" "free_choice")), said) ∧
        said.active = some "greeting" := by
  obtain ⟨-, -, hfails⟩ := failure_contained (.fresh : Held interference.recorded _) 1
  have hrun := (hfails _ _).mpr
    (Or.inr ⟨_, rfl, Or.inl ⟨[], .greeting, _, _, _, rfl, .none _, rfl, rfl⟩⟩)
  have hheld : Held interference.recorded (Call.run.act 1 interference.recorded).2 :=
    .call .fresh 1 .run nofun
  obtain ⟨⟨hactive, -⟩, -, -⟩ := failure_contained hheld 1
  obtain ⟨-, hrefused, -⟩ := failure_contained
    (.fresh : Held (interference.recorded.load Turn.greeting.grammar).2 _) 1
  obtain ⟨hturn, hstill, -⟩ := hrefused "greeting" rfl .freeChoice _ rfl
  exact ⟨⟨_, hrun, hheld, hactive⟩, _, rfl, hturn, hstill⟩

end Colloquy.Dialog
