import Colloquy.Dialog.Turn
import Colloquy.Engine.Prepared
import Colloquy.Proofs.Session.Serving

/-!
# One grammar at a time

A session keeps count of what is loaded in an engine that may refuse or fail any request. The
grammar it takes for loaded is the one that the requests so far leave loaded (`Holds`), whatever
they were answered. Each request to the engine keeps this (`Kept.load`, `Kept.attempt`,
`Kept.unload`), and it is made at a moment at which it has its place: a load while nothing is
loaded, an attempt while something is (`Timely`).

* `Kept.attend`, `kept_of_reached`: both hold after every row of requests to the session.
* `attend_over`: the requests of listening that is over.
* `one_grammar_at_a_time`: the protocol of a session as a whole.
-/

namespace Colloquy

/-! ## What a record leaves loaded -/

/-- A load of a grammar called `name` succeeded, and since then no other load succeeded and no
unload was requested. -/
def Holds (name : String) (trace : List Event) : Prop :=
  ∃ before after, trace = before ++ .loaded name (.ok ()) :: after ∧
    ∀ e ∈ after, (∀ other, e ≠ .loaded other (.ok ())) ∧ ∀ answer, e ≠ .unloaded answer

theorem not_holds_nil (name : String) : ¬ Holds name [] := by
  intro h
  obtain ⟨before, after, h, -⟩ := h
  exact absurd h (by simp)

/-- An event of a record is its last one, or stands before it. -/
theorem split_concat {trace before after : List Event} {last e : Event}
    (h : trace ++ [last] = before ++ e :: after) :
    (trace = before ∧ last = e ∧ after = []) ∨
      ∃ kept, after = kept ++ [last] ∧ trace = before ++ e :: kept := by
  rcases List.eq_nil_or_concat after with rfl | ⟨kept, final, rfl⟩
  · obtain ⟨hbefore, he⟩ := List.append_inj' h rfl
    exact Or.inl ⟨hbefore, (List.cons.inj he).1, rfl⟩
  · rw [List.concat_eq_append, ← List.cons_append, ← List.append_assoc] at h
    obtain ⟨hkept, hlast⟩ := List.append_inj' h rfl
    refine Or.inr ⟨kept, ?_, hkept⟩
    rw [List.concat_eq_append, hlast]

theorem holds_concat_loaded {name other : String} {trace : List Event} :
    Holds name (trace ++ [.loaded other (.ok ())]) ↔ other = name := by
  constructor
  · intro h
    obtain ⟨before, after, h, hafter⟩ := h
    obtain ⟨-, he, -⟩ | ⟨kept, rfl, -⟩ := split_concat h
    · injection he
    · exact absurd rfl ((hafter _ List.mem_concat_self).1 other)
  · intro h
    exact ⟨trace, [], by rw [h], List.forall_mem_nil _⟩

theorem not_holds_concat_unloaded {name : String} {trace : List Event}
    {answer : Except EngineFailure Unit} : ¬ Holds name (trace ++ [.unloaded answer]) := by
  intro h
  obtain ⟨before, after, h, hafter⟩ := h
  obtain ⟨-, he, -⟩ | ⟨kept, rfl, -⟩ := split_concat h
  · cases he
  · exact (hafter _ List.mem_concat_self).2 answer rfl

/-- Every other event leaves loaded what was loaded. -/
theorem holds_concat {name : String} {trace : List Event} {e : Event}
    (hload : ∀ other, e ≠ .loaded other (.ok ())) (hunload : ∀ answer, e ≠ .unloaded answer) :
    Holds name (trace ++ [e]) ↔ Holds name trace := by
  constructor
  · intro h
    obtain ⟨before, after, h, hafter⟩ := h
    obtain ⟨-, he, -⟩ | ⟨kept, rfl, rfl⟩ := split_concat h
    · exact absurd he (hload name)
    · exact ⟨before, kept, rfl, fun e he => hafter e (List.mem_append_left _ he)⟩
  · intro h
    obtain ⟨before, after, rfl, hafter⟩ := h
    refine ⟨before, after ++ [e], by rw [List.append_assoc, List.cons_append], ?_⟩
    intro e' he'
    rcases List.mem_append.mp he' with he' | he'
    · exact hafter e' he'
    · rw [List.mem_singleton.mp he']
      exact ⟨hload, hunload⟩

/-- While nothing is recognized, the grammar stays that was loaded. -/
theorem holds_silence {name other : String} {before : List Event} {timeout : Duration}
    (silent : Nat) :
    Holds name (before ++ .loaded other (.ok ()) ::
      List.replicate silent (.attempted timeout (.ok none))) ↔ other = name := by
  induction silent with
  | zero => exact holds_concat_loaded
  | succ silent ih =>
    rw [List.replicate_succ', ← List.cons_append, ← List.append_assoc,
      holds_concat (by simp) (by simp), ih]

/-- Without an unload, something stays loaded. -/
theorem holds_append {name : String} {trace more : List Event} (h : Holds name trace)
    (hmore : ∀ answer, .unloaded answer ∉ more) : ∃ name, Holds name (trace ++ more) := by
  induction more generalizing name trace with
  | nil => exact ⟨name, by rwa [List.append_nil]⟩
  | cons e more ih =>
    have hunload : ∀ answer, e ≠ .unloaded answer :=
      fun answer he => hmore answer (he ▸ List.mem_cons_self)
    have hrest : ∀ answer, .unloaded answer ∉ more :=
      fun answer he => hmore answer (List.mem_cons_of_mem _ he)
    rw [← List.singleton_append, ← List.append_assoc]
    by_cases hload : ∃ other, e = .loaded other (.ok ())
    · obtain ⟨other, rfl⟩ := hload
      exact ih (holds_concat_loaded.mpr rfl) hrest
    · exact ih ((holds_concat (fun other he => hload ⟨other, he⟩) hunload).mpr h) hrest

namespace Session

variable {σ : Type} [Engine σ]

/-! ## Moments of a run -/

/-- The requests `before` were made when an event had its place: a load while no grammar was active,
an attempt while one was. -/
def Timely (fresh : Session (Recorded σ)) (before : List Event) : Event → Prop
  | .loaded _ _ => ∃ s, Reached fresh s ∧ s.world.trace = before ∧ s.active = none
  | .attempted _ _ => ∃ s name, Reached fresh s ∧ s.world.trace = before ∧ s.active = some name
  | _ => True

/-- What every request to the engine keeps. -/
structure Kept (fresh s : Session (Recorded σ)) : Prop where
  holds : ∀ name, s.active = some name ↔ Holds name s.world.trace
  timely : ∀ before e after, s.world.trace = before ++ e :: after → Timely fresh before e

variable {fresh s : Session (Recorded σ)}

/-- One more request keeps what has been kept if it has its place and the session takes account of
it. -/
theorem Kept.concat (h : Kept fresh s) {after : Session (Recorded σ)} {e : Event}
    (htrace : after.world.trace = s.world.trace ++ [e]) (hplace : Timely fresh s.world.trace e)
    (hactive : ∀ name, after.active = some name ↔ Holds name (s.world.trace ++ [e])) :
    Kept fresh after := by
  refine ⟨htrace ▸ hactive, ?_⟩
  intro before e' later hsplit
  rw [htrace] at hsplit
  obtain ⟨rfl, rfl, -⟩ | ⟨kept, -, hkept⟩ := split_concat hsplit
  · exact hplace
  · exact h.timely before e' kept hkept

theorem Kept.load (h : Kept fresh s) (hs : Reached fresh s) (g : Grammar) :
    Kept fresh (s.load g).2 := by
  obtain ⟨active, -, hload⟩ | ⟨hnone, e, after, hload, htrace, -, hactive⟩ |
    ⟨hnone, after, hload, htrace, -, hactive⟩ := load_cases g s
  · rw [hload]
    exact h
  · rw [hload]
    apply h.concat htrace ⟨s, hs, rfl, hnone⟩
    intro name
    rw [holds_concat (by simp) (by simp), ← h.holds, hnone, hactive]
  · rw [hload]
    apply h.concat htrace ⟨s, hs, rfl, hnone⟩
    intro name
    rw [holds_concat_loaded, hactive, Option.some.injEq]

theorem Kept.attempt (h : Kept fresh s) (hs : Reached fresh s) {name : String}
    (hname : s.active = some name) : Kept fresh s.attempt.2 := by
  obtain ⟨answer, after, hattempt, htrace, -, hactive⟩ := attempt_cases s
  rw [hattempt]
  apply h.concat htrace ⟨s, name, hs, rfl, hname⟩
  intro name
  rw [holds_concat (by simp) (by simp), hactive, h.holds]

theorem Kept.unload (h : Kept fresh s) : Kept fresh s.unload.2 := by
  obtain ⟨answer, after, hunload, htrace, -, hactive⟩ := unload_cases s
  rw [hunload]
  apply h.concat htrace trivial
  intro name
  rw [hactive]
  exact iff_of_false nofun not_holds_concat_unloaded

/-! ## What requests to a session keep -/

/-- The attempts of listening keep what the load has kept. -/
theorem Kept.hear (hs : Reached fresh s) {g : Grammar} {loaded : Session (Recorded σ)}
    (hload : s.load g = (.ok (), loaded)) (hactive : loaded.active = some g.name)
    (h : Kept fresh loaded) (patience : Nat) : Kept fresh (loaded.hear patience).2 := by
  induction patience with
  | zero => exact h
  | succ patience ih =>
    have hstill := (hear_active patience loaded).1
    rw [hear_add]
    rcases hheard : loaded.hear patience with ⟨_ | outcome, after⟩
    · -- Nothing is recognized so far, so `after` is a session that is still listening.
      have hserve : s.serve (.listen g (.waiting patience)) = after := by
        rw [serve, attend, listen_eq, hload]
        dsimp only
        rw [hheard]
        rfl
      have hreached : Reached fresh after := hserve ▸ hs.serve _
      rw [hheard] at ih hstill
      dsimp only
      rw [hear_one_snd]
      exact ih.attempt hreached (hstill.trans hactive)
    · rw [hheard] at ih
      exact ih

theorem Kept.attend (h : Kept fresh s) (hs : Reached fresh s) (g : Grammar) (way : Way) :
    Kept fresh (s.attend g way).2 := by
  have hkept := h.load hs g
  rw [attend_eq]
  obtain ⟨active, -, hload⟩ | ⟨-, e, after, hload, -⟩ | ⟨-, loaded, hload, -, -, hactive⟩ :=
    load_cases g s
  · rwa [hload] at hkept ⊢
  · rwa [hload] at hkept ⊢
  · rw [hload] at hkept ⊢
    have hheard := hkept.hear hs hload hactive (way.attempts loaded.config.pollInterval)
    rcases leave_conclude g (way.givesUp loaded.config.pollInterval)
      (loaded.hear (way.attempts loaded.config.pollInterval)) with hleft | hleft
    · exact hleft ▸ hheard
    · exact hleft ▸ hheard.unload

theorem kept_fresh (world : σ) (config : SessionConfig) :
    Kept (new world config).recorded (new world config).recorded := by
  refine ⟨fun name => iff_of_false nofun (not_holds_nil name), ?_⟩
  intro before e after h
  exact absurd h.symm (by simp [recorded, Recorded.new])

theorem kept_of_reached (hfresh : Kept fresh fresh) (hs : Reached fresh s) : Kept fresh s := by
  induction hs with
  | fresh => exact hfresh
  | serve hs request ih =>
    cases request with
    | load g => exact ih.load hs g
    | unload => exact ih.unload
    | listen g way => exact ih.attend hs g way

/-! ## Listening that is over -/

theorem hear_trace (patience : Nat) (s : Session (Recorded σ)) :
    ∃ answers : List (Except EngineFailure (Option Recognition)),
      (hear patience s).2.world.trace =
        s.world.trace ++ answers.map (.attempted s.config.attemptTimeout) := by
  induction patience generalizing s with
  | zero => exact ⟨[], by rw [hear_zero, List.map_nil, List.append_nil]⟩
  | succ patience ih =>
    obtain ⟨answer, after, hattempt, htrace, hconfig, -⟩ := attempt_cases s
    rw [hear, hattempt]
    rcases answer with e | _ | heard
    · exact ⟨[.error e], htrace⟩
    · obtain ⟨answers, hanswers⟩ := ih after
      refine ⟨.ok none :: answers, hanswers.trans ?_⟩
      rw [htrace, hconfig, List.append_assoc, List.singleton_append, List.map_cons]
    · exact ⟨[.ok (some heard)], htrace⟩

/-- Listening that is over made a load that failed, or a load, some attempts and one unload. -/
theorem attend_over (hnone : s.active = none) {g : Grammar} {way : Way}
    (hover : (s.attend g way).1 ≠ .going) :
    (s.attend g way).2.active = none ∧
      ((∃ e, (s.attend g way).2.world.trace = s.world.trace ++ [.loaded g.name (.error e)]) ∨
        ∃ (answers : List (Except EngineFailure (Option Recognition))) (freed : _),
          (s.attend g way).2.world.trace = s.world.trace ++ .loaded g.name (.ok ()) ::
            (answers.map (.attempted s.config.attemptTimeout) ++ [.unloaded freed])) := by
  rw [attend_eq] at hover ⊢
  obtain ⟨active, hactive, -⟩ | ⟨-, e, after, hload, htrace, -, hactive⟩ |
    ⟨-, loaded, hload, htrace, hconfig, hactive⟩ := load_cases g s
  · exact absurd hactive (by simp [hnone])
  · rw [hload]
    exact ⟨hactive, Or.inl ⟨e, htrace⟩⟩
  · rw [hload] at hover ⊢
    have hstill := (hear_active (way.attempts loaded.config.pollInterval) loaded).1.trans hactive
    obtain ⟨answers, hanswers⟩ := hear_trace (way.attempts loaded.config.pollInterval) loaded
    dsimp only at hover ⊢
    rw [leave_conclude_over hstill hover]
    obtain ⟨freed, after, hunload, hfreed, -, hleft⟩ :=
      unload_cases (loaded.hear (way.attempts loaded.config.pollInterval)).2
    rw [hunload]
    refine ⟨hleft, Or.inr ⟨answers, freed, ?_⟩⟩
    rw [hfreed, hanswers, htrace, hconfig]
    simp only [List.append_assoc, List.cons_append, List.nil_append]

/-! ## The protocol -/

/-- The protocol of a session, whatever its engine answers. The grammar it takes for active is the
one that its requests leave loaded. It asks for a load only while no grammar is active, so it
unloads between two loads, and it makes attempts only while one is. Listening that began with no
active grammar ends with none, and its unload is the only one and its last request. While a grammar
is active, loads and listening ask nothing and change nothing.

By the first part, sessions with the same record have the same grammar active, so `earlier` stands
for the session as it was when the request was made. -/
theorem one_grammar_at_a_time (world : σ) (config : SessionConfig) (s : Session (Recorded σ))
    (h : Reached (new world config).recorded s) :
    (∀ name, s.active = some name ↔ Holds name s.world.trace) ∧
      ((∀ before name answer after, s.world.trace = before ++ .loaded name answer :: after →
          ∃ earlier, Reached (new world config).recorded earlier ∧
            earlier.world.trace = before ∧ earlier.active = none) ∧
        ∀ before name between next answer after,
          s.world.trace = before ++ .loaded name (.ok ()) ::
            (between ++ .loaded next answer :: after) → ∃ freed, .unloaded freed ∈ between) ∧
      (∀ before timeout answer after,
        s.world.trace = before ++ .attempted timeout answer :: after →
          ∃ earlier name, Reached (new world config).recorded earlier ∧
            earlier.world.trace = before ∧ earlier.active = some name) ∧
      (s.active = none → ∀ g way, (s.attend g way).1 ≠ .going →
        (s.attend g way).2.active = none ∧
          ((∃ e, (s.attend g way).2.world.trace = s.world.trace ++ [.loaded g.name (.error e)]) ∨
            ∃ (answers : List (Except EngineFailure (Option Recognition))) (freed : _),
              (s.attend g way).2.world.trace = s.world.trace ++ .loaded g.name (.ok ()) ::
                (answers.map (.attempted s.config.attemptTimeout) ++ [.unloaded freed]))) ∧
      ∀ active, s.active = some active → ∀ g,
        s.load g = (.error (.grammarAlreadyLoaded active g.name), s) ∧
          ∀ way, s.attend g way = (.over (.error (.grammarAlreadyLoaded active g.name)), s) := by
  have hkept := kept_of_reached (kept_fresh world config) h
  refine ⟨hkept.holds, ⟨?_, ?_⟩, ?_, ?_, ?_⟩
  · intro before name answer after hsplit
    exact hkept.timely before _ after hsplit
  · intro before name between next answer after hsplit
    apply Classical.byContradiction
    intro hno
    rw [← List.cons_append, ← List.append_assoc] at hsplit
    obtain ⟨earlier, hearlier, htrace, hnone⟩ := hkept.timely _ _ after hsplit
    have hloaded : Holds name (before ++ [.loaded name (.ok ())]) := holds_concat_loaded.mpr rfl
    obtain ⟨held, hheld⟩ := holds_append hloaded fun freed hfreed => hno ⟨freed, hfreed⟩
    rw [List.append_assoc, List.singleton_append, ← htrace,
      ← (kept_of_reached (kept_fresh world config) hearlier).holds, hnone] at hheld
    cases hheld
  · intro before timeout answer after hsplit
    exact hkept.timely before _ after hsplit
  · intro hnone g way hover
    exact attend_over hnone hover
  · intro active hactive g
    have hload : s.load g = (.error (.grammarAlreadyLoaded active g.name), s) := by
      rw [load, hactive]
    refine ⟨hload, fun way => ?_⟩
    rw [attend_eq, hload]

/-- A session that gave up listening, could not unload, and loaded again. -/
def interrupted : Session (Recorded PreparedEngine) :=
  ((new ⟨[.ok none], [], [some (.rejected "busy")], true⟩ .usual).recorded.serve
    (.listen Turn.greeting.grammar (.pollingUntil .usual 0 1))).serve (.load Turn.greeting.grammar)

theorem one_grammar_at_a_time_interrupted :
    interrupted.active = some "greeting" ∧
      interrupted.world.trace = [.loaded "greeting" (.ok ()), .attempted ⟨10, 0⟩ (.ok none),
        .unloaded (.error (.rejected "busy")), .loaded "greeting" (.ok ())] ∧
      Holds "greeting" interrupted.world.trace ∧
      ∀ g way, interrupted.attend g way =
        (.over (.error (.grammarAlreadyLoaded "greeting" g.name)), interrupted) := by
  have hrun : interrupted.active = some "greeting" ∧
      interrupted.world.trace = [.loaded "greeting" (.ok ()), .attempted ⟨10, 0⟩ (.ok none),
        .unloaded (.error (.rejected "busy")), .loaded "greeting" (.ok ())] := by
    rw [interrupted, serve, serve, attend_eq]
    exact ⟨rfl, rfl⟩
  obtain ⟨hholds, -, -, -, hrefused⟩ := one_grammar_at_a_time _ _ interrupted
    ((Reached.fresh.serve _).serve _)
  exact ⟨hrun.1, hrun.2, (hholds "greeting").mp hrun.1, fun g => (hrefused _ hrun.1 g).2⟩

end Session

end Colloquy
