import Colloquy.Proofs.Engine.TypedHistory
import Colloquy.Proofs.Session.Calls
import Colloquy.Proofs.Session.Serving

/-!
# Two guards

Both a session and its typed input refuse a grammar while another one is loaded. As long as all
requests go through the session, what it takes for active is what the input has loaded (`Coupled`).
So the session asks for nothing that the input refuses, and the guard of the input is never met
(`guards_agree`). Requests made to the input behind the back of the session may part the two; one
unload brings them together again.
-/

namespace Colloquy

open Text

/-- The engine refused the request: it loaded no grammar, or was to make an attempt without one. -/
def Event.Refused : Event → Prop
  | .loaded _ (.error _) | .attempted _ (.error (.rejected _)) => True
  | _ => False

namespace Session

/-! ## Failures of listening -/

section

variable {σ : Type} [Engine σ]

theorem attempt_world (s : Session σ) :
    s.attempt.2.world = (Engine.attempt s.config.attemptTimeout s.world).2 := by
  unfold attempt
  rcases Engine.attempt s.config.attemptTimeout s.world with ⟨_ | _, _⟩ <;> rfl

end

/-! ## The session and its input -/

/-- Nothing is loaded, neither for the session nor for the engine. -/
structure Unloaded (s : Session TypedInput) : Prop where
  active : s.active = none
  loaded : s.world.loaded = none

/-- The session takes for active what the input has loaded, and no request was refused. -/
structure Coupled (s : Session (Recorded TypedInput)) : Prop where
  agrees : s.active = s.world.world.loaded.map Grammar.name
  granted : ∀ e ∈ s.world.trace, ¬ e.Refused

theorem Unloaded.coupled {s : Session TypedInput} (h : Unloaded s) : Coupled s.recorded :=
  ⟨by rw [recorded, h.active, Recorded.new, h.loaded]; rfl, List.forall_mem_nil _⟩

end Session

/-- With a grammar loaded, typed input refuses no attempt and keeps the grammar. -/
theorem TypedInput.attempt_granted {input : TypedInput} {g : Grammar}
    (hloaded : input.loaded = some g) :
    (∀ message, input.attempt.1 ≠ .error (.rejected message)) ∧
      input.attempt.2.loaded = some g := by
  cases hleft : input.utterances with
  | cons line rest =>
    obtain ⟨after, hattempt, hstill, -⟩ := attempt_utterances_cons hloaded hleft
    rw [hattempt]
    exact ⟨nofun, hstill.trans hloaded⟩
  | nil =>
    obtain ⟨after, hattempt, hstill, -⟩ := attempt_utterances_nil hloaded hleft
    rw [hattempt]
    refine ⟨fun message => ?_, hstill.trans hloaded⟩
    cases input.ending <;> exact nofun

namespace Session

/-! ## What every request keeps -/

namespace Coupled

variable {s : Session (Recorded TypedInput)}

/-- The input grants a load that the session asks for. -/
theorem load_of_inactive (h : Coupled s) (hnone : s.active = none) (g : Grammar) :
    ∃ loaded, s.load g = (.ok (), loaded) ∧ loaded.active = some g.name ∧ Coupled loaded := by
  have hloaded : s.world.world.loaded = none := by
    rw [← Option.map_eq_none_iff, ← h.agrees, hnone]
  have hload : Engine.load g s.world.world = _ := TypedInput.load_of_unloaded hloaded g
  refine ⟨⟨⟨{ s.world.world with loaded := some g },
    s.world.trace ++ [.loaded g.name (.ok ())]⟩, s.config, some g.name⟩, ?_, rfl, rfl, ?_⟩
  · simp only [Session.load, hnone, Recorded.load_eq, hload]
  · exact List.forall_mem_append.mpr ⟨h.granted, List.forall_mem_singleton.mpr id⟩

/-- A load is refused by the session or not at all. -/
theorem load_answer (h : Coupled s) (g : Grammar) :
    (s.load g).1 = match s.active with
      | some active => .error (.grammarAlreadyLoaded active g.name)
      | none => .ok () := by
  cases hactive : s.active with
  | some active => simp only [Session.load, hactive]
  | none =>
    obtain ⟨loaded, hload, -⟩ := h.load_of_inactive hactive g
    rw [hload]

theorem load (h : Coupled s) (g : Grammar) : Coupled (s.load g).2 := by
  cases hactive : s.active with
  | some active =>
    simp only [Session.load, hactive]
    exact h
  | none =>
    obtain ⟨loaded, hload, -, hcoupled⟩ := h.load_of_inactive hactive g
    rwa [hload]

/-- While a grammar is active, the input has one loaded and grants every attempt. -/
theorem attempt (h : Coupled s) {name : String} (hactive : s.active = some name) :
    Coupled s.attempt.2 := by
  have hagrees := h.agrees
  rw [hactive, eq_comm, Option.map_eq_some_iff] at hagrees
  obtain ⟨g, hloaded, -⟩ := hagrees
  obtain ⟨hgranted, hstill⟩ := TypedInput.attempt_granted hloaded
  have hworld : s.attempt.2.world = ⟨s.world.world.attempt.2,
      s.world.trace ++ [.attempted s.config.attemptTimeout s.world.world.attempt.1]⟩ :=
    attempt_world s
  refine ⟨?_, ?_⟩
  · rw [(attempt_active s).1, h.agrees, hworld, hloaded, hstill]
  · rw [hworld]
    refine List.forall_mem_append.mpr ⟨h.granted, List.forall_mem_singleton.mpr ?_⟩
    intro hrefused
    unfold Event.Refused at hrefused
    split at hrefused
    · next heq => cases heq
    · next message heq =>
      injection heq with _ hanswer
      exact hgranted message hanswer
    · exact hrefused

theorem unload (h : Coupled s) : Coupled s.unload.2 := by
  refine ⟨rfl, List.forall_mem_append.mpr ⟨h.granted, ?_⟩⟩
  exact List.forall_mem_singleton.mpr id

/-! ## Listening -/

theorem hear (h : Coupled s) {name : String} (hactive : s.active = some name) (patience : Nat) :
    Coupled (Session.hear patience s).2 := by
  induction patience generalizing s with
  | zero => exact h
  | succ patience ih =>
    have hattempt := h.attempt hactive
    have hstill := (attempt_active s).1.trans hactive
    rw [Session.hear]
    generalize s.attempt = answered at hattempt hstill ⊢
    obtain ⟨_ | _ | _, after⟩ := answered
    · exact hattempt
    · exact ih hattempt hstill
    · exact hattempt

theorem attend (h : Coupled s) (g : Grammar) (way : Way) : Coupled (s.attend g way).2 := by
  rw [attend_eq]
  cases hactive : s.active with
  | some active =>
    simp only [Session.load, hactive]
    exact h
  | none =>
    obtain ⟨loaded, hload, hname, hcoupled⟩ := h.load_of_inactive hactive g
    rw [hload]
    have hheard := hcoupled.hear hname (way.attempts loaded.config.pollInterval)
    rcases leave_conclude g (way.givesUp loaded.config.pollInterval)
      (loaded.hear (way.attempts loaded.config.pollInterval)) with hleft | hleft
    · exact hleft ▸ hheard
    · exact hleft ▸ hheard.unload

/-- Listening is never refused by the engine. -/
theorem attend_ne_grammarLoad (h : Coupled s) (g : Grammar) (way : Way) (name : String)
    (cause : EngineFailure) : (s.attend g way).1 ≠ .over (.error (.grammarLoad name cause)) := by
  rw [attend_eq]
  cases hactive : s.active with
  | some active =>
    simp only [Session.load, hactive]
    intro hrefused
    cases hrefused
  | none =>
    obtain ⟨loaded, hload, -⟩ := h.load_of_inactive hactive g
    rw [hload]
    refine leave_conclude_ne ?_ g _ _ loaded
    rintro cause ⟨⟩

end Coupled

theorem coupled_of_reached {fresh : Session TypedInput} (h : Unloaded fresh)
    {s : Session (Recorded TypedInput)} (hs : Reached fresh.recorded s) : Coupled s := by
  induction hs with
  | fresh => exact h.coupled
  | serve _ request ih =>
    cases request with
    | load g => exact ih.load g
    | unload => exact ih.unload
    | listen g way => exact ih.attend g way

/-! ## Behind the back of the session -/

/-- The sessions that requests lead to if requests may also be made to the engine, behind the back of
the session. -/
inductive Disturbed {σ : Type} [Engine σ] (fresh : Session σ) : Session σ → Prop
  | fresh : Disturbed fresh fresh
  | serve {s : Session σ} (h : Disturbed fresh s) (request : Request) :
    Disturbed fresh (s.serve request)
  | behind {s : Session σ} (h : Disturbed fresh s) (request : Engine.Request) :
    Disturbed fresh { s with world := Engine.ask s.world request }

/-- What the two guards agree on: the active grammar is the loaded one, the input has refused no
request so far, and neither a load nor listening is going to fail because it refuses one. -/
structure GuardsAgree (s : Session (Recorded TypedInput)) : Prop where
  agrees : s.active = s.world.world.loaded.map Grammar.name
  granted : ∀ e ∈ s.world.trace, ¬ e.Refused
  load : ∀ g, (s.load g).1 = match s.active with
    | some active => .error (.grammarAlreadyLoaded active g.name)
    | none => .ok ()
  attend : ∀ g way name cause, (s.attend g way).1 ≠ .over (.error (.grammarLoad name cause))

theorem Coupled.guardsAgree {s : Session (Recorded TypedInput)} (h : Coupled s) : GuardsAgree s :=
  ⟨h.agrees, h.granted, h.load_answer, h.attend_ne_grammarLoad⟩

/-- The guard of a session and that of its typed input never disagree while all requests go through
the session, from one in which nothing is loaded and over any input. Requests behind its back may
make them disagree, but whatever they were, one unload succeeds and leaves nothing loaded for either,
and from there on the guards agree again. -/
theorem guards_agree {fresh : Session TypedInput} (h : Unloaded fresh) :
    (∀ s, Reached fresh.recorded s → GuardsAgree s) ∧
      ∀ s, Disturbed fresh s → s.unload.1 = .ok () ∧ Unloaded s.unload.2 ∧
        ∀ later, Reached s.unload.2.recorded later → GuardsAgree later := by
  refine ⟨fun s hs => (coupled_of_reached h hs).guardsAgree, fun s _ => ?_⟩
  have hunloaded : Unloaded s.unload.2 := ⟨rfl, rfl⟩
  exact ⟨rfl, hunloaded, fun later hlater => (coupled_of_reached hunloaded hlater).guardsAgree⟩

/-- A session over two lines, with nothing loaded. -/
def twoLines : Session TypedInput := new (.ofBytes (utf8 "Hello\nHello Computer")) .usual

/-- The same session, with a grammar loaded behind its back. -/
def disturbed : Session TypedInput :=
  { twoLines with world := Engine.ask twoLines.world (.load Turn.freeChoice.grammar) }

/-- What the input refuses in the session `disturbed` is granted again after an unload. -/
theorem guards_agree_disturbed :
    Unloaded twoLines ∧ Disturbed twoLines disturbed ∧
      (disturbed.load Turn.greeting.grammar).1 = .error (.grammarLoad "greeting"
        (.rejected "grammar \"free_choice\" is still loaded")) ∧
      Unloaded disturbed.unload.2 ∧
      (disturbed.unload.2.recorded.load Turn.greeting.grammar).1 = .ok () ∧
      GuardsAgree (twoLines.recorded.serve
        (.listen Turn.greeting.grammar (.pollingUntil .usual 0 1))) := by
  have h : Unloaded twoLines := ⟨rfl, rfl⟩
  have hdisturbed : Disturbed twoLines disturbed := .behind .fresh (.load Turn.freeChoice.grammar)
  obtain ⟨hreached, hbehind⟩ := guards_agree h
  obtain ⟨-, hunloaded, hagain⟩ := hbehind disturbed hdisturbed
  exact ⟨h, hdisturbed, rfl, hunloaded, (hagain _ .fresh).load Turn.greeting.grammar,
    hreached _ (.serve .fresh _)⟩

end Session

end Colloquy
