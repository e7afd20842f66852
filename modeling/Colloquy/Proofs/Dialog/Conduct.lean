import Colloquy.Dialog.Stage
import Colloquy.Display.Console
import Colloquy.Engine.Prepared
import Colloquy.Proofs.Dialog.Acts
import Colloquy.Proofs.Dialog.Course
import Colloquy.Proofs.Session.Calls

/-!
# The conduct of a dialog

However its engine, its voice and its display answer, a dialog takes its course (`closed_orderly`)
and leaves the active grammar of its session as it found it (`closed_keeps`). So after any row of
requests to dialogs the voice has repeated what the display shows, nothing was said while a grammar
was loaded, and every failure was the end of the request in which it happened (`conduct_of_held`).
-/

namespace Colloquy

/-! ## Lines and listening -/

namespace Recorded

variable {σ : Type}

theorem writeLine_eq [Display σ] (line : String) (r : Recorded σ) :
    Display.writeLine line r = ((Display.writeLine line r.world).1,
      ⟨(Display.writeLine line r.world).2,
        r.trace ++ [.wrote line (Display.writeLine line r.world).1]⟩) := rfl

theorem speak_eq [Voice σ] (speech : Speech) (r : Recorded σ) :
    Voice.speak speech r = ((Voice.speak speech r.world).1,
      ⟨(Voice.speak speech r.world).2,
        r.trace ++ [.spoke speech (Voice.speak speech r.world).1]⟩) := rfl

end Recorded

namespace Dialog

open Act

variable {σ : Type}

/-- The active grammar is the same before and after, unless listening still goes on. -/
def Keeps {α : Type} (x : Act (Recorded σ) α) : Prop :=
  ∀ s, halt? (x s).1 ≠ some .listening → (x s).2.active = s.active

/-- The part keeps the active grammar, and from a session without one its requests take the course of
a dialog. -/
structure Orderly {α : Type} (x : Act (Recorded σ) α) : Prop where
  keeps : Keeps x
  course : ∀ s, s.active = none → ∃ calls,
    (x s).2.world.trace = s.world.trace ++ calls ∧ Course (halt? (x s).1) calls

section

variable [Voice σ] [Display σ]

/-- A speech is not shown, or shown and not spoken, or both. -/
theorem say_cases (speech : Speech) (s : Session (Recorded σ)) :
    (∃ e after, say speech s = (.error (.failed (.console e)), after) ∧
        after.world.trace = s.world.trace ++ [.wrote speech.transcript (.error e)]) ∨
      (∃ e after, say speech s = (.error (.failed (.synthesis e)), after) ∧
        after.world.trace = s.world.trace ++
          [.wrote speech.transcript (.ok ()), .spoke speech (.error e)]) ∨
      ∃ after, say speech s = (.ok (), after) ∧
        after.world.trace = s.world.trace ++
          [.wrote speech.transcript (.ok ()), .spoke speech (.ok ())] := by
  obtain ⟨⟨world, trace⟩, config, active⟩ := s
  rw [say_apply]
  simp only [Recorded.writeLine_eq]
  rcases Display.writeLine speech.transcript world with ⟨e | _, shown⟩
  · exact Or.inl ⟨e, _, rfl, rfl⟩
  · apply Or.inr
    simp only [Recorded.speak_eq]
    rcases Voice.speak speech shown with ⟨e | _, spoken⟩
    · exact Or.inl ⟨e, _, rfl, List.append_assoc _ _ _⟩
    · exact Or.inr ⟨_, rfl, List.append_assoc _ _ _⟩

theorem orderly_say (speech : Speech) : Orderly (say speech : Act (Recorded σ) Unit) where
  keeps s _ := say_active speech s
  course s _ := by
    obtain ⟨e, after, hsay, htrace⟩ | ⟨e, after, hsay, htrace⟩ | ⟨after, hsay, htrace⟩ :=
      say_cases speech s
    · rw [hsay]
      exact ⟨_, htrace, .failed _ (.unshown speech.transcript e)⟩
    · rw [hsay]
      exact ⟨_, htrace, .failed _ (.unspoken speech e)⟩
    · rw [hsay]
      exact ⟨_, htrace, .of_smooth (.said speech)⟩

end

section

variable [Engine σ]

theorem listen_keeps (patience : Nat) (g : Grammar) :
    Keeps (listen patience g : Act (Recorded σ) Phrase) := by
  intro s hover
  rcases hactive : s.active with _ | active
  · unfold listen at hover ⊢
    obtain ⟨e, after, hlisten, -, hleft⟩ | ⟨after, hlisten, -⟩ |
      ⟨silent, answer, freed, after, hlisten, -, hleft⟩ := Session.listen_cases hactive g patience
    · rw [hlisten]
      exact hleft
    · rw [hlisten] at hover
      exact absurd rfl hover
    · rw [hlisten]
      cases Session.conclusion g answer freed <;> exact hleft
  · rw [listen_refused hactive, hactive]

theorem orderly_listen (patience : Nat) (g : Grammar) :
    Orderly (listen patience g : Act (Recorded σ) Phrase) where
  keeps := listen_keeps patience g
  course s hnone := by
    unfold listen
    obtain ⟨e, after, hlisten, htrace, -⟩ | ⟨after, hlisten, htrace⟩ |
      ⟨silent, answer, freed, after, hlisten, htrace, -⟩ := Session.listen_cases hnone g patience
    · rw [hlisten]
      exact ⟨_, htrace, .failed _ (.refused g.name e)⟩
    · rw [hlisten]
      exact ⟨_, htrace, .listening g _ patience⟩
    · rw [hlisten]
      rcases answer with e | heard
      · exact ⟨_, htrace, .failed _ (.unheard g _ silent e freed)⟩
      · rcases freed with e | _
        · exact ⟨_, htrace, .failed _ (.unfreed g _ silent heard e)⟩
        · exact ⟨_, htrace, .of_smooth (.heard g _ silent heard)⟩

end

/-! ## Parts of a dialog -/

variable [Engine σ] [Voice σ] [Display σ]

/-- A dialog leaves the active grammar of its session as it found it. -/
theorem closed_keeps : Closed (σ := Recorded σ) Keeps where
  pure a s _ := rfl
  bind {α β x f} hx hf s hover := by
    have hkept := hx s
    rw [bind_apply] at hover ⊢
    generalize x s = reached at hkept hover ⊢
    obtain ⟨halt | a, after⟩ := reached
    · exact hkept hover
    · exact (hf a after hover).trans (hkept nofun)
  inTurn {α x} turn hx s hover := hx s (mt halt?_inTurn.mpr hover)
  say speech s _ := say_active speech s
  listen := listen_keeps
  setHighlight color s _ := rfl

/-- All parts of a dialog are orderly. -/
theorem closed_orderly : Closed (σ := Recorded σ) Orderly where
  pure a := ⟨closed_keeps.pure a, fun s _ => ⟨[], (List.append_nil _).symm, .done⟩⟩
  bind {α β x f} hx hf := by
    refine ⟨closed_keeps.bind hx.keeps fun a => (hf a).keeps, fun s hnone => ?_⟩
    obtain ⟨calls, htrace, hcourse⟩ := hx.course s hnone
    have hkept := hx.keeps s
    rw [bind_apply]
    generalize x s = reached at htrace hcourse hkept ⊢
    obtain ⟨halt | a, after⟩ := reached
    · exact ⟨calls, htrace, hcourse⟩
    · obtain ⟨more, hmore, hrest⟩ := (hf a).course after ((hkept nofun).trans hnone)
      refine ⟨calls ++ more, ?_, hcourse.append hrest⟩
      rw [hmore, htrace, List.append_assoc]
  inTurn {α x} turn hx := by
    refine ⟨closed_keeps.inTurn turn hx.keeps, fun s hnone => ?_⟩
    obtain ⟨calls, htrace, hcourse⟩ := hx.course s hnone
    refine ⟨calls, htrace, ?_⟩
    rw [adapt_apply, halt?_mapError]
    exact hcourse.inTurn turn
  say := orderly_say
  listen := orderly_listen
  setHighlight color :=
    ⟨closed_keeps.setHighlight color, fun s _ => ⟨_, rfl, .of_smooth (.highlighted color)⟩⟩

/-! ## Requests to dialogs -/

/-- The sessions that requests to dialogs lead to; the next request is made when the one before is
over. In between the world may change unasked, as it does when another dialog brings its own
display. -/
inductive Held (fresh : Session (Recorded σ)) : Session (Recorded σ) → Prop
  | fresh : Held fresh fresh
  | change {s : Session (Recorded σ)} (h : Held fresh s) (world : σ) :
    Held fresh { s with world := { s.world with world } }
  | call {s : Session (Recorded σ)} (h : Held fresh s) (patience : Nat) (call : Call)
    (hover : (call.act patience s).1 ≠ .error .listening) : Held fresh (call.act patience s).2

namespace Held

variable {fresh s : Session (Recorded σ)}

theorem active (h : Held fresh s) : s.active = fresh.active := by
  induction h with
  | fresh => rfl
  | change _ _ ih => exact ih
  | call _ patience call hover ih =>
    exact (closed_keeps.call patience call _ (mt halt?_eq_some.mp hover)).trans ih

/-- The requests of the next call take their course. -/
theorem course (h : Held fresh s) (hnone : fresh.active = none) (patience : Nat) (call : Call) :
    ∃ calls, (call.act patience s).2.world.trace = s.world.trace ++ calls ∧
      Course (halt? (call.act patience s).1) calls :=
  (closed_orderly.call patience call).course s (h.active.trans hnone)

theorem free (h : Held fresh s) (hnone : fresh.active = none) (hfree : Free fresh.world.trace) :
    Free s.world.trace := by
  induction h with
  | fresh => exact hfree
  | change _ _ ih => exact ih
  | call h patience call hover ih =>
    obtain ⟨calls, htrace, hcourse⟩ := h.course hnone patience call
    rw [htrace]
    exact (hcourse.placed ih).2 (mt halt?_eq_some.mp hover)

theorem filterMap_eq (h : Held fresh s) (hnone : fresh.active = none)
    (hfresh : fresh.world.trace.filterMap Event.spoken? =
      fresh.world.trace.filterMap Event.shown?) :
    s.world.trace.filterMap Event.spoken? = s.world.trace.filterMap Event.shown? := by
  induction h with
  | fresh => exact hfresh
  | change _ _ ih => exact ih
  | call h patience call hover ih =>
    obtain ⟨calls, htrace, hcourse⟩ := h.course hnone patience call
    rw [htrace, List.filterMap_append, List.filterMap_append, ih, hcourse.filterMap_eq]

end Held

/-- The conduct of a dialog, from a session without an active grammar and after any row of requests,
whatever fails. The voice repeats what the display shows: what was to be spoken is what was shown, in
the same order, and a line that was not shown is not spoken. Nothing is shown or spoken while a
grammar is loaded. In the last request, which may still be listening, a failure is the end: no
request follows it, except for the unload behind a failed attempt. -/
theorem conduct_of_held {fresh : Session σ} (hnone : fresh.active = none)
    {s : Session (Recorded σ)} (h : Held fresh.recorded s) (patience : Nat) (call : Call) :
    Mirrored (call.act patience s).2.world.trace ∧
      Apart (call.act patience s).2.world.trace ∧
      ∃ calls, (call.act patience s).2.world.trace = s.world.trace ++ calls ∧ FailStop calls := by
  obtain ⟨calls, htrace, hcourse⟩ := h.course hnone patience call
  have hplaced := (hcourse.placed (h.free hnone free_nil)).1
  rw [htrace]
  refine ⟨⟨?_, ?_⟩, hplaced.apart, calls, rfl, hcourse.failStop⟩
  · rw [List.filterMap_append, List.filterMap_append, h.filterMap_eq hnone rfl,
      hcourse.filterMap_eq]
  · intro before speech answer after hsplit
    exact (hplaced before _ after hsplit).2

/-- A session with an engine that fails at its first attempt and does not unload. -/
def interference : Session (Stage PreparedEngine MuteVoice Console) :=
  Session.new ⟨⟨[.error (.deviceLost "unplugged")], [], [some (.rejected "busy")], true⟩, .new,
    .new none⟩ .usual

/-- What a dialog in the session `interference` comes to. -/
def interferenceRecord : List Event :=
  [.wrote openingLine (.ok ()), .spoke (.plain openingLine) (.ok ()),
    .wrote Turn.greeting.prompt (.ok ()), .spoke (.plain Turn.greeting.prompt) (.ok ()),
    .loaded "greeting" (.ok ()), .attempted ⟨10, 0⟩ (.error (.deviceLost "unplugged")),
    .unloaded (.error (.rejected "busy"))]

theorem conduct_of_held_interference :
    interference.active = none ∧
      Held interference.recorded (Call.run.act 1 interference.recorded).2 ∧
      (Call.run.act 1 interference.recorded).2.world.trace = interferenceRecord ∧
      Mirrored interferenceRecord ∧ Apart interferenceRecord ∧ FailStop interferenceRecord ∧
      FailStop [.wrote Turn.greeting.prompt (.ok ()), .spoke (.plain Turn.greeting.prompt) (.ok ()),
        .loaded "greeting" (.ok ()), .attempted ⟨10, 0⟩ (.ok none)] := by
  have hnone : interference.active = none := rfl
  have hheld : Held interference.recorded (Call.run.act 1 interference.recorded).2 :=
    .call .fresh 1 .run nofun
  obtain ⟨hmirrored, hapart, calls, hcalls, hstop⟩ := conduct_of_held hnone .fresh 1 .run
  obtain ⟨-, -, more, hmore, hstop'⟩ := conduct_of_held hnone hheld 1 (.take .greeting)
  have hfirst : interferenceRecord = [] ++ calls := hcalls
  have hsecond : interferenceRecord ++ _ = interferenceRecord ++ more := hmore
  rw [List.nil_append] at hfirst
  refine ⟨hnone, hheld, rfl, hmirrored, hapart, hfirst ▸ hstop, ?_⟩
  rwa [← List.append_cancel_left hsecond] at hstop'

end Dialog

end Colloquy
