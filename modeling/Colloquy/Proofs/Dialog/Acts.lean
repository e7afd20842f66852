import Colloquy.Dialog.Basic

/-!
# Parts of a dialog

A dialog is put together from lines that are said, from listening and from highlights. Whatever
holds of these and is kept when parts are put together holds of every turn and of whole dialogs
(`Closed.call`).

* `takeTurns_cons`, `run_apply`: a dialog, turn by turn.
* `Call.keeps`: what lines and turns keep as a whole is kept by every request.
* `say_apply`, `listen_refused`: lines, and listening that is refused.
-/

namespace Colloquy

namespace Act

variable {σ α : Type}

/-- Why a part did not come to its end, if it did not. -/
def halt? : Except Halt α → Option Halt
  | .ok _ => none
  | .error halt => some halt

theorem halt?_eq_some {answer : Except Halt α} {halt : Halt} :
    halt? answer = some halt ↔ answer = .error halt := by
  cases answer <;> simp [halt?]

theorem halt?_mapError (answer : Except Halt α) (f : Halt → Halt) :
    halt? (answer.mapError f) = (halt? answer).map f := by
  cases answer <;> rfl

theorem halt?_inTurn {answer : Except Halt α} {turn : Turn} :
    halt? (answer.mapError (Halt.inTurn turn)) = some .listening ↔
      halt? answer = some .listening := by
  rw [halt?_mapError]
  rcases halt? answer with _ | _ | _ <;> simp [Halt.inTurn]

theorem mapError_ok {ε ε' : Type} (f : ε → ε') (a : α) :
    (Except.ok a : Except ε α).mapError f = .ok a := rfl

theorem adapt_apply (x : Act σ α) (f : Halt → Halt) (s : Session σ) :
    (x.adapt f : Act σ α) s = ((x s).1.mapError f, (x s).2) := rfl

/-- A result that is only changed leaves the session as it is. -/
theorem bind_pure_snd {β : Type} (x : Act σ α) (f : α → β) (s : Session σ) :
    ((x >>= fun a => pure (f a)) s).2 = (x s).2 := by
  rw [bind_apply]
  rcases x s with ⟨_ | _, _⟩ <;> rfl

end Act

namespace Dialog

open Act

variable {σ : Type} [Engine σ] [Voice σ] [Display σ]

/-! ## The reply to a color -/

section

variable {σ : Type}

/-- What the reply to a favorite color comes to: the name of the color, emphasized, and a text. -/
def praise (color : Color) : Speech :=
  .marked ("<emph>" ++ color.label ++ "</emph> is my favorite too!")
    (color.label ++ " is my favorite too!")

theorem acknowledgement_eq (color : Color) : acknowledgement color = .ok (praise color) := by
  cases color <;> rfl

/-- The composition of the reply does not fail. -/
theorem say_acknowledgement [Voice σ] [Display σ] (color : Color) :
    (compose (acknowledgement color) >>= say : Act σ Unit) = say (praise color) := by
  funext s
  rw [bind_apply, acknowledgement_eq, compose]

end

/-! ## Turn by turn -/

/-- Takes the given turns, one after the other. -/
def takeTurns (patience : Nat) (turns : List Turn) : Act σ Unit :=
  turns.forM fun turn => do
    let _ ← (runTurn patience turn).adapt (Halt.inTurn turn)

theorem takeTurns_nil (patience : Nat) (s : Session σ) :
    takeTurns patience [] s = (.ok (), s) := rfl

theorem takeTurns_cons (patience : Nat) (turn : Turn) (turns : List Turn) (s : Session σ) :
    takeTurns patience (turn :: turns) s =
      match runTurn patience turn s with
      | (.ok _, s) => takeTurns patience turns s
      | (.error halt, s) => (.error (halt.inTurn turn), s) := by
  change ((ExceptT.adapt (Halt.inTurn turn) (runTurn patience turn) >>= fun _ => pure ()) >>=
    fun _ => takeTurns patience turns) s = _
  rw [bind_apply, bind_apply, adapt_apply]
  rcases runTurn patience turn s with ⟨_ | _, _⟩ <;> rfl

theorem run_apply (patience : Nat) (s : Session σ) :
    run patience s =
      match say (.plain openingLine) s with
      | (.error halt, s) => (.error halt, s)
      | (.ok (), s) =>
        match takeTurns patience Turn.all s with
        | (.error halt, s) => (.error halt, s)
        | (.ok (), s) => say (.plain closingLine) s := by
  change (say (.plain openingLine) >>= fun _ =>
    takeTurns patience Turn.all >>= fun _ => say (.plain closingLine)) s = _
  rw [bind_apply]
  rcases say (.plain openingLine) s with ⟨_ | _, opened⟩
  · rfl
  · dsimp only
    rw [bind_apply]
    rcases takeTurns patience Turn.all opened with ⟨_ | _, _⟩ <;> rfl

/-! ## What is asked of a dialog -/

/-- A request to a dialog. -/
inductive Call
  | run
  | take (turn : Turn)
  deriving DecidableEq, Repr

/-- Does what is asked. -/
def Call.act (patience : Nat) : Call → Act σ Unit
  | .run => Dialog.run patience
  | .take turn => do
    let _ ← runTurn patience turn

/-- A property of parts of a dialog that is kept when they are put together. -/
structure Closed (P : ∀ {α : Type}, Act σ α → Prop) : Prop where
  pure : ∀ {α : Type} (a : α), P (pure a : Act σ α)
  bind : ∀ {α β : Type} {x : Act σ α} {f : α → Act σ β}, P x → (∀ a, P (f a)) → P (x >>= f)
  inTurn : ∀ {α : Type} {x : Act σ α} (turn : Turn), P x → P (x.adapt (Halt.inTurn turn))
  say : ∀ speech, P (say speech)
  listen : ∀ patience g, P (listen patience g)
  setHighlight : ∀ color, P (setHighlight color)

namespace Closed

variable {P : ∀ {α : Type}, Act σ α → Prop}

theorem reply (h : Closed P) (turn : Turn) (phrase : Phrase) : P (reply turn phrase) := by
  cases turn with
  | greeting | freeChoice => exact h.pure ()
  | favoriteColor =>
    dsimp only [Dialog.reply]
    split
    · exact h.pure ()
    · rw [say_acknowledgement]
      exact h.bind (h.setHighlight _) fun _ => h.say _
  | wildcardName | dictatedName =>
    dsimp only [Dialog.reply]
    split
    · exact h.pure ()
    · exact h.say _

theorem runTurn (h : Closed P) (patience : Nat) (turn : Turn) : P (runTurn patience turn) :=
  h.bind (h.say _) fun _ =>
    h.bind (h.listen _ _) fun phrase =>
      h.bind (h.say _) fun _ => h.bind (h.reply turn phrase) fun _ => h.pure phrase

theorem takeTurns (h : Closed P) (patience : Nat) (turns : List Turn) :
    P (takeTurns patience turns) := by
  induction turns with
  | nil => exact h.pure ()
  | cons turn turns ih =>
    have hturn := h.bind (h.inTurn turn (h.runTurn patience turn)) fun _ => h.pure ()
    exact h.bind hturn fun _ => ih

theorem run (h : Closed P) (patience : Nat) : P (run patience) :=
  h.bind (h.say _) fun _ => h.bind (h.takeTurns patience Turn.all) fun _ => h.say _

/-- What is kept in putting parts together holds of everything that is asked of a dialog. -/
theorem call (h : Closed P) (patience : Nat) (call : Call) : P (call.act patience) := by
  cases call with
  | run => exact h.run patience
  | take turn => exact h.bind (h.runTurn patience turn) fun _ => h.pure ()

end Closed

/-! ## What lines and turns keep -/

section

variable {P : Session σ → Prop} {patience : Nat} {s : Session σ}
  (hsay : ∀ s, P s → ∀ speech, P (say speech s).2)
  (hturn : ∀ s, P s → ∀ turn, P (runTurn patience turn s).2)

include hturn

theorem takeTurns_keeps (turns : List Turn) (h : P s) : P (takeTurns patience turns s).2 := by
  induction turns generalizing s with
  | nil => exact h
  | cons turn turns ih =>
    have hnext := hturn s h turn
    rw [takeTurns_cons]
    generalize runTurn patience turn s = taken at hnext ⊢
    obtain ⟨halt | phrase, next⟩ := taken
    · exact hnext
    · exact ih hnext

include hsay

theorem run_keeps (h : P s) : P (run patience s).2 := by
  have hopened := hsay s h (.plain openingLine)
  rw [run_apply]
  generalize say (.plain openingLine) s = opening at hopened ⊢
  obtain ⟨halt | _, opened⟩ := opening
  · exact hopened
  · have hreached := takeTurns_keeps hturn Turn.all hopened
    dsimp only at hreached ⊢
    generalize takeTurns patience Turn.all opened = taken at hreached ⊢
    obtain ⟨halt | _, reached⟩ := taken
    · exact hreached
    · exact hsay reached hreached (.plain closingLine)

/-- What every line and every turn keeps, whether it succeeds or not, holds after every request to a
dialog. -/
theorem Call.keeps (call : Call) (h : P s) : P (call.act patience s).2 := by
  cases call with
  | run => exact run_keeps hsay hturn h
  | take turn =>
    rw [Call.act, bind_pure_snd]
    exact hturn s h turn

end

/-! ## Lines -/

section

variable {σ : Type} [Voice σ] [Display σ]

/-- A line that is not shown is not spoken, and either failure ends the part. -/
theorem say_apply (speech : Speech) (s : Session σ) :
    say speech s =
      match Display.writeLine speech.transcript s.world with
      | (.error e, world) => (.error (.failed (.console e)), { s with world })
      | (.ok (), world) =>
        match Voice.speak speech world with
        | (.error e, world) => (.error (.failed (.synthesis e)), { s with world })
        | (.ok (), world) => (.ok (), { s with world }) := by
  rw [say, bind_apply, ask]
  rcases Display.writeLine speech.transcript s.world with ⟨_ | _, world⟩
  · rfl
  · dsimp only
    rw [ask]
    rcases Voice.speak speech world with ⟨_ | _, _⟩ <;> rfl

/-- If speeches succeed and keep a property that highlights keep as well, so do replies. -/
theorem reply_succeeds {P : Session σ → Prop}
    (hsay : ∀ s, P s → ∀ speech, ∃ after, say speech s = (.ok (), after) ∧ P after)
    (hlight : ∀ s, P s → ∀ color, P (setHighlight color s).2) {s : Session σ} (h : P s)
    (turn : Turn) (phrase : Phrase) : ∃ after, reply turn phrase s = (.ok (), after) ∧ P after := by
  cases turn with
  | greeting | freeChoice => exact ⟨s, rfl, h⟩
  | favoriteColor =>
    rw [reply]
    rcases favoriteColor? phrase with _ | color
    · exact ⟨s, rfl, h⟩
    · dsimp only
      rw [say_acknowledgement, bind_apply]
      exact hsay _ (hlight s h (some color.style)) (praise color)
  | wildcardName | dictatedName =>
    rw [reply]
    rcases phrase.semantics.get? nameKey with _ | name
    · exact ⟨s, rfl, h⟩
    · exact hsay s h _

theorem say_active (speech : Speech) (s : Session σ) : (say speech s).2.active = s.active := by
  rw [say_apply]
  rcases Display.writeLine speech.transcript s.world with ⟨_ | _, world⟩
  · rfl
  · dsimp only
    rcases Voice.speak speech world with ⟨_ | _, _⟩ <;> rfl

end

/-! ## Listening -/

section

variable {σ : Type} [Engine σ]

/-- While a grammar is active, listening is refused. -/
theorem listen_refused {s : Session σ} {active : String} (hactive : s.active = some active)
    (patience : Nat) (g : Grammar) :
    listen patience g s = (.error (.failed (.grammarAlreadyLoaded active g.name)), s) := by
  simp only [listen, Session.listen, Session.load, hactive]

end

end Dialog

end Colloquy
