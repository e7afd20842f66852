import Colloquy.Display.Basic
import Colloquy.Number.Binary32
import Colloquy.Session.Basic
import Colloquy.Speech.Draft
import Colloquy.Speech.Voice

/-!
# Dialogs

A dialog takes its turns one after the other: it says a prompt, listens for a phrase of the turn's
grammar, reports what it heard and may reply to it. Every line is shown before it is spoken, and the
first failure ends the dialog. Speaking and listening never overlap, since each request is answered
before the next is made.
-/

namespace Colloquy

/-- Why a dialog stopped before its end. -/
inductive Halt
  | failed (cause : Error)
  /-- It is still listening: the attempts it was granted recognized nothing. -/
  | listening
  deriving DecidableEq, Repr

/-- The halt, seen from outside the turn in which it happened. -/
def Halt.inTurn (turn : Turn) : Halt → Halt
  | .failed cause => .failed (.turn turn cause)
  | .listening => .listening

/-- A part of a dialog over the state `σ`. -/
abbrev Act (σ : Type) := ExceptT Halt (StateM (Session σ))

namespace Act

variable {σ α β : Type}

theorem pure_apply (a : α) (s : Session σ) : (pure a : Act σ α) s = (.ok a, s) := rfl

/-- The second part is acted out only if the first came to its end. -/
theorem bind_apply (x : Act σ α) (f : α → Act σ β) (s : Session σ) :
    (x >>= f) s =
      match x s with
      | (.ok a, s) => f a s
      | (.error halt, s) => (.error halt, s) := by
  change (match x s with
    | (a, s) => ExceptT.bindCont f a s) = _
  rcases x s with ⟨_ | _, _⟩ <;> rfl

end Act

namespace Dialog

variable {σ : Type}

/-! ## Requests -/

/-- Puts a request to the voice or the display. A failure ends the dialog with an error built from
it. -/
def ask {ε α : Type} (request : σ → Except ε α × σ) (error : ε → Error) : Act σ α := fun s =>
  match request s.world with
  | (.ok answer, world) => (.ok answer, { s with world })
  | (.error e, world) => (.error (.failed (error e)), { s with world })

/-- Listens for a phrase, with `patience` attempts at most. -/
def listen [Engine σ] (patience : Nat) (g : Grammar) : Act σ Phrase := fun s =>
  match s.listen patience g with
  | (some (.ok phrase), s) => (.ok phrase, s)
  | (some (.error e), s) => (.error (.failed e), s)
  | (none, s) => (.error .listening, s)

/-- Sets the color of the lines to come. -/
def setHighlight [Display σ] (color : Option TermColor) : Act σ Unit :=
  modify fun s => { s with world := Display.setHighlight color s.world }

/-- The speech, if it could be composed. -/
def compose (speech : Except MarkupFailure Speech) : Act σ Speech := fun s =>
  match speech with
  | .ok speech => (.ok speech, s)
  | .error e => (.error (.failed (.markup e)), s)

/-- Shows a speech and then speaks it. -/
def say [Voice σ] [Display σ] (speech : Speech) : Act σ Unit := do
  ask (Display.writeLine speech.transcript) .console
  ask (Voice.speak speech) .synthesis

/-! ## Lines -/

def openingLine : String := "I'm listening..."

def closingLine : String := "Done listening"

/-- What is said about a phrase once it was heard. -/
def reportLine (phrase : Phrase) : String :=
  "I'm " ++ Number.wholeText (phrase.confidence * 100.0) ++ "% sure you just said " ++ phrase.text

/-- The reply to a favorite color. -/
def acknowledgement (color : Color) : Except MarkupFailure Speech :=
  Speech.ofInstructions StringWriter
    [.startEmphasis, .say color.label, .endEmphasis, .say " is my favorite too!"]

/-- The reply to a name. -/
def greetingLine (name : Value) : String := "Hi " ++ name.shown ++ "!"

/-- The color that a phrase names by its code. -/
def favoriteColor? (phrase : Phrase) : Option Color :=
  ((phrase.semantics.get? colorKey).bind (·.asInt?)).bind Color.ofCode?

/-! ## Turns -/

variable [Engine σ] [Voice σ] [Display σ]

/-- Replies to a phrase: to a color in that color, which stays, and to a name with a greeting. -/
def reply (turn : Turn) (phrase : Phrase) : Act σ Unit :=
  match turn with
  | .greeting | .freeChoice => pure ()
  | .favoriteColor =>
    match favoriteColor? phrase with
    | none => pure ()
    | some color => do
      setHighlight (some color.style)
      say (← compose (acknowledgement color))
  | .wildcardName | .dictatedName =>
    match phrase.semantics.get? nameKey with
    | none => pure ()
    | some name => say (.plain (greetingLine name))

/-- Takes one turn. -/
def runTurn (patience : Nat) (turn : Turn) : Act σ Phrase := do
  say (.plain turn.prompt)
  let phrase ← listen patience turn.grammar
  say (.plain (reportLine phrase))
  reply turn phrase
  return phrase

/-- Takes all turns, between an opening and a closing line. -/
def run (patience : Nat) : Act σ Unit := do
  say (.plain openingLine)
  Turn.all.forM fun turn => do
    let _ ← (runTurn patience turn).adapt (Halt.inTurn turn)
  say (.plain closingLine)

end Dialog

end Colloquy
