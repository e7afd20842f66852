import Colloquy.Dialog.Basic
import Colloquy.Dialog.Stage
import Colloquy.Display.Console
import Colloquy.Engine.TypedInput

/-!
# The command line

The program holds a dialog over lines of text: utterances are read from the standard input, and
what is said appears on the standard output.
-/

namespace Colloquy.CommandLine

/-- How a dialog over typed input ended. -/
structure Outcome where
  /-- Everything that was written. -/
  output : List UInt8
  error : Option Error

namespace Outcome

def exitCode (outcome : Outcome) : UInt32 := if outcome.error.isSome then 1 else 0

/-- What is told about a failure. -/
def report (outcome : Outcome) : Option String := outcome.error.map (·.report)

/-- The dialog ended for want of input, so that it would have gone on with more of it. -/
def wantsInput (outcome : Outcome) : Bool :=
  match outcome.error with
  | some (.turn _ (.recognitionEngine .inputClosed)) => true
  | _ => false

end Outcome

/-- Holds the dialog over the given input. -/
def converse (input : TypedInput) : Outcome :=
  let stage : Stage TypedInput MuteVoice Console := ⟨input, .new, .new none⟩
  let (answer, s) := Dialog.run input.patience (Session.new stage .usual)
  let error := match answer with
    | .ok () | .error .listening => none
    | .error (.failed cause) => some cause
  ⟨s.world.display.sink.written, error⟩

end Colloquy.CommandLine
