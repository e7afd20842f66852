import Colloquy.Display.Basic
import Colloquy.Dialog.Turn
import Colloquy.Engine.Basic
import Colloquy.Speech.Markup

/-!
# Errors

Everything that can go wrong between a grammar and the end of a dialog, with the wording shown to
the user.
-/

namespace Colloquy

inductive Error
  /-- A grammar could not be composed. -/
  | grammarDefinition (fault : Grammar.Fault)
  /-- The engine refused to load a grammar. -/
  | grammarLoad (grammar : String) (cause : EngineFailure)
  /-- A grammar was to be loaded while another one was active. -/
  | grammarAlreadyLoaded (active requested : String)
  /-- The engine failed for good. -/
  | recognitionEngine (cause : EngineFailure)
  /-- The voice failed. -/
  | synthesis (cause : EngineFailure)
  /-- There is no audio device to start with. -/
  | audioDevice (cause : EngineFailure)
  /-- A speech could not be composed. -/
  | markup (cause : MarkupFailure)
  /-- A line could not be shown. -/
  | console (cause : WriteFailure)
  /-- A turn of the dialog failed. -/
  | turn (turn : Turn) (cause : Error)
  deriving DecidableEq, Repr

namespace Error

def message : Error → String
  | .grammarDefinition fault => "invalid grammar: " ++ fault.message
  | .grammarLoad grammar _ => "recognition engine rejected grammar \"" ++ grammar ++ "\""
  | .grammarAlreadyLoaded active requested =>
    "cannot load grammar \"" ++ requested ++ "\" while grammar \"" ++ active ++
      "\" is still loaded"
  | .recognitionEngine _ => "recognition engine failed"
  | .synthesis _ => "speech synthesis failed"
  | .audioDevice _ => "audio device unavailable"
  | .markup _ => "speech markup could not be written"
  | .console _ => "console output failed"
  | .turn t _ => "turn " ++ t.name ++ " failed"

/-- The messages of the error and of all its causes, from the outermost to the innermost. -/
def messages (error : Error) : List String :=
  error.message :: match error with
    | .grammarDefinition fault => [fault.message]
    | .grammarLoad _ cause | .recognitionEngine cause | .synthesis cause | .audioDevice cause =>
      [cause.message]
    | .grammarAlreadyLoaded _ _ => []
    | .markup cause => [cause.reason]
    | .console cause => [cause.reason]
    | .turn _ cause => cause.messages

/-- The error with all its causes in one line. -/
def report (error : Error) : String := ": ".intercalate error.messages

end Error

end Colloquy
