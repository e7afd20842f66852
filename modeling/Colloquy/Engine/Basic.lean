import Colloquy.Grammar.Basic
import Colloquy.Recognition.Basic
import Colloquy.Time

/-!
# Recognition engines

An engine is given a grammar, is then asked again and again whether it heard a phrase of it, and
gives the grammar up at the end. Every request may fail.
-/

namespace Colloquy

/-- What an engine, or a voice, gives as the reason for a failure. -/
inductive EngineFailure
  /-- The engine is missing or could not be started. -/
  | unavailable (message : String)
  /-- The engine refused the request. -/
  | rejected (message : String)
  /-- The audio device went away. -/
  | deviceLost (message : String)
  /-- No more speech will arrive. -/
  | inputClosed
  /-- Reading or writing failed. -/
  | io (message : String)
  deriving DecidableEq, Repr

def EngineFailure.message : EngineFailure → String
  | .unavailable message => "engine unavailable: " ++ message
  | .rejected message => "engine rejected the request: " ++ message
  | .deviceLost message => "audio device lost: " ++ message
  | .inputClosed => "input closed"
  | .io message => message

/-- A recognition engine in the state `σ`. Each request gives its answer and the state after it. -/
class Engine (σ : Type) where
  /-- Takes a grammar, so that its phrases can be recognized. -/
  load : Grammar → σ → Except EngineFailure Unit × σ
  /-- Waits for a phrase for so long; none if nothing was recognized. -/
  attempt : Duration → σ → Except EngineFailure (Option Recognition) × σ
  /-- Gives up every grammar. -/
  unload : σ → Except EngineFailure Unit × σ

end Colloquy
