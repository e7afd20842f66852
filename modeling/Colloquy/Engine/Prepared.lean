import Colloquy.Engine.Basic

/-!
# Prepared answers

An engine without ears, whose answers are laid down in advance. It accepts any request at any time.
-/

namespace Colloquy

structure PreparedEngine where
  /-- The answers to the attempts to come. -/
  outcomes : List (Except EngineFailure (Option Recognition))
  /-- The failures of the loads to come, where there are any. -/
  loads : List (Option EngineFailure)
  /-- The failures of the unloads to come, where there are any. -/
  unloads : List (Option EngineFailure)
  /-- When the answers are used up, nothing is recognized, rather than the input being closed. -/
  idle : Bool

namespace PreparedEngine

/-- The answer of a request whose failure may have been laid down. -/
def granted : Option (Option EngineFailure) → Except EngineFailure Unit
  | some (some e) => .error e
  | some none | none => .ok ()

instance : Engine PreparedEngine where
  load _ engine := (granted engine.loads.head?, { engine with loads := engine.loads.tail })
  attempt _ engine :=
    match engine.outcomes with
    | answer :: rest => (answer, { engine with outcomes := rest })
    | [] => (if engine.idle then .ok none else .error .inputClosed, engine)
  unload engine := (granted engine.unloads.head?, { engine with unloads := engine.unloads.tail })

/-- So many attempts use up all answers. -/
def patience (engine : PreparedEngine) : Nat := engine.outcomes.length + 1

end PreparedEngine

end Colloquy
