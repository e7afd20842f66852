import Colloquy.Display.Basic
import Colloquy.Engine.Basic
import Colloquy.Speech.Voice

/-!
# Traces

A trace is the row of requests that an engine, a voice and a display received, each with its answer.
`Recorded` wraps any state so that its requests are noted down; apart from that they are answered as
before.
-/

namespace Colloquy

/-- A request and its answer. -/
inductive Event
  | loaded (grammar : String) (answer : Except EngineFailure Unit)
  | attempted (timeout : Duration) (answer : Except EngineFailure (Option Recognition))
  | unloaded (answer : Except EngineFailure Unit)
  | spoke (speech : Speech) (answer : Except EngineFailure Unit)
  | wrote (line : String) (answer : Except WriteFailure Unit)
  | highlighted (color : Option TermColor)

/-- A state together with the requests it has answered, the oldest first. -/
structure Recorded (σ : Type) where
  world : σ
  trace : List Event

namespace Recorded

variable {σ : Type}

/-- Records from now on. -/
def new (world : σ) : Recorded σ := ⟨world, []⟩

/-- Passes a request on to the wrapped state and notes it down. -/
def pass {α : Type} (request : σ → α × σ) (event : α → Event) (r : Recorded σ) : α × Recorded σ :=
  let (answer, world) := request r.world
  (answer, ⟨world, r.trace ++ [event answer]⟩)

instance [Engine σ] : Engine (Recorded σ) where
  load g := pass (Engine.load g) (.loaded g.name)
  attempt timeout := pass (Engine.attempt timeout) (.attempted timeout)
  unload := pass Engine.unload .unloaded

instance [Voice σ] : Voice (Recorded σ) where
  speak speech := pass (Voice.speak speech) (.spoke speech)

instance [Display σ] : Display (Recorded σ) where
  writeLine line := pass (Display.writeLine line) (.wrote line)
  setHighlight color r := ⟨Display.setHighlight color r.world, r.trace ++ [.highlighted color]⟩

end Recorded

end Colloquy
