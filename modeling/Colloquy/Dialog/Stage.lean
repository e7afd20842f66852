import Colloquy.Display.Basic
import Colloquy.Engine.Basic
import Colloquy.Speech.Voice

/-!
# Stages

A dialog needs an engine, a voice and a display. A stage is the state of three separate ones.
-/

namespace Colloquy

structure Stage (ε υ δ : Type) where
  engine : ε
  voice : υ
  display : δ

namespace Stage

variable {ε υ δ : Type}

/-- Puts a request to the engine. -/
def askEngine {α : Type} (request : ε → α × ε) (stage : Stage ε υ δ) : α × Stage ε υ δ :=
  let (answer, engine) := request stage.engine
  (answer, { stage with engine })

/-- Puts a request to the voice. -/
def askVoice {α : Type} (request : υ → α × υ) (stage : Stage ε υ δ) : α × Stage ε υ δ :=
  let (answer, voice) := request stage.voice
  (answer, { stage with voice })

/-- Puts a request to the display. -/
def askDisplay {α : Type} (request : δ → α × δ) (stage : Stage ε υ δ) : α × Stage ε υ δ :=
  let (answer, display) := request stage.display
  (answer, { stage with display })

instance [Engine ε] : Engine (Stage ε υ δ) where
  load g := askEngine (Engine.load g)
  attempt timeout := askEngine (Engine.attempt timeout)
  unload := askEngine Engine.unload

instance [Voice υ] : Voice (Stage ε υ δ) where
  speak speech := askVoice (Voice.speak speech)

instance [Display δ] : Display (Stage ε υ δ) where
  writeLine line := askDisplay (Display.writeLine line)
  setHighlight color stage := { stage with display := Display.setHighlight color stage.display }

end Stage

end Colloquy
