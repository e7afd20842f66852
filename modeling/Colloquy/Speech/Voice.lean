import Colloquy.Engine.Basic
import Colloquy.Speech.Basic

/-!
# Voices

A voice says a speech and answers when it is done.
-/

namespace Colloquy

/-- A voice in the state `σ`. -/
class Voice (σ : Type) where
  speak : Speech → σ → Except EngineFailure Unit × σ

/-- A voice that makes no sound. It may have been told to fail at one of its calls, counted from
0. -/
structure MuteVoice where
  calls : Nat
  failure : Option (Nat × EngineFailure)

namespace MuteVoice

/-- A mute voice that never fails. -/
def new : MuteVoice := ⟨0, none⟩

instance : Voice MuteVoice where
  speak _ voice :=
    let answer := match voice.failure with
      | some (position, e) => if position = voice.calls then .error e else .ok ()
      | none => .ok ()
    (answer, { voice with calls := voice.calls + 1 })

end MuteVoice

end Colloquy
