import Colloquy.Engine.Basic
import Colloquy.Error
import Colloquy.Semantics.Extract

/-!
# Sessions

A session puts one grammar at a time to an engine. To listen is to load a grammar, to repeat attempts
until the engine recognizes a phrase or fails, and to unload the grammar again, whatever happened.
-/

namespace Colloquy

/-- A phrase that was heard, with its values. -/
structure Phrase where
  text : String
  confidence : Float32
  semantics : Semantics

/-- The phrase that an engine's report on the grammar `g` stands for. -/
def Phrase.ofRecognition (g : Grammar) (heard : Recognition) : Phrase :=
  ⟨heard.text, heard.confidence, g.extract heard.slots⟩

/-- How long an attempt waits for speech, and how long a session that polls sleeps between
attempts. -/
structure SessionConfig where
  attemptTimeout : Duration
  pollInterval : Duration
  deriving DecidableEq, Repr

/-- Ten seconds to wait, and fifty milliseconds to sleep. -/
def SessionConfig.usual : SessionConfig := ⟨⟨10, 0⟩, .ofMilliseconds 50⟩

/-- A session over an engine, which is part of the state `world`. `active` names the grammar that is
loaded, as far as the session knows. -/
structure Session (σ : Type) where
  world : σ
  config : SessionConfig
  active : Option String

namespace Session

variable {σ : Type}

/-- A session in which no grammar has been loaded. -/
def new (world : σ) (config : SessionConfig) : Session σ := ⟨world, config, none⟩

variable [Engine σ]

/-- Loads a grammar. While another one is active the engine is not even asked. -/
def load (g : Grammar) (s : Session σ) : Except Error Unit × Session σ :=
  match s.active with
  | some active => (.error (.grammarAlreadyLoaded active g.name), s)
  | none =>
    match Engine.load g s.world with
    | (.error e, world) => (.error (.grammarLoad g.name e), { s with world })
    | (.ok (), world) => (.ok (), { s with world, active := some g.name })

/-- Unloads whatever is loaded. The session takes it for unloaded even if the engine fails to. -/
def unload (s : Session σ) : Except Error Unit × Session σ :=
  match Engine.unload s.world with
  | (.error e, world) => (.error (.recognitionEngine e), { s with world, active := none })
  | (.ok (), world) => (.ok (), { s with world, active := none })

/-- Makes one attempt. -/
def attempt (s : Session σ) : Except Error (Option Recognition) × Session σ :=
  match Engine.attempt s.config.attemptTimeout s.world with
  | (.error e, world) => (.error (.recognitionEngine e), { s with world })
  | (.ok heard, world) => (.ok heard, { s with world })

/-- Ends listening. A failure of the attempts outweighs one of the unload, and a failure of the unload
outweighs the phrase. -/
def finish (g : Grammar) (outcome : Except Error Recognition) (s : Session σ) :
    Except Error Phrase × Session σ :=
  match outcome, s.unload with
  | .error e, (_, s) => (.error e, s)
  | .ok _, (.error e, s) => (.error e, s)
  | .ok heard, (.ok (), s) => (.ok (.ofRecognition g heard), s)

/-- Repeats attempts until one recognizes something or fails; none if `patience` of them recognized
nothing. -/
def hear : (patience : Nat) → Session σ → Option (Except Error Recognition) × Session σ
  | 0, s => (none, s)
  | patience + 1, s =>
    match s.attempt with
    | (.ok (some heard), s) => (some (.ok heard), s)
    | (.ok none, s) => hear patience s
    | (.error e, s) => (some (.error e), s)

/-- Listens for a phrase of the grammar `g`. Nothing but a phrase or a failure ends listening; it is
still going on, and the answer none, if `patience` attempts recognized nothing. -/
def listen (patience : Nat) (g : Grammar) (s : Session σ) :
    Option (Except Error Phrase) × Session σ :=
  match s.load g with
  | (.error e, s) => (some (.error e), s)
  | (.ok (), s) =>
    match hear patience s with
    | (none, s) => (none, s)
    | (some outcome, s) =>
      let (answer, s) := s.finish g outcome
      (some answer, s)

end Session

end Colloquy
