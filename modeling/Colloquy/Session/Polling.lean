import Colloquy.Session.Basic

/-!
# Listening by polling

Instead of waiting inside an attempt, a session may make attempts that return at once and sleep in
between. Such listening can be given up while it sleeps; the grammar is then unloaded, so the session
can listen again. Moments are counted from the beginning of listening, and how long a sleep lasts is
left to a timer.
-/

namespace Colloquy.Session

variable {σ : Type}

/-- The same session, in which attempts do not wait. -/
def polling (s : Session σ) : Session σ :=
  { s with config := { s.config with attemptTimeout := .zero } }

/-- A session to poll with. -/
def newPolling (world : σ) (config : SessionConfig) : Session σ := (new world config).polling

variable [Engine σ]

/-- Unloads the grammar if there still is one, and keeps silent about a failure. Every way out of
listening passes here. -/
def release (s : Session σ) : Session σ :=
  match s.active with
  | none => s
  | some _ => s.unload.2

/-- Makes one attempt and ends listening if it was answered; none if nothing was recognized. -/
def resume (g : Grammar) (s : Session σ) : Option (Except Error Phrase) × Session σ :=
  match s.attempt with
  | (.ok none, s) => (none, s)
  | (.ok (some heard), s) =>
    let (answer, s) := s.finish g (.ok heard)
    (some answer, s.release)
  | (.error e, s) =>
    let (answer, s) := s.finish g (.error e)
    (some answer, s.release)

variable (timer : Timer)

/-! ## Listening to the end -/

/-- Makes attempts from the moment `now` on until one is answered, and tells the moment of that one;
none if `patience` attempts recognized nothing. -/
def poll (g : Grammar) (interval : Duration) :
    (patience now : Nat) → Session σ → Option (Except Error Phrase × Nat) × Session σ
  | 0, _, s => (none, s)
  | patience + 1, now, s =>
    match s.resume g with
    | (some answer, s) => (some (answer, now), s)
    | (none, s) => poll g interval patience (timer.wakeTime interval now) s

/-- Listens for a phrase by polling, and tells when listening ended. -/
def awaitPhrase (patience : Nat) (g : Grammar) (s : Session σ) :
    Option (Except Error Phrase × Nat) × Session σ :=
  match s.load g with
  | (.error e, s) => (some (.error e, 0), s)
  | (.ok (), s) => poll timer g s.config.pollInterval patience 0 s

/-! ## Giving up -/

/-- How listening stands. -/
inductive Standing
  /-- It is still going on. -/
  | going
  /-- It was given up. -/
  | abandoned
  | over (answer : Except Error Phrase)

/-- Makes attempts from the moment `now` on, the last of them not after `deadline`. It is still
going on if `patience` attempts recognized nothing and there is time for another one. -/
def pollUntil (g : Grammar) (interval : Duration) (deadline : Nat) :
    (patience now : Nat) → Session σ → Standing × Session σ
  | 0, _, s => (.going, s)
  | patience + 1, now, s =>
    match s.resume g with
    | (some answer, s) => (.over answer, s)
    | (none, s) =>
      if timer.wakeTime interval now ≤ deadline then
        pollUntil g interval deadline patience (timer.wakeTime interval now) s
      else (.abandoned, s)

/-- Listens for a phrase by polling, up to `deadline`, at which listening is abandoned. -/
def awaitUntil (deadline patience : Nat) (g : Grammar) (s : Session σ) : Standing × Session σ :=
  match s.load g with
  | (.error e, s) => (.over (.error e), s)
  | (.ok (), s) =>
    match pollUntil timer g s.config.pollInterval deadline patience 0 s with
    | (.abandoned, s) => (.abandoned, s.release)
    | reached => reached

end Colloquy.Session
