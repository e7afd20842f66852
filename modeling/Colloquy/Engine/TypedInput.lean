import Colloquy.Engine.Basic
import Colloquy.Recognition.Utterance
import Colloquy.Text.Lines
import Colloquy.Text.Utf8

/-!
# Typed input

An engine that reads utterances as lines of text and holds them against the loaded grammar. Each
attempt takes one line off the input; a blank line, and a line that the grammar does not accept, is
nothing recognized. Bytes that are not UTF-8 are read leniently, so a garbled line is an utterance
that fits no grammar rather than the end of the input.
-/

namespace Colloquy

open Text

/-- What a reader meets behind the last byte. -/
inductive Ending
  /-- The input is over. -/
  | closed
  /-- Every further read fails. Bytes that wait for their newline are lost to the failure. -/
  | failing (reason : String)
  deriving DecidableEq, Repr

/-- The failure an engine reports when there is no line left. -/
def Ending.failure : Ending → EngineFailure
  | .closed => .inputClosed
  | .failing reason => .io reason

structure TypedInput where
  /-- The bytes that have not been read. -/
  unread : List UInt8
  ending : Ending
  loaded : Option Grammar

namespace TypedInput

/-- Input that holds `bytes` and then ends, with no grammar loaded. -/
def ofBytes (bytes : List UInt8) : TypedInput := ⟨bytes, .closed, none⟩

/-- Takes the next line off the input. -/
def readLine (input : TypedInput) : Except EngineFailure String × TypedInput :=
  match takeLine? input.unread with
  | none => (.error input.ending.failure, input)
  | some (line, rest) =>
    if input.ending = .closed ∨ newline ∈ line then
      (.ok (decodeUtf8 line), { input with unread := rest })
    else (.error input.ending.failure, { input with unread := rest })

/-- Takes a grammar, unless one is loaded. -/
def load (g : Grammar) (input : TypedInput) : Except EngineFailure Unit × TypedInput :=
  match input.loaded with
  | some active => (.error (.rejected ("grammar \"" ++ active.name ++ "\" is still loaded")), input)
  | none => (.ok (), { input with loaded := some g })

/-- Takes a line and holds it against the loaded grammar; takes none if there is no grammar. -/
def attempt (input : TypedInput) : Except EngineFailure (Option Recognition) × TypedInput :=
  match input.loaded with
  | none => (.error (.rejected "no grammar loaded"), input)
  | some g =>
    match input.readLine with
    | (.ok line, rest) => (.ok (g.recognize line), rest)
    | (.error e, rest) => (.error e, rest)

def unload (input : TypedInput) : Except EngineFailure Unit × TypedInput :=
  (.ok (), { input with loaded := none })

instance : Engine TypedInput where
  load := load
  attempt _ := attempt
  unload := unload

/-- So many attempts read all lines and meet the end of the input. -/
def patience (input : TypedInput) : Nat := input.unread.count newline + 2

end TypedInput

end Colloquy
