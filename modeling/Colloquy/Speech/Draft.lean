import Colloquy.Speech.Basic
import Colloquy.Speech.Markup
import Colloquy.Time

/-!
# Drafts of a speech

A speech is composed from instructions. As long as there is only text it stays plain; the first
emphasis or pause turns it into markup, with the text said so far at its beginning. The writer of
the markup may fail. Its first failure is kept until the speech is built, and is then the answer.
-/

namespace Colloquy.Speech

inductive Instruction
  | say (text : String)
  | startEmphasis
  | endEmphasis
  /-- A pause. -/
  | silence (length : Duration)
  deriving DecidableEq, Repr

/-- The contents of a draft. -/
inductive Contents (ω : Type)
  | text (said : String)
  | markup (writer : ω)
  deriving DecidableEq, Repr

/-- A speech under composition, with a writer in the state `ω`. -/
structure Draft (ω : Type) where
  contents : Contents ω
  transcript : String
  /-- The first failure of the writer. -/
  failure : Option MarkupFailure
  deriving DecidableEq, Repr

namespace Draft

variable {ω : Type}

def empty : Draft ω := ⟨.text "", "", none⟩

/-- The draft after an attempt to write, whose failure is kept if it is the first. -/
def wrote (d : Draft ω) : Except MarkupFailure Unit × ω → Draft ω
  | (.ok (), w) => { d with contents := .markup w }
  | (.error e, w) => { d with contents := .markup w, failure := some (d.failure.getD e) }

variable [MarkupWriter ω]

/-- Writes a piece of markup. The first one comes behind the text that was said so far, if any. -/
def append (d : Draft ω) (piece : MarkupPiece) : Draft ω :=
  match d.contents with
  | .markup w => d.wrote (MarkupWriter.write piece w)
  | .text said =>
    if said = "" then d.wrote (MarkupWriter.write piece MarkupWriter.fresh)
    else
      match MarkupWriter.write (.text said) MarkupWriter.fresh with
      | (.ok (), w) => d.wrote (MarkupWriter.write piece w)
      | (.error e, w) => d.wrote (.error e, w)

/-- Carries out one instruction. A silence of less than a millisecond leaves no trace. -/
def add (d : Draft ω) : Instruction → Draft ω
  | .say text =>
    let d := { d with transcript := d.transcript ++ text }
    match d.contents with
    | .text said => { d with contents := .text (said ++ text) }
    | .markup w => d.wrote (MarkupWriter.write (.text text) w)
  | .startEmphasis => d.append (.startTag "emph" [])
  | .endEmphasis => d.append (.endTag "emph")
  | .silence length =>
    if length.milliseconds = 0 then d
    else
      let opened := d.append (.startTag "silence" [("msec", toString length.milliseconds)])
      opened.append (.endTag "silence")

/-- The speech composed so far, or the failure that was kept. -/
def build (d : Draft ω) : Except MarkupFailure Speech :=
  match d.failure, d.contents with
  | some e, _ => .error e
  | none, .text said => .ok (.plain said)
  | none, .markup w => .ok (.marked (MarkupWriter.written w) d.transcript)

/-! ## Composing several speeches -/

/-- A request to whoever keeps a draft. -/
inductive Edit
  | add (instruction : Instruction)
  | build
  deriving DecidableEq, Repr

/-- Carries out one request: what was built, if something was, and the draft that is kept. After a
speech was built the draft starts afresh. -/
def edit (d : Draft ω) : Edit → Option (Except MarkupFailure Speech) × Draft ω
  | .add instruction => (none, d.add instruction)
  | .build => (some d.build, empty)

end Draft

/-- The speech composed by the instructions, in order, with a writer in the state `ω`. -/
def ofInstructions (ω : Type) [MarkupWriter ω] (instructions : List Instruction) :
    Except MarkupFailure Speech :=
  (instructions.foldl Draft.add (Draft.empty : Draft ω)).build

end Colloquy.Speech
