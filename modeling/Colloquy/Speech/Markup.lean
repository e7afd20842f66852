/-!
# Writing markup

Markup is written piece by piece: texts, start tags and end tags. What comes of a piece is left to
a writer, which may fail at any of them (`MarkupWriter`). All that is asked of a writer is that it
does not matter how a text is cut into pieces (`LawfulMarkupWriter`).

The usual writer keeps what it writes in a string and never fails (`StringWriter`). It does not
check that tags are balanced. A start tag stays open at its end until the next piece shows whether
the element has any contents; one that is ended at once becomes an empty tag. What the characters of
text are written as (`Escaping`) may be chosen; the usual entities are the instance.
-/

namespace Colloquy

/-- Why markup could not be written. -/
structure MarkupFailure where
  reason : String
  deriving DecidableEq, Repr

/-- A piece of markup. -/
inductive MarkupPiece
  /-- Text inside the current element. -/
  | text (s : String)
  /-- The start of an element. -/
  | startTag (name : String) (attributes : List (String × String))
  /-- The end of an element. -/
  | endTag (name : String)
  deriving DecidableEq, Repr

/-- A writer of markup in the state `ω`. -/
class MarkupWriter (ω : Type) where
  /-- The state in which nothing has been written. -/
  fresh : ω
  write : MarkupPiece → ω → Except MarkupFailure Unit × ω
  /-- What has been written. -/
  written : ω → String

/-- What has been written when the pieces are written as well, one after the other, or the first
failure. -/
def MarkupWriter.output {ω : Type} [MarkupWriter ω] :
    List MarkupPiece → ω → Except MarkupFailure String
  | [], w => .ok (written w)
  | piece :: pieces, w =>
    match write piece w with
    | (.ok (), w) => output pieces w
    | (.error e, _) => .error e

/-- A writer that writes texts character by character: two texts are written like the one that they
make up, and an empty one is no beginning. -/
class LawfulMarkupWriter (ω : Type) [MarkupWriter ω] : Prop where
  output_text_text : ∀ (a b : String) (pieces : List MarkupPiece) (w : ω),
    MarkupWriter.output (.text a :: .text b :: pieces) w =
      MarkupWriter.output (.text (a ++ b) :: pieces) w
  output_text_empty : ∀ pieces : List MarkupPiece,
    MarkupWriter.output (.text "" :: pieces) (MarkupWriter.fresh : ω) =
      MarkupWriter.output pieces (MarkupWriter.fresh : ω)

/-! ## Writing to a string -/

/-- How text is rendered: character by character. -/
class Escaping where
  escape : Char → List Char

/-- The characters of text that would be taken for markup are written as entities. -/
def escapeChar : Char → List Char
  | '<' => ['&', 'l', 't', ';']
  | '>' => ['&', 'g', 't', ';']
  | '&' => ['&', 'a', 'm', 'p', ';']
  | c => [c]

instance Escaping.entities : Escaping := ⟨escapeChar⟩

def escapeText [Escaping] (text : String) : String :=
  String.ofList (text.toList.flatMap Escaping.escape)

structure StringWriter where
  written : String
  /-- The last start tag lacks its closing bracket. -/
  tagOpen : Bool
  deriving DecidableEq, Repr

namespace StringWriter

def empty : StringWriter := ⟨"", false⟩

/-- Closes a tag that is open. -/
def closeTag (w : StringWriter) : StringWriter :=
  if w.tagOpen then ⟨w.written ++ ">", false⟩ else w

/-- Starts an element. The values of the attributes hold no characters that need escaping. -/
def startTag (w : StringWriter) (name : String) (attributes : List (String × String)) :
    StringWriter :=
  let shown := attributes.map fun (key, value) => " " ++ key ++ "=\"" ++ value ++ "\""
  ⟨w.closeTag.written ++ "<" ++ name ++ String.join shown, true⟩

/-- Ends an element. -/
def endTag (w : StringWriter) (name : String) : StringWriter :=
  if w.tagOpen then ⟨w.written ++ " />", false⟩ else ⟨w.written ++ "</" ++ name ++ ">", false⟩

variable [Escaping]

/-- Writes text inside the current element. -/
def text (w : StringWriter) (s : String) : StringWriter :=
  ⟨w.closeTag.written ++ escapeText s, false⟩

/-- The writer behind a piece. -/
def put (w : StringWriter) : MarkupPiece → StringWriter
  | .text s => w.text s
  | .startTag name attributes => w.startTag name attributes
  | .endTag name => w.endTag name

instance : MarkupWriter StringWriter where
  fresh := empty
  write piece w := (.ok (), w.put piece)
  written := written

end StringWriter

end Colloquy
