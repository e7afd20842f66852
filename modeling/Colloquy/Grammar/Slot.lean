import Colloquy.Grammar.Fault
import Colloquy.Grammar.Value
import Colloquy.Text.Words

/-!
# Slots

A slot is one place in a phrase: fixed words, one of several spoken forms that each stand for a
value, or a free stretch of speech.
-/

namespace Colloquy

open Text

/-- A spoken form and the value it stands for. -/
structure Entry where
  spoken : String
  value : Value
  deriving DecidableEq, Repr

/-- `text` says the spoken form, in any case and with any spacing. -/
def Entry.accepts (e : Entry) (text : String) : Bool := normalForm e.spoken == normalForm text

inductive Slot
  /-- Fixed words. -/
  | literal (text : String)
  /-- Exactly one of the entries. -/
  | choice (entries : List Entry)
  /-- Any speech, without a value. -/
  | wildcard
  /-- Any speech, whose transcript is the value. -/
  | dictation
  deriving DecidableEq, Repr

namespace Slot

/-- The first entry without words or with a normal form met before, `met` included. -/
def entryFault? (met : List String) : List Entry → Option Grammar.Fault
  | [] => none
  | e :: rest =>
    let form := normalForm e.spoken
    if form = "" then some .emptyLiteral
    else if form ∈ met then some (.duplicateSpokenForm e.spoken)
    else entryFault? (form :: met) rest

/-- A choice of at least one entry, whose spoken forms have words and are told apart by them. -/
def ofEntries (entries : List Entry) : Except Grammar.Fault Slot :=
  match entries, entryFault? [] entries with
  | [], _ => .error .emptyChoice
  | _ :: _, some fault => .error fault
  | _ :: _, none => .ok (.choice entries)

/-- A choice of spoken forms that stand for themselves. -/
def ofWords (forms : List String) : Except Grammar.Fault Slot :=
  ofEntries (forms.map fun form => ⟨form, .text form⟩)

/-- The fault that keeps the slot out of any grammar: a literal without words. -/
def fault? : Slot → Option Grammar.Fault
  | .literal text => if normalForm text = "" then some .emptyLiteral else none
  | _ => none

end Slot

end Colloquy
