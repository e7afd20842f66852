import Colloquy.Text.Words
import Colloquy.Text.Utf8
import Colloquy.Number.Binary32
import Colloquy.Grammar.Draft
import Colloquy.Semantics.Extract
import Colloquy.Engine.TypedInput
import Colloquy.Engine.Prepared
import Colloquy.Speech.Draft
import Colloquy.Speech.Voice
import Colloquy.Display.Console
import Colloquy.Session.Polling
import Colloquy.Trace
import Colloquy.Main
import Colloquy.Proofs.Recognition.Derivation
import Colloquy.Proofs.Recognition.LeastDerivation
import Colloquy.Proofs.Engine.TypedLines
import Colloquy.Proofs.Engine.TypedHistory
import Colloquy.Proofs.Session.Ends
import Colloquy.Proofs.Session.FirstAccepted
import Colloquy.Proofs.Session.Listening
import Colloquy.Proofs.Session.OneGrammar
import Colloquy.Proofs.Session.Guards
import Colloquy.Proofs.Recognition.Report
import Colloquy.Proofs.Semantics.RecordedEntry
import Colloquy.Proofs.Grammar.Built
import Colloquy.Proofs.Recognition.Transcript
import Colloquy.Proofs.Recognition.HeardAgain
import Colloquy.Proofs.Semantics.Keys
import Colloquy.Proofs.Semantics.TypedPhrase
import Colloquy.Proofs.Session.PollingAgrees
import Colloquy.Proofs.Session.Calls
import Colloquy.Proofs.Session.Abandoned
import Colloquy.Proofs.Dialog.Acts
import Colloquy.Proofs.Dialog.Course
import Colloquy.Proofs.Dialog.Conduct
import Colloquy.Proofs.Dialog.Failures
import Colloquy.Proofs.Dialog.Answerable
import Colloquy.Proofs.Dialog.TypedAnswers
import Colloquy.Proofs.Dialog.Answers
import Colloquy.Proofs.Dialog.Remarks
import Colloquy.Proofs.Dialog.Highlights
import Colloquy.Proofs.Grammar.Composing
import Colloquy.Proofs.Speech.LateSwitch
import Colloquy.Proofs.Speech.Decoded
import Colloquy.Proofs.Display.Filling
import Colloquy.Proofs.Recognition.Alike
import Colloquy.Proofs.Grammar.Choices
import Colloquy.Proofs.Recognition.Saying
import Colloquy.Proofs.Semantics.SaidPhrase
import Colloquy.Proofs.Semantics.AnyReport
import Colloquy.Proofs.Session.Outcomes
import Colloquy.Proofs.Recognition.Certainty
import Colloquy.Proofs.Recognition.Widening
import Colloquy.Proofs.Recognition.BlankEntries
import Colloquy.Proofs.Recognition.Speakable
import Colloquy.Proofs.Recognition.SplitLiterals
import Colloquy.Proofs.Grammar.FirstFault
import Colloquy.Proofs.Recognition.SameWords
import Colloquy.Proofs.Recognition.Positions
