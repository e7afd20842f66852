import Colloquy.CommandLine

/-!
# The program

Reads utterances from the standard input and prints each line of the dialog as soon as it can be
said. The dialog is held again over all input so far whenever a line arrives; only what is new in
its output is printed.
-/

namespace Colloquy.CommandLine

/-- Reads up to the end of the next line, byte by byte. The flag tells whether the input may go on
after it. -/
partial def readLine (stdin : IO.FS.Stream) (read : ByteArray) : IO (ByteArray × Bool) := do
  match (← stdin.read 1).toList with
  | [] => return (read, false)
  | byte :: _ =>
    if byte = Text.newline then return (read.push byte, true)
    readLine stdin (read.push byte)

/-- Holds the dialog over `input` and, while more may come, over longer and longer input until it
does not want more. `shown` bytes of its output have been printed. -/
partial def talk (stdin stdout : IO.FS.Stream) (input : ByteArray) (more : Bool) (shown : Nat) :
    IO UInt32 := do
  let outcome := converse (.ofBytes input.toList)
  stdout.write (outcome.output.drop shown).toByteArray
  stdout.flush
  if more && outcome.wantsInput then
    let (input, more) ← readLine stdin input
    talk stdin stdout input more outcome.output.length
  else
    if let some report := outcome.report then IO.eprintln report
    return outcome.exitCode

end Colloquy.CommandLine

def main : IO UInt32 := do
  Colloquy.CommandLine.talk (← IO.getStdin) (← IO.getStdout) .empty true 0
