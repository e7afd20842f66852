import Colloquy.Display.Basic

/-!
# Sinks for bytes

A sink keeps the bytes that are written to it. One of limited capacity fills up: a write that does
not fit leaves as many of its bytes as there is room for, and fails.
-/

namespace Colloquy

structure ByteSink where
  written : List UInt8
  /-- The number of bytes the sink can hold, if there is a limit. -/
  capacity : Option Nat
  deriving DecidableEq, Repr

namespace ByteSink

def empty (capacity : Option Nat) : ByteSink := ⟨[], capacity⟩

/-- The bytes of `bytes` that the sink has room for. -/
def fitting (sink : ByteSink) (bytes : List UInt8) : List UInt8 :=
  match sink.capacity with
  | none => bytes
  | some n => bytes.take (n - sink.written.length)

def write (bytes : List UInt8) (sink : ByteSink) : Except WriteFailure Unit × ByteSink :=
  let kept := sink.fitting bytes
  (if kept.length = bytes.length then .ok () else .error ⟨"sink is full"⟩,
    { sink with written := sink.written ++ kept })

/-- Writes one piece after the other, up to the first that does not fit. -/
def writeAll : List (List UInt8) → ByteSink → Except WriteFailure Unit × ByteSink
  | [], sink => (.ok (), sink)
  | piece :: pieces, sink =>
    match sink.write piece with
    | (.ok (), sink) => writeAll pieces sink
    | (.error e, sink) => (.error e, sink)

end ByteSink

end Colloquy
