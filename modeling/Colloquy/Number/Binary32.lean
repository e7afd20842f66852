import Colloquy.Number.Rounding

/-!
# Whole-number text of a single-precision number

A number is shown without decimals: its exact value, taken from the bits, is rounded to a whole
number and written out in full.
-/

namespace Colloquy.Number

/-- What the bits of a single-precision number stand for. A finite one is
`± significand * 2 ^ (scale - 150)`, with `1 ≤ scale`. -/
inductive Binary32
  | nan
  | infinite (negative : Bool)
  | finite (negative : Bool) (significand scale : Nat)
  deriving DecidableEq, Repr

namespace Binary32

/-- Reads the sign, the eight bits of the exponent and the 23 of the fraction. -/
def ofBits (bits : UInt32) : Binary32 :=
  let negative := bits.toNat >>> 31 = 1
  let exponent := (bits.toNat >>> 23) % 0x100
  let fraction := bits.toNat % 0x800000
  if exponent = 255 then
    if fraction = 0 then .infinite negative else .nan
  else if exponent = 0 then .finite negative fraction 1
  else .finite negative (0x800000 + fraction) exponent

/-- The absolute value of a finite number, rounded to a whole number. -/
def magnitude (significand scale : Nat) : Nat :=
  if 150 ≤ scale then significand <<< (scale - 150)
  else roundHalfEven significand (1 <<< (150 - scale))

/-- A minus stands before every number whose sign bit is set, also where it rounds to zero. -/
def wholeText : Binary32 → String
  | .nan => "NaN"
  | .infinite negative => if negative then "-inf" else "inf"
  | .finite negative significand scale =>
    (if negative then "-" else "") ++ toString (magnitude significand scale)

end Binary32

/-- A single-precision number without decimals. -/
def wholeText (x : Float32) : String := (Binary32.ofBits x.toBits).wholeText

end Colloquy.Number
