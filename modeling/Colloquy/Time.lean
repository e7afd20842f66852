/-!
# Time

Lengths of time are told to the nanosecond. Moments are nanoseconds too, counted from the beginning
of whatever is going on. How long a sleep really lasts is a matter of the timer that it is left to.

* `Timer.Exact`: the timer keeps to a length of time.
* `Timer.exact_usual`: the usual timer keeps to whole milliseconds, within its bounds.
-/

namespace Colloquy

/-- A length of time. -/
structure Duration where
  seconds : Nat
  nanoseconds : Nat
  deriving DecidableEq, Repr

namespace Duration

def zero : Duration := ⟨0, 0⟩

def ofMilliseconds (n : Nat) : Duration := ⟨n / 1000, 1000000 * (n % 1000)⟩

/-- The whole length. -/
def inNanoseconds (d : Duration) : Nat := 1000000000 * d.seconds + d.nanoseconds

theorem inNanoseconds_ofMilliseconds (n : Nat) :
    (ofMilliseconds n).inNanoseconds = 1000000 * n := by
  rw [inNanoseconds, ofMilliseconds]
  dsimp only
  omega

/-- The whole milliseconds of a length of time. -/
def milliseconds (d : Duration) : Nat := d.inNanoseconds / 1000000

end Duration

/-- A timer, to which sleeping is left. -/
structure Timer where
  /-- The moment at which a sleep of the given length is over that begins at the moment `now`. -/
  wakeTime : (length : Duration) → (now : Nat) → Nat

namespace Timer

/-- The moment at which so many sleeps of one length are over that begin at the moment `now`, one
after the other. -/
def sleeps (timer : Timer) (length : Duration) : (count now : Nat) → Nat
  | 0, now => now
  | count + 1, now => timer.sleeps length count (timer.wakeTime length now)

/-- A sleep of this length takes this time, neither less nor more. -/
def Exact (timer : Timer) (length : Duration) : Prop :=
  ∀ now, timer.wakeTime length now = now + length.inNanoseconds

theorem Exact.sleeps {timer : Timer} {length : Duration} (h : timer.Exact length)
    (count now : Nat) : timer.sleeps length count now = now + count * length.inNanoseconds := by
  induction count generalizing now with
  | zero => rw [Timer.sleeps, Nat.zero_mul, Nat.add_zero]
  | succ count ih => rw [Timer.sleeps, ih, h, Nat.succ_mul, Nat.add_assoc, Nat.add_comm (_ * _)]

/-- A timer to run with. It sleeps for whole milliseconds: one at least, and those of thirty years of
365 days at most. -/
def usual : Timer where
  wakeTime length now :=
    let milliseconds := (length.inNanoseconds + 999999) / 1000000
    now + 1000000 * max 1 (min milliseconds (30 * 365 * 24 * 60 * 60 * 1000))

theorem exact_usual {n : Nat} (hshort : 1 ≤ n) (hlong : n ≤ 30 * 365 * 24 * 60 * 60 * 1000) :
    usual.Exact (.ofMilliseconds n) := by
  intro now
  have hround : (1000000 * n + 999999) / 1000000 = n := by omega
  rw [usual]
  dsimp only
  rw [Duration.inNanoseconds_ofMilliseconds, hround, Nat.min_eq_left hlong, Nat.max_eq_right hshort]

end Timer

end Colloquy
