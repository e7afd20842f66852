/-!
# Lines of bytes

Input is read line by line. A line ends with a newline byte, which belongs to it; bytes after the
last newline form a line without one.

* `lines_flatten`: the lines hold all bytes of the input, in order.
* `lines_of_takeLine?`: taking a line off the input takes the first of its lines.
-/

namespace Colloquy.Text

/-- The byte that ends a line. -/
def newline : UInt8 := 0x0A

/-- The lines of the input. -/
def lines : List UInt8 → List (List UInt8)
  | [] => []
  | b :: bytes =>
    if b = newline then [b] :: lines bytes
    else match lines bytes with
      | [] => [[b]]
      | line :: rest => (b :: line) :: rest

/-- The first line of the input and the bytes after it; none if there are no bytes. -/
def takeLine? (bytes : List UInt8) : Option (List UInt8 × List UInt8) :=
  match bytes, bytes.dropWhile (· != newline) with
  | [], _ => none
  | _ :: _, [] => some (bytes, [])
  | _ :: _, b :: rest => some (bytes.takeWhile (· != newline) ++ [b], rest)

theorem lines_flatten (bytes : List UInt8) : (lines bytes).flatten = bytes := by
  induction bytes with
  | nil => rfl
  | cons b bytes ih =>
    unfold lines
    split
    · simp [ih]
    · split
      · next h => simpa [h] using ih
      · next h => simpa [h] using ih

theorem takeLine?_eq_none_iff {bytes : List UInt8} : takeLine? bytes = none ↔ bytes = [] := by
  unfold takeLine?
  split <;> simp

theorem takeLine?_cons {b : UInt8} {bytes : List UInt8} (hb : b ≠ newline) :
    takeLine? (b :: bytes) =
      match takeLine? bytes with
      | none => some ([b], [])
      | some (line, rest) => some (b :: line, rest) := by
  have hne : (b != newline) = true := by simpa using hb
  cases bytes with
  | nil => simp [takeLine?, hne]
  | cons c cs =>
    have hd : (b :: c :: cs).dropWhile (· != newline) = (c :: cs).dropWhile (· != newline) :=
      List.dropWhile_cons_of_pos hne
    have ht : (b :: c :: cs).takeWhile (· != newline) =
        b :: (c :: cs).takeWhile (· != newline) := List.takeWhile_cons_of_pos hne
    unfold takeLine?
    rw [hd, ht]
    cases (c :: cs).dropWhile (· != newline) <;> rfl

theorem lines_of_takeLine? {bytes line rest : List UInt8}
    (h : takeLine? bytes = some (line, rest)) : lines bytes = line :: lines rest := by
  induction bytes generalizing line with
  | nil => cases h
  | cons b bytes ih =>
    by_cases hb : b = newline
    · subst hb
      cases h
      simp [lines]
    · rw [takeLine?_cons hb] at h
      rw [lines, if_neg hb]
      split at h
      · next hnone =>
        cases h
        rw [takeLine?_eq_none_iff.1 hnone]
        rfl
      · next hsome =>
        cases h
        rw [ih hsome]

end Colloquy.Text
