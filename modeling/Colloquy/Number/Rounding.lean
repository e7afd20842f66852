/-!
# Rounding a quotient

A quotient of natural numbers is rounded to the nearest whole number; one that lies halfway between
two goes to the even one.

* `roundHalfEven_le`, `le_roundHalfEven`: the result is at most half a unit away.
-/

namespace Colloquy.Number

/-- `num / den` rounded to the nearest whole number, halves to the even neighbour. -/
def roundHalfEven (num den : Nat) : Nat :=
  let below := num / den
  let twice := 2 * (num % den)
  if twice < den then below
  else if twice = den then below + below % 2
  else below + 1

theorem roundHalfEven_le {num den : Nat} :
    2 * den * roundHalfEven num den ≤ 2 * num + den := by
  have h := Nat.div_add_mod num den
  have hle : 2 * den * (num / den) = 2 * (den * (num / den)) := Nat.mul_assoc _ _ _
  have hone : 2 * den * (num / den + 1) = 2 * (den * (num / den)) + 2 * den := by
    rw [Nat.mul_add, hle, Nat.mul_one]
  unfold roundHalfEven
  dsimp only
  split
  · omega
  · split
    · rcases Nat.mod_two_eq_zero_or_one (num / den) with h2 | h2 <;> rw [h2]
      · rw [Nat.add_zero]; omega
      · omega
    · omega

theorem le_roundHalfEven {num den : Nat} (hden : 0 < den) :
    2 * num ≤ 2 * den * roundHalfEven num den + den := by
  have h := Nat.div_add_mod num den
  have hlt := Nat.mod_lt num hden
  have hle : 2 * den * (num / den) = 2 * (den * (num / den)) := Nat.mul_assoc _ _ _
  have hone : 2 * den * (num / den + 1) = 2 * (den * (num / den)) + 2 * den := by
    rw [Nat.mul_add, hle, Nat.mul_one]
  unfold roundHalfEven
  dsimp only
  split
  · omega
  · split
    · rcases Nat.mod_two_eq_zero_or_one (num / den) with h2 | h2 <;> rw [h2]
      · rw [Nat.add_zero]; omega
      · omega
    · omega

end Colloquy.Number
