import MeetilyLocal.Library.Binary

/-!
# Rounding to a 24-bit significand

Single-precision arithmetic on the *normal, non-negative* range, as exact rational
arithmetic followed by one rounding: `Binary32.round q` is the multiple of
`2 ^ (⌊log₂ q⌋ - 23)` nearest to `q`, ties going to the even multiple. Every operation of a
formula is rounded once, so a formula such as `a * b / c` is `round (round (a * b) / c)`.

Two facts carry the clients: rounding is monotone (`Binary32.round_mono`) and commutes with
doubling (`Binary32.round_two_mul`). Together they compare the results of two formulas that
differ by a constant factor without computing either.
-/

namespace MeetilyLocal

namespace Binary32

/-- Nearest integer, ties to the even one. -/
def roundHalfEven (q : ℚ) : ℤ :=
  if Int.fract q < 1 / 2 then ⌊q⌋
  else if 1 / 2 < Int.fract q then ⌊q⌋ + 1
  else if ⌊q⌋ % 2 = 0 then ⌊q⌋ else ⌊q⌋ + 1

/-- The exponent of the last place of a number of `q`'s magnitude. -/
def lastPlace (q : ℚ) : ℤ := Int.log 2 q - 23

/-- Round a non-negative rational to a 24-bit significand. -/
def round (q : ℚ) : ℚ :=
  if q = 0 then 0 else roundHalfEven (q / 2 ^ lastPlace q) * 2 ^ lastPlace q

theorem round_eq (q : ℚ) : round q = Binary.round 23 q := rfl

theorem round_nonneg {q : ℚ} (h : 0 ≤ q) : 0 ≤ round q := by
  rw [round_eq]
  exact Binary.round_nonneg h

/-- Rounding is monotone. -/
theorem round_mono {p q : ℚ} (hp : 0 ≤ p) (h : p ≤ q) : round p ≤ round q := by
  rw [round_eq, round_eq]
  exact Binary.round_mono hp h

/-- Rounding commutes with doubling: only the exponent moves. -/
theorem round_two_mul {q : ℚ} (h : 0 ≤ q) : round (2 * q) = 2 * round q := by
  rw [round_eq, round_eq]
  exact Binary.round_two_mul h

end Binary32

end MeetilyLocal
