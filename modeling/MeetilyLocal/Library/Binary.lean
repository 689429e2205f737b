import Mathlib.Algebra.Order.Round
import Mathlib.Data.Int.Log
import Mathlib.Data.Rat.Floor
import Mathlib.Tactic

/-!
# Rounding to a significand

Binary floating-point arithmetic on the *normal, non-negative* range, as exact rational
arithmetic followed by one rounding: `Binary.round places q` is the multiple of
`2 ^ (⌊log₂ q⌋ - places)` nearest to `q`, ties going to the even multiple. Every operation of a
formula is rounded once, so a formula such as `a * b / c` is `round (round (a * b) / c)`.

Four facts carry the clients: rounding is monotone (`Binary.round_mono`), commutes with doubling
(`Binary.round_two_mul`), keeps the integers that have a significand (`Binary.round_natCast`) and
changes a number by at most half of its last place (`Binary.abs_round_sub_le`).
-/

namespace MeetilyLocal

namespace Binary

/-- Nearest integer, ties to the even one. -/
def roundHalfEven (q : ℚ) : ℤ :=
  if Int.fract q < 1 / 2 then ⌊q⌋
  else if 1 / 2 < Int.fract q then ⌊q⌋ + 1
  else if ⌊q⌋ % 2 = 0 then ⌊q⌋ else ⌊q⌋ + 1

variable (places : ℕ)

/-- The exponent of the last place of a number of `q`'s magnitude. -/
def lastPlace (q : ℚ) : ℤ := Int.log 2 q - places

/-- Round a non-negative rational to a significand with `places` binary places. -/
def round (q : ℚ) : ℚ :=
  if q = 0 then 0 else roundHalfEven (q / 2 ^ lastPlace places q) * 2 ^ lastPlace places q

variable {places}

/-! ## Rounding to an integer -/

theorem floor_le_roundHalfEven (q : ℚ) : ⌊q⌋ ≤ roundHalfEven q := by
  unfold roundHalfEven
  split_ifs <;> omega

theorem roundHalfEven_le_floor_add_one (q : ℚ) : roundHalfEven q ≤ ⌊q⌋ + 1 := by
  unfold roundHalfEven
  split_ifs <;> omega

theorem roundHalfEven_mono {p q : ℚ} (h : p ≤ q) : roundHalfEven p ≤ roundHalfEven q := by
  rcases (Int.floor_mono h).lt_or_eq with hlt | heq
  · calc roundHalfEven p ≤ ⌊p⌋ + 1 := roundHalfEven_le_floor_add_one p
      _ ≤ ⌊q⌋ := hlt
      _ ≤ roundHalfEven q := floor_le_roundHalfEven q
  · -- one integer part: the fractional parts are ordered, hence so are the branches
    have hfract : Int.fract p ≤ Int.fract q := by
      have := congrArg (Int.cast : ℤ → ℚ) heq
      rw [Int.fract, Int.fract, this]
      linarith
    unfold roundHalfEven
    rw [heq]
    split_ifs <;> first | omega | (exfalso; linarith)

theorem abs_roundHalfEven_sub_le (q : ℚ) : |roundHalfEven q - q| ≤ 1 / 2 := by
  have hsplit := Int.floor_add_fract q
  have hnonneg := Int.fract_nonneg q
  have hlt := Int.fract_lt_one q
  unfold roundHalfEven
  rw [abs_le]
  split_ifs <;> push_cast <;> constructor <;> linarith

theorem roundHalfEven_natCast (n : ℕ) : roundHalfEven n = n := by
  rw [roundHalfEven, Int.fract_natCast, if_pos (by norm_num), Int.floor_natCast]

/-! ## Rounding to a significand -/

theorem round_of_pos {q : ℚ} (h : 0 < q) :
    round places q = roundHalfEven (q / 2 ^ lastPlace places q) * 2 ^ lastPlace places q := by
  rw [round, if_neg h.ne']

/-- The last place, by the binade that a number is in. -/
theorem lastPlace_eq {q : ℚ} {place : ℤ} (h : 2 ^ (place + places) ≤ q)
    (hlt : q < 2 ^ (place + (places + 1 : ℕ))) : lastPlace places q = place := by
  have hpos : 0 < q := lt_of_lt_of_le (by positivity) h
  have hlow : place + places ≤ Int.log 2 q :=
    (Int.zpow_le_iff_le_log (by norm_num) hpos).mp (by exact_mod_cast h)
  have hhigh : Int.log 2 q < place + (places + 1 : ℕ) :=
    (Int.lt_zpow_iff_log_lt (by norm_num) hpos).mp (by exact_mod_cast hlt)
  rw [lastPlace]
  omega

@[simp] theorem round_zero : round places 0 = 0 := rfl

theorem two_pow_le_scaled {q : ℚ} (h : 0 < q) :
    (2 : ℚ) ^ places ≤ q / 2 ^ lastPlace places q := by
  have hlog : (2 : ℚ) ^ Int.log 2 q ≤ q := by exact_mod_cast Int.zpow_log_le_self (by norm_num) h
  rw [le_div_iff₀ (by positivity), ← zpow_natCast, ← zpow_add₀ (by norm_num)]
  simpa [lastPlace] using hlog

theorem scaled_lt_two_pow {q : ℚ} : q / 2 ^ lastPlace places q < (2 : ℚ) ^ (places + 1) := by
  have hlog : q < (2 : ℚ) ^ (Int.log 2 q + 1) := by
    exact_mod_cast Int.lt_zpow_succ_log_self (by norm_num) q
  rw [div_lt_iff₀ (by positivity), ← zpow_natCast, ← zpow_add₀ (by norm_num)]
  have hexp : ((places + 1 : ℕ) : ℤ) + lastPlace places q = Int.log 2 q + 1 := by
    simp only [lastPlace]
    push_cast
    ring
  rw [hexp]
  exact hlog

/-- A positive number rounds to no less than the least number of its binade. -/
theorem binade_le_round {q : ℚ} (h : 0 < q) :
    (2 : ℚ) ^ (lastPlace places q + places) ≤ round places q := by
  have hfloor : (2 ^ places : ℤ) ≤ roundHalfEven (q / 2 ^ lastPlace places q) := by
    refine le_trans (Int.le_floor.mpr ?_) (floor_le_roundHalfEven _)
    exact_mod_cast two_pow_le_scaled h
  rw [round_of_pos h, zpow_add₀ (by norm_num), mul_comm, zpow_natCast]
  refine mul_le_mul_of_nonneg_right ?_ (by positivity)
  exact_mod_cast hfloor

/-- A positive number rounds to no more than the least number of the next binade. -/
theorem round_le_binade {q : ℚ} (h : 0 < q) :
    round places q ≤ (2 : ℚ) ^ (lastPlace places q + (places + 1 : ℕ)) := by
  have hceil : roundHalfEven (q / 2 ^ lastPlace places q) ≤ (2 ^ (places + 1) : ℤ) := by
    refine le_trans (roundHalfEven_le_floor_add_one _) ?_
    exact Int.add_one_le_iff.mpr (Int.floor_lt.mpr (by exact_mod_cast scaled_lt_two_pow))
  rw [round_of_pos h, zpow_add₀ (by norm_num), mul_comm (2 ^ lastPlace places q), zpow_natCast]
  refine mul_le_mul_of_nonneg_right ?_ (by positivity)
  exact_mod_cast hceil

theorem round_nonneg {q : ℚ} (h : 0 ≤ q) : 0 ≤ round places q := by
  rcases h.eq_or_lt with rfl | h
  · exact le_refl 0
  · exact le_trans (by positivity) (binade_le_round h)

/-- **What rounding changes**: at most half of the last place of a binade that the number is below. -/
theorem abs_round_sub_le {q : ℚ} (h : 0 ≤ q) {place : ℤ} (hq : q < 2 ^ (place + (places + 1 : ℕ))) :
    |round places q - q| ≤ 2 ^ place / 2 := by
  rcases h.eq_or_lt with rfl | h
  · rw [round_zero, sub_zero, abs_zero]
    positivity
  have hlog : Int.log 2 q < place + (places + 1 : ℕ) :=
    (Int.lt_zpow_iff_log_lt (by norm_num) h).mp (by exact_mod_cast hq)
  have hplace : (2 : ℚ) ^ lastPlace places q ≤ 2 ^ place := by
    refine zpow_le_zpow_right₀ (by norm_num) ?_
    rw [lastPlace]
    omega
  have hpos : (0 : ℚ) < 2 ^ lastPlace places q := by positivity
  have hscaled : round places q - q =
      (roundHalfEven (q / 2 ^ lastPlace places q) - q / 2 ^ lastPlace places q) *
        2 ^ lastPlace places q := by
    rw [round_of_pos h, sub_mul, div_mul_cancel₀ _ hpos.ne']
  rw [hscaled, abs_mul, abs_of_pos hpos]
  have hhalf := mul_le_mul_of_nonneg_right
    (abs_roundHalfEven_sub_le (q / 2 ^ lastPlace places q)) hpos.le
  linarith

/-- Rounding is monotone. -/
theorem round_mono {p q : ℚ} (hp : 0 ≤ p) (h : p ≤ q) : round places p ≤ round places q := by
  rcases hp.eq_or_lt with rfl | hp
  · exact round_nonneg h
  have hq : 0 < q := lt_of_lt_of_le hp h
  have hlog : lastPlace places p ≤ lastPlace places q :=
    sub_le_sub_right (Int.log_mono_right hp h) _
  rcases hlog.lt_or_eq with hlt | heq
  · -- different binades: the boundary between them separates the results
    calc round places p ≤ 2 ^ (lastPlace places p + (places + 1 : ℕ)) := round_le_binade hp
      _ ≤ 2 ^ (lastPlace places q + places) := zpow_le_zpow_right₀ (by norm_num) (by omega)
      _ ≤ round places q := binade_le_round hq
  · rw [round_of_pos hp, round_of_pos hq, heq]
    refine mul_le_mul_of_nonneg_right ?_ (by positivity)
    exact_mod_cast roundHalfEven_mono (div_le_div_of_nonneg_right h (by positivity))

theorem lastPlace_two_mul {q : ℚ} (h : 0 < q) :
    lastPlace places (2 * q) = lastPlace places q + 1 := by
  have hlo : (2 : ℚ) ^ Int.log 2 q ≤ q := by exact_mod_cast Int.zpow_log_le_self (by norm_num) h
  have hhi : q < (2 : ℚ) ^ (Int.log 2 q + 1) := by
    exact_mod_cast Int.lt_zpow_succ_log_self (by norm_num) q
  have hlog : Int.log 2 (2 * q) = Int.log 2 q + 1 := by
    apply le_antisymm
    · refine Int.lt_add_one_iff.mp ((Int.lt_zpow_iff_log_lt (by norm_num) (by positivity)).mp ?_)
      push_cast
      rw [zpow_add₀ (by norm_num), zpow_one]
      linarith
    · refine (Int.zpow_le_iff_le_log (by norm_num) (by positivity)).mp ?_
      push_cast
      rw [zpow_add₀ (by norm_num), zpow_one]
      linarith
  rw [lastPlace, lastPlace, hlog]
  ring

/-- Rounding commutes with doubling: only the exponent moves. -/
theorem round_two_mul {q : ℚ} (h : 0 ≤ q) : round places (2 * q) = 2 * round places q := by
  rcases h.eq_or_lt with rfl | h
  · simp
  have hscaled : 2 * q / 2 ^ lastPlace places (2 * q) = q / 2 ^ lastPlace places q := by
    rw [lastPlace_two_mul h, zpow_add₀ (by norm_num), zpow_one]
    field_simp
  rw [round_of_pos (by positivity : (0 : ℚ) < 2 * q), round_of_pos h, hscaled,
    lastPlace_two_mul h, zpow_add₀ (by norm_num), zpow_one]
  ring

/-- An integer that fits into the significand is kept. -/
theorem round_natCast {n : ℕ} (h : n < 2 ^ (places + 1)) : round places n = n := by
  rcases Nat.eq_zero_or_pos n with rfl | hpos
  · simp
  have hlog : Nat.log 2 n ≤ places := Nat.lt_succ_iff.mp (Nat.log_lt_of_lt_pow hpos.ne' h)
  -- its last place is before the binary point
  have hplace : lastPlace places (n : ℚ) = -((places - Nat.log 2 n : ℕ) : ℤ) := by
    rw [lastPlace, Int.log_natCast]
    omega
  have hscaled : (n : ℚ) / 2 ^ lastPlace places n = (n * 2 ^ (places - Nat.log 2 n) : ℕ) := by
    rw [hplace, zpow_neg, zpow_natCast, div_inv_eq_mul]
    push_cast
    ring
  have hpow : (2 : ℚ) ^ (places - Nat.log 2 n) ≠ 0 := by positivity
  rw [round_of_pos (by exact_mod_cast hpos), hscaled, roundHalfEven_natCast, hplace, zpow_neg,
    zpow_natCast]
  push_cast
  field_simp

end Binary

namespace Binary64

/-- Round a non-negative rational to an `f64`. -/
def round (q : ℚ) : ℚ := Binary.round 52 q

/-- `as usize`, of a number that is not negative: what is too large becomes `usize::MAX` -/
def asUsize (n : ℤ) : ℕ := min n.toNat (2 ^ 64 - 1)

theorem round_nonneg {q : ℚ} (h : 0 ≤ q) : 0 ≤ round q := Binary.round_nonneg h

theorem round_mono {p q : ℚ} (hp : 0 ≤ p) (h : p ≤ q) : round p ≤ round q :=
  Binary.round_mono hp h

theorem abs_round_sub_le {q : ℚ} (h : 0 ≤ q) {m : ℕ} (hq : q < 2 ^ m) :
    |round q - q| ≤ 2 ^ m / 2 ^ 54 := by
  have hplace : (2 : ℚ) ^ m / 2 ^ 54 = 2 ^ ((m : ℤ) - 53) / 2 := by
    rw [zpow_sub₀ (by norm_num), zpow_natCast]
    norm_num
    ring
  rw [hplace]
  refine Binary.abs_round_sub_le h ?_
  have hexp : (m : ℤ) - 53 + (52 + 1 : ℕ) = m := by
    push_cast
    ring
  rwa [hexp, zpow_natCast]

theorem round_natCast {n : ℕ} (h : n < 2 ^ 53) : round n = n := Binary.round_natCast h

theorem asUsize_mono {m n : ℤ} (h : m ≤ n) : asUsize m ≤ asUsize n :=
  min_le_min (Int.toNat_le_toNat h) le_rfl

end Binary64

end MeetilyLocal
