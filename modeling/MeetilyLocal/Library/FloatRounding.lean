import Mathlib
import MeetilyLocal.Library.Binary
import MeetilyLocal.Library.FloatOrder

/-!
# Rounding in the model of `Float`

The operations of `f64`, on the model of `Float` in the standard library, compute in exact
arithmetic and round once: where no number leaves the range of the normal numbers, the value of
`x * y`, of `x / y` and of `x - y` is the `Binary64.round` of what the values give
(`Float64.HasValue.mul`, `Float64.HasValue.div`, `Float64.HasValue.sub`), and so is that of `n as
f64` (`Float64.hasValue_ofNat`). Numbers are ordered as their values are (`Float64.HasValue.le`).

The model keeps a mantissa with a round bit and a sticky bit. What the three stand for is a number
of which only the mantissa, and on which side of a half the rest is, are known (`Float64.Stands`);
shifting it to the right by a place halves it.
-/

namespace MeetilyLocal

namespace Float64

open Float.Model UnpackedFloat

/-- The fractions that a round bit and a sticky bit stand for. -/
def IsFraction : Bool → Bool → ℚ → Prop
  | false, false, f => f = 0
  | false, true, f => 0 < f ∧ f < 1 / 2
  | true, false, f => f = 1 / 2
  | true, true, f => 1 / 2 < f ∧ f < 1

/-- A mantissa with its residual bits stands for a number of its last places. -/
def Stands (em : ExtendedMantissa) (v : ℚ) : Prop :=
  IsFraction em.roundBit em.stickyBit (v - em.mantissa)

theorem IsFraction.bounds {round sticky : Bool} {f : ℚ} (h : IsFraction round sticky f) :
    0 ≤ f ∧ f < 1 := by
  rcases round with _ | _ <;> rcases sticky with _ | _ <;> simp only [IsFraction] at h <;>
    constructor <;> linarith

theorem Stands.shiftRightOne {em : ExtendedMantissa} {v : ℚ} (h : Stands em v) :
    Stands em.shiftRightOne (v / 2) := by
  obtain ⟨m, round, sticky⟩ := em
  have hsplit : (m : ℚ) = 2 * (m / 2 : ℕ) + (m % 2 : ℕ) := by
    exact_mod_cast (Nat.div_add_mod m 2).symm
  simp only [Stands] at h
  rcases Nat.mod_two_eq_zero_or_one m with hmod | hmod <;> rw [hmod] at hsplit <;>
    simp only [Stands, ExtendedMantissa.shiftRightOne, hmod] <;> push_cast at hsplit ⊢ <;>
    rcases round with _ | _ <;> rcases sticky with _ | _ <;>
    simp [IsFraction] at h ⊢ <;> first | linarith | (constructor <;> linarith)

theorem Stands.shiftRight {em : ExtendedMantissa} {v : ℚ} (h : Stands em v) (n : ℕ) :
    Stands (em >>> n) (v / 2 ^ n) := by
  induction n with
  | zero =>
    rw [pow_zero, div_one]
    exact h
  | succ n ih =>
    rw [pow_succ, ← div_div]
    exact ih.shiftRightOne

theorem Stands.floor {em : ExtendedMantissa} {v : ℚ} (h : Stands em v) : ⌊v⌋ = em.mantissa := by
  obtain ⟨hle, hlt⟩ := IsFraction.bounds h
  rw [Int.floor_eq_iff]
  push_cast
  constructor <;> linarith

/-- A mantissa is rounded as the number that it stands for. -/
theorem Stands.roundedMantissa {em : ExtendedMantissa} {v : ℚ} (h : Stands em v) :
    Binary.roundHalfEven v = em.roundedMantissa := by
  have hfloor := h.floor
  have hfract : Int.fract v = v - em.mantissa := by
    rw [Int.fract, hfloor, Int.cast_natCast]
  rw [Binary.roundHalfEven, hfloor, hfract]
  obtain ⟨m, round, sticky⟩ := em
  simp only [Stands] at h
  rcases round with _ | _ <;> rcases sticky with _ | _ <;> simp only [IsFraction] at h
  · rw [if_pos (by linarith)]
    rfl
  · rw [if_pos h.2]
    rfl
  · rw [if_neg (by linarith), if_neg (by linarith)]
    show _ = ((m + m % 2 : ℕ) : ℤ)
    simp only
    split_ifs <;> omega
  · rw [if_neg (by linarith), if_pos h.1]
    rfl

/-! ## One rounding -/

theorem stands_exact (m : ℕ) : Stands (.ofMantissaAndAccuracy m .exact) m := by
  show (m : ℚ) - m = 0
  exact sub_self _

theorem mantissa_ofMantissaAndAccuracy (m : ℕ) (acc : Accuracy) :
    (ExtendedMantissa.ofMantissaAndAccuracy m acc).mantissa = m := by
  rcases acc with _ | _ | _ | _ <;> rfl

theorem stands_accuracyOfFraction (a : ℕ) {b : ℕ} (hb : 0 < b) :
    Stands (.ofMantissaAndAccuracy (a / b) (accuracyOfFraction (a % b) b)) (a / b) := by
  have hpos : (0 : ℚ) < b := by exact_mod_cast hb
  have hsplit : (a : ℚ) / b - (a / b : ℕ) = (a % b : ℕ) / b := by
    have heq : (a : ℚ) = b * (a / b : ℕ) + (a % b : ℕ) := by
      exact_mod_cast (Nat.div_add_mod a b).symm
    rw [eq_div_iff hpos.ne', sub_mul, div_mul_cancel₀ _ hpos.ne']
    linarith
  have hlt : ((a % b : ℕ) : ℚ) < b := by exact_mod_cast Nat.mod_lt a hb
  rw [Stands, mantissa_ofMantissaAndAccuracy, hsplit]
  generalize a % b = r at hlt
  rw [accuracyOfFraction]
  split
  · next hzero => simp [hzero, ExtendedMantissa.ofMantissaAndAccuracy, IsFraction]
  · next hne =>
    have hr : (0 : ℚ) < r := by exact_mod_cast Nat.pos_of_ne_zero hne
    rcases horder : compare (2 * r) b with _ | _ | _
    · have hhalf : (2 : ℚ) * r < b := by exact_mod_cast Nat.compare_eq_lt.mp horder
      refine ⟨by positivity, ?_⟩
      rw [div_lt_div_iff₀ hpos (by norm_num)]
      linarith
    · have hhalf : (2 : ℚ) * r = b := by exact_mod_cast Nat.compare_eq_eq.mp horder
      show (r : ℚ) / b = 1 / 2
      rw [div_eq_div_iff hpos.ne' (by norm_num)]
      linarith
    · have hhalf : (b : ℚ) < 2 * r := by exact_mod_cast Nat.compare_eq_gt.mp horder
      refine ⟨?_, (div_lt_one hpos).mpr hlt⟩
      rw [div_lt_div_iff₀ (by norm_num) hpos]
      linarith

theorem targetExponent_eq {m : ℕ} {e : ℤ} {v : ℚ} (hm : 0 < m) (hle : (m : ℚ) ≤ v)
    (hlt : v < m + 1) (hmin : -1074 ≤ Binary.lastPlace 52 (v * 2 ^ e)) :
    Format.binary64.targetExponent (totalExponent m e) = Binary.lastPlace 52 (v * 2 ^ e) := by
  have hlast : Binary.lastPlace 52 (v * 2 ^ e) = m.log2 + e - 52 := by
    have hlow : (2 : ℚ) ^ m.log2 ≤ m := by exact_mod_cast Nat.log2_self_le hm.ne'
    have hhigh : (m : ℚ) + 1 ≤ 2 ^ (m.log2 + 1) := by exact_mod_cast Nat.lt_log2_self
    refine Binary.lastPlace_eq ?_ ?_
    · have hexp : (m.log2 : ℤ) + e - 52 + (52 : ℕ) = m.log2 + e := by
        push_cast
        ring
      rw [hexp, zpow_add₀ (by norm_num), zpow_natCast]
      exact mul_le_mul_of_nonneg_right (hlow.trans hle) (by positivity)
    · have hexp : (m.log2 : ℤ) + e - 52 + (52 + 1 : ℕ) = (m.log2 + 1 : ℕ) + e := by
        push_cast
        ring
      rw [hexp, zpow_add₀ (by norm_num), zpow_natCast]
      exact mul_lt_mul_of_pos_right (hlt.trans_le hhigh) (by positivity)
  rw [hlast] at hmin ⊢
  simp only [Format.targetExponent, totalExponent, Format.mantissaBits, Format.minExponent]
  norm_num
  omega

/-- Where an exact number is shifted to. -/
theorem shiftToTargetExponent_exact {m : ℕ} {e : ℤ} {n : ℕ}
    (h : Format.binary64.targetExponent (totalExponent m e) = e + n) :
    shiftToTargetExponent .binary64 m e .exact =
      ((⟨m, false, false⟩ : ExtendedMantissa) >>> n, e + n) := by
  have hshift : (e + n - e).toNat = n := by omega
  rw [shiftToTargetExponent]
  simp only [h, shiftToExponent, hshift, ExtendedMantissa.ofMantissaAndAccuracy]

/-- A mantissa of so many bits more than it may have is shifted by so many. -/
theorem targetExponent_of_log2 {m n : ℕ} {e : ℤ} (hlog : m.log2 = 52 + n) (hmin : -1074 ≤ e) :
    Format.binary64.targetExponent (totalExponent m e) = e + n := by
  simp only [Format.targetExponent, totalExponent, hlog, Format.mantissaBits, Format.minExponent]
  norm_num
  omega

/-- The mantissa that a positive number rounds to: the upper bound is that of the next binade. -/
theorem mantissa_bounds {q : ℚ} (hq : 0 < q) {r : ℕ}
    (h : Binary64.round q = r * 2 ^ Binary.lastPlace 52 q) : 2 ^ 52 ≤ r ∧ r ≤ 2 ^ 53 := by
  have hpos : (0 : ℚ) < 2 ^ Binary.lastPlace 52 q := by positivity
  have hlow := @Binary.binade_le_round 52 _ hq
  have hhigh := @Binary.round_le_binade 52 _ hq
  rw [← Binary64.round, h, add_comm, zpow_add₀ (by norm_num), mul_le_mul_iff_left₀ hpos,
    zpow_natCast] at hlow hhigh
  exact ⟨by exact_mod_cast hlow, by exact_mod_cast hhigh⟩

/-- **One rounding**: the number that is left is the one that was meant, rounded. -/
theorem roundWithAccuracy_spec {s : Sign} {m : ℕ} {e : ℤ} {acc : Accuracy} {v : ℚ}
    (h : Stands (.ofMantissaAndAccuracy m acc) v) (hm : 0 < m)
    (hbits : e ≤ Binary.lastPlace 52 (v * 2 ^ e))
    (hmin : -1074 ≤ Binary.lastPlace 52 (v * 2 ^ e)) :
    ∃ M E hM, roundWithAccuracy .binary64 s m e acc = .finite s M E hM ∧ 2 ^ 52 ≤ M ∧ M < 2 ^ 53 ∧
      E ≤ Binary.lastPlace 52 (v * 2 ^ e) + 1 ∧ Binary.lastPlace 52 (v * 2 ^ e) ≤ E ∧
      (M : ℚ) * 2 ^ E = Binary64.round (v * 2 ^ e) := by
  obtain ⟨hfrac, hlt⟩ := IsFraction.bounds h
  rw [mantissa_ofMantissaAndAccuracy] at hfrac hlt
  have htarget := targetExponent_eq hm (by linarith) (by linarith) hmin
  have hq : 0 < v * 2 ^ e := by
    have hpos : (0 : ℚ) < m := by exact_mod_cast hm
    have hv : 0 < v := by linarith
    positivity
  obtain ⟨n, hn⟩ : ∃ n : ℕ, Binary.lastPlace 52 (v * 2 ^ e) = e + n :=
    ⟨(Binary.lastPlace 52 (v * 2 ^ e) - e).toNat, by omega⟩
  obtain ⟨r, hr⟩ : ∃ r, (ExtendedMantissa.ofMantissaAndAccuracy m acc >>> n).roundedMantissa = r :=
    ⟨_, rfl⟩
  have hrounded := (h.shiftRight n).roundedMantissa
  rw [hr] at hrounded
  have hround : Binary64.round (v * 2 ^ e) = r * 2 ^ Binary.lastPlace 52 (v * 2 ^ e) := by
    have hscaled : v * 2 ^ e / 2 ^ Binary.lastPlace 52 (v * 2 ^ e) = v / 2 ^ n := by
      rw [hn, zpow_add₀ (by norm_num), zpow_natCast]
      field_simp
    rw [Binary64.round, Binary.round_of_pos hq, hscaled, hrounded, Int.cast_natCast]
  obtain ⟨hlow, hhigh⟩ := mantissa_bounds hq hround
  generalize Binary.lastPlace 52 (v * 2 ^ e) = place at *
  have hfirst : shiftToTargetExponent .binary64 m e acc =
      (ExtendedMantissa.ofMantissaAndAccuracy m acc >>> n, place) := by
    have hshift : (place - e).toNat = n := by omega
    rw [shiftToTargetExponent]
    simp only [htarget, shiftToExponent, hshift]
    rw [hn]
  rw [roundWithAccuracy, hfirst]
  simp only [hr]
  rcases hhigh.lt_or_eq with hlt | rfl
  · have hlog : r.log2 = 52 + 0 := (Nat.log2_eq_iff (by omega)).mpr ⟨hlow, hlt⟩
    have hsecond : shiftToTargetExponent .binary64 r place .exact = (⟨r, false, false⟩, place) := by
      rw [shiftToTargetExponent_exact (targetExponent_of_log2 hlog hmin), Nat.cast_zero, add_zero]
      rfl
    simp only [hsecond]
    rw [dif_neg (by omega)]
    exact ⟨r, place, by omega, rfl, hlow, hlt, by omega, le_rfl, hround.symm⟩
  · -- the mantissa has got one more place
    have hsecond : shiftToTargetExponent .binary64 (2 ^ 53) place .exact =
        (⟨2 ^ 52, false, false⟩, place + 1) := by
      have hlog : (2 ^ 53).log2 = 52 + 1 := Nat.log2_two_pow
      rw [shiftToTargetExponent_exact (targetExponent_of_log2 hlog hmin)]
      rfl
    simp only [hsecond]
    refine ⟨2 ^ 52, place + 1, by norm_num, rfl, le_rfl, by norm_num, le_rfl, by omega, ?_⟩
    rw [hround, zpow_add₀ (by norm_num)]
    push_cast
    ring

/-! ## Packing -/

/-- A normal number is packed and unpacked again. -/
theorem unpack_pack {s : Sign} {m : ℕ} {e : ℤ} (hm : 0 < m) (hlow : 2 ^ 52 ≤ m)
    (hhigh : m < 2 ^ 53) (hmin : -1074 ≤ e) (hmax : e ≤ 971) :
    (Float.Model.pack (.finite s m e hm)).unpack = .finite s m e hm := by
  have hlog : m.log2 = 52 := (Nat.log2_eq_iff (by omega)).mpr ⟨hlow, hhigh⟩
  obtain ⟨b, hb⟩ : ∃ b : ℕ, (e + 1075).toNat = b := ⟨_, rfl⟩
  have hpack : UnpackedFloat.pack .binary64 (.finite s m e hm) =
      packComponents .binary64 s (BitVec.ofNat 11 b) (BitVec.ofNat 52 m) := by
    have hbias : (e + Format.binary64.exponentBias +
        Format.binary64.mantissaBitsWithoutImplicit).toNat = b := by
      rw [← hb]
      norm_num [Format.exponentBias]
      omega
    simp only [UnpackedFloat.pack, hbias, hlog]
    rw [if_neg (by simp; omega)]
    rfl
  show UnpackedFloat.unpack _ (UnpackedFloat.pack .binary64 (.finite s m e hm)) = _
  rw [hpack, UnpackedFloat.unpack]
  simp only [unpackMantissa_packComponents, unpackExponent_packComponents,
    unpackSign_packComponents, Sign.ofBitVec_toBitVec]
  rw [if_neg, if_neg]
  · have hexp : ((BitVec.ofNat 11 b).toNat : ℤ) - (Format.binary64.exponentBias + 52 : ℕ) = e := by
      rw [BitVec.toNat_ofNat, Nat.mod_eq_of_lt (by omega)]
      norm_num [Format.exponentBias]
      omega
    have hmant : (1#1 ++ BitVec.ofNat 52 m).toNat = m := by
      have hshift : 1 <<< 52 ||| m % 2 ^ 52 = 2 ^ 52 + m % 2 ^ 52 := by
        rw [← Nat.shiftLeft_add_eq_or_of_lt (Nat.mod_lt m (by norm_num))]
        rfl
      rw [BitVec.toNat_append, BitVec.toNat_ofNat]
      show 1 <<< 52 ||| m % 2 ^ 52 = m
      omega
    simp only [finite.injEq]
    exact ⟨trivial, hmant, hexp⟩
  · intro h
    have := congrArg BitVec.toNat h
    simp at this
    omega
  · intro h
    have := congrArg BitVec.toNat h
    simp at this
    omega

theorem unpack_pack_zero : (Float.Model.pack (.zero .positive)).unpack = .zero .positive := by
  show UnpackedFloat.unpack _ (packedZero _ _) = _
  rw [unpack_packedZero]

/-! ## Values -/

/-- A number is zero or a positive normal number, and this is its value. -/
inductive HasValue (x : Float) : ℚ → Prop
  | zero : x.toModel.unpack = .zero .positive → HasValue x 0
  | normal {m : ℕ} {e : ℤ} {hm : 0 < m} : x.toModel.unpack = .finite .positive m e hm →
      2 ^ 52 ≤ m → m < 2 ^ 53 → HasValue x (m * 2 ^ e)

/-- The range of the normal numbers, less its last binade. -/
def Normal (q : ℚ) : Prop := 2 ^ (-1022 : ℤ) ≤ q ∧ q < 2 ^ (1023 : ℤ)

theorem Normal.pos {q : ℚ} (h : Normal q) : 0 < q := lt_of_lt_of_le (by positivity) h.1

theorem Normal.lastPlace {q : ℚ} (h : Normal q) :
    -1074 ≤ Binary.lastPlace 52 q ∧ Binary.lastPlace 52 q ≤ 970 := by
  have hlow : -1022 ≤ Int.log 2 q :=
    (Int.zpow_le_iff_le_log (by norm_num) h.pos).mp (by exact_mod_cast h.1)
  have hhigh : Int.log 2 q < 1023 :=
    (Int.lt_zpow_iff_log_lt (by norm_num) h.pos).mp (by exact_mod_cast h.2)
  rw [Binary.lastPlace]
  omega

theorem le_lastPlace {v : ℚ} (h : 2 ^ 52 ≤ v) (e : ℤ) : e ≤ Binary.lastPlace 52 (v * 2 ^ e) := by
  have hpos : (0 : ℚ) < v := lt_of_lt_of_le (by positivity) h
  have hlog : 52 + e ≤ Int.log 2 (v * 2 ^ e) := by
    refine (Int.zpow_le_iff_le_log (by norm_num) (by positivity)).mp ?_
    push_cast
    rw [zpow_add₀ (by norm_num)]
    exact mul_le_mul_of_nonneg_right (by exact_mod_cast h) (by positivity)
  rw [Binary.lastPlace]
  omega

/-- What is packed after a rounding has the rounded value. -/
theorem hasValue_roundWithAccuracy {m : ℕ} {e : ℤ} {acc : Accuracy} {v : ℚ}
    (h : Stands (.ofMantissaAndAccuracy m acc) v) (hm : 0 < m)
    (hbits : e ≤ Binary.lastPlace 52 (v * 2 ^ e)) (hq : Normal (v * 2 ^ e)) :
    HasValue (.ofModel (.pack (roundWithAccuracy .binary64 .positive m e acc)))
      (Binary64.round (v * 2 ^ e)) := by
  obtain ⟨hmin, hmax⟩ := hq.lastPlace
  obtain ⟨M, E, hM, hround, hlow, hhigh, hE, hE', hvalue⟩ :=
    roundWithAccuracy_spec (s := .positive) h hm hbits hmin
  rw [hround, ← hvalue]
  exact .normal (unpack_pack hM hlow hhigh (by omega) (by omega)) hlow hhigh

theorem hasValue_round {m : ℕ} (hm : 0 < m) {e : ℤ} (hq : Normal (m * 2 ^ e)) :
    HasValue (.ofModel (.pack (UnpackedFloat.round .binary64 .positive m e)))
      (Binary64.round (m * 2 ^ e)) := by
  have htarget := targetExponent_eq hm le_rfl (by linarith) hq.lastPlace.1
  rw [UnpackedFloat.round]
  simp only [htarget, decreaseExponent]
  obtain ⟨n, hn⟩ : ∃ n, (e - Binary.lastPlace 52 ((m : ℚ) * 2 ^ e)).toNat = n := ⟨_, rfl⟩
  have hsame : ((m <<< n : ℕ) : ℚ) * 2 ^ (e - n) = m * 2 ^ e := by
    rw [Nat.shiftLeft_eq, zpow_sub₀ (by norm_num), zpow_natCast]
    push_cast
    field_simp
  rw [hn, ← hsame]
  rw [← hsame] at hn hq
  refine hasValue_roundWithAccuracy (stands_exact _) ?_ (by omega) hq
  rw [Nat.shiftLeft_eq]
  positivity

/-! ## The operations -/

variable {x y : Float} {p q : ℚ}

theorem HasValue.nonneg (h : HasValue x q) : 0 ≤ q := by
  cases h with
  | zero => exact le_rfl
  | normal => positivity

/-- `x * y` -/
theorem HasValue.mul (hx : HasValue x p) (hy : HasValue y q)
    (h : p = 0 ∨ q = 0 ∨ Normal (p * q)) : HasValue (x * y) (Binary64.round (p * q)) := by
  have hmul : x * y =
      .ofModel (.pack (UnpackedFloat.mul .binary64 x.toModel.unpack y.toModel.unpack)) := rfl
  cases hx with
  | zero hx =>
    rw [zero_mul, hmul, hx]
    cases hy with
    | zero hy =>
      rw [hy]
      exact .zero unpack_pack_zero
    | normal hy =>
      rw [hy]
      exact .zero unpack_pack_zero
  | @normal m₁ e₁ hm₁ hx hlow₁ hhigh₁ =>
    cases hy with
    | zero hy =>
      rw [mul_zero, hmul, hx, hy]
      exact .zero unpack_pack_zero
    | @normal m₂ e₂ hm₂ hy hlow₂ hhigh₂ =>
      have hnormal := (h.resolve_left (by positivity)).resolve_left (by positivity)
      have hvalue : (m₁ : ℚ) * 2 ^ e₁ * (m₂ * 2 ^ e₂) = (m₁ * m₂ : ℕ) * 2 ^ (e₁ + e₂) := by
        rw [zpow_add₀ (by norm_num)]
        push_cast
        ring
      rw [hvalue] at hnormal ⊢
      rw [hmul, hx, hy]
      refine hasValue_roundWithAccuracy (stands_exact _) (Nat.mul_pos hm₁ hm₂) ?_ hnormal
      refine le_lastPlace ?_ _
      exact_mod_cast hlow₁.trans (Nat.le_mul_of_pos_right _ hm₂)

/-- A quotient has got its last place by the exponents. -/
theorem quotient_le_lastPlace {m₁ m₂ : ℕ} {e₁ e₂ : ℤ} (hlow : 2 ^ 52 ≤ m₁) (hm₂ : 0 < m₂)
    (hhigh : m₂ < 2 ^ 53) :
    e₁ - e₂ - 53 ≤ Binary.lastPlace 52 ((m₁ : ℚ) * 2 ^ e₁ / (m₂ * 2 ^ e₂)) := by
  have hm₁ : (0 : ℚ) < m₁ := by exact_mod_cast (by omega : 0 < m₁)
  have hlog : e₁ - e₂ - 1 ≤ Int.log 2 ((m₁ : ℚ) * 2 ^ e₁ / (m₂ * 2 ^ e₂)) := by
    refine (Int.zpow_le_iff_le_log (by norm_num) (by positivity)).mp ?_
    push_cast
    rw [le_div_iff₀ (by positivity)]
    calc (2 : ℚ) ^ (e₁ - e₂ - 1) * (m₂ * 2 ^ e₂) = m₂ * 2 ^ (e₁ - 1) := by
          have hexp : e₁ - 1 = e₁ - e₂ - 1 + e₂ := by ring
          rw [hexp, zpow_add₀ (by norm_num)]
          ring
      _ ≤ 2 ^ 53 * 2 ^ (e₁ - 1) := by
          refine mul_le_mul_of_nonneg_right ?_ (by positivity)
          exact_mod_cast hhigh.le
      _ = 2 ^ 52 * 2 ^ e₁ := by
          rw [zpow_sub₀ (by norm_num)]
          norm_num
          ring
      _ ≤ m₁ * 2 ^ e₁ := by
          refine mul_le_mul_of_nonneg_right ?_ (by positivity)
          exact_mod_cast hlow
  rw [Binary.lastPlace]
  omega

/-- The quotient of the mantissas, of which the first has been shifted. -/
theorem exists_divCore (m₁ m₂ : ℕ) (e₁ e₂ : ℤ) : ∃ (n : ℕ) (e : ℤ),
    divCore .binary64 m₁ e₁ m₂ e₂ =
      ((m₁ <<< n) / m₂, e, accuracyOfFraction ((m₁ <<< n) % m₂) m₂) ∧ e₁ = e + n + e₂ ∧
    min (e₁ - e₂) (Format.binary64.targetExponent (totalExponent m₁ e₁ - totalExponent m₂ e₂)) =
      e := by
  obtain ⟨e, he⟩ : ∃ e, min (e₁ - e₂) (Format.binary64.targetExponent
    (totalExponent m₁ e₁ - totalExponent m₂ e₂)) = e := ⟨_, rfl⟩
  obtain ⟨n, hn⟩ : ∃ n, (e₁ - e₂ - e).toNat = n := ⟨_, rfl⟩
  refine ⟨n, e, ?_, by omega, he⟩
  rw [divCore]
  simp only [he, hn]

/-- A number with all the places of a mantissa is not below one. -/
theorem one_le_of_le_lastPlace {v : ℚ} {e : ℤ} (hpos : 0 < v * 2 ^ e)
    (h : e ≤ Binary.lastPlace 52 (v * 2 ^ e)) : 1 ≤ v := by
  have hscaled := @Binary.two_pow_le_scaled 52 _ hpos
  rw [le_div_iff₀ (by positivity)] at hscaled
  have hle : (2 : ℚ) ^ e ≤ 2 ^ Binary.lastPlace 52 (v * 2 ^ e) :=
    zpow_le_zpow_right₀ (by norm_num) h
  have hunit : (0 : ℚ) < 2 ^ e := by positivity
  refine le_of_mul_le_mul_right ?_ hunit
  linarith

/-- `x / y` -/
theorem HasValue.div (hx : HasValue x p) (hy : HasValue y q) (hq : q ≠ 0)
    (h : p = 0 ∨ Normal (p / q)) : HasValue (x / y) (Binary64.round (p / q)) := by
  have hdiv : x / y =
      .ofModel (.pack (UnpackedFloat.div .binary64 x.toModel.unpack y.toModel.unpack)) := rfl
  cases hy with
  | zero => exact absurd rfl hq
  | @normal m₂ e₂ hm₂ hy hlow₂ hhigh₂ =>
    cases hx with
    | zero hx =>
      rw [zero_div, hdiv, hx, hy]
      exact .zero unpack_pack_zero
    | @normal m₁ e₁ hm₁ hx hlow₁ hhigh₁ =>
      have hnormal : Normal ((m₁ : ℚ) * 2 ^ e₁ / (m₂ * 2 ^ e₂)) := h.resolve_left (by positivity)
      rw [hdiv, hx, hy]
      show HasValue (.ofModel (.pack (roundWithAccuracy .binary64 .positive
        (divCore .binary64 m₁ e₁ m₂ e₂).1 (divCore .binary64 m₁ e₁ m₂ e₂).2.1
        (divCore .binary64 m₁ e₁ m₂ e₂).2.2))) _
      obtain ⟨n, e, hcore, hsum, he⟩ := exists_divCore m₁ m₂ e₁ e₂
      rw [hcore]
      have hvalue : (m₁ : ℚ) * 2 ^ e₁ / (m₂ * 2 ^ e₂) = (m₁ <<< n : ℕ) / m₂ * 2 ^ e := by
        rw [Nat.shiftLeft_eq, hsum, zpow_add₀ (by norm_num), zpow_add₀ (by norm_num), zpow_natCast]
        push_cast
        field_simp
      rw [hvalue] at hnormal ⊢
      -- the quotient has got enough places
      have hbits : e ≤ Binary.lastPlace 52 ((m₁ <<< n : ℕ) / m₂ * 2 ^ e) := by
        have hplace := @quotient_le_lastPlace _ _ e₁ e₂ hlow₁ hm₂ hhigh₂
        rw [hvalue] at hplace
        have hlog₁ : m₁.log2 = 52 := (Nat.log2_eq_iff (by omega)).mpr ⟨hlow₁, hhigh₁⟩
        have hlog₂ : m₂.log2 = 52 := (Nat.log2_eq_iff (by omega)).mpr ⟨hlow₂, hhigh₂⟩
        have hmin := hnormal.lastPlace.1
        simp only [Format.targetExponent, totalExponent, hlog₁, hlog₂, Format.mantissaBits,
          Format.minExponent] at he
        norm_num at he
        omega
      refine hasValue_roundWithAccuracy (stands_accuracyOfFraction _ hm₂) ?_ hbits hnormal
      refine Nat.div_pos ?_ hm₂
      have hone := one_le_of_le_lastPlace hnormal.pos hbits
      rw [le_div_iff₀ (by positivity), one_mul] at hone
      exact_mod_cast hone

/-- A number that is not below zero is rounded as it is. -/
theorem hasValue_normalize {m : ℤ} (hm : 0 ≤ m) {e : ℤ} (hq : m = 0 ∨ Normal (m * 2 ^ e)) :
    HasValue (.ofModel (.pack (UnpackedFloat.normalize .binary64 m e .positive)))
      (Binary64.round (m * 2 ^ e)) := by
  obtain ⟨m, rfl⟩ := Int.eq_ofNat_of_zero_le hm
  rw [Int.cast_natCast] at hq ⊢
  rcases m.eq_zero_or_pos with rfl | hpos
  · simp only [Nat.cast_zero, zero_mul]
    exact .zero unpack_pack_zero
  · have horder : compare (m : ℤ) 0 = .gt := compare_gt_iff_gt.mpr (by exact_mod_cast hpos)
    rw [UnpackedFloat.normalize, horder]
    exact hasValue_round hpos (hq.resolve_left (by omega))

theorem lastPlace_significand {m : ℕ} (hlow : 2 ^ 52 ≤ m) (hhigh : m < 2 ^ 53) (e : ℤ) :
    Binary.lastPlace 52 ((m : ℚ) * 2 ^ e) = e := by
  have hpos : (0 : ℚ) < 2 ^ e := by positivity
  refine Binary.lastPlace_eq ?_ ?_
  · rw [add_comm, zpow_add₀ (by norm_num), zpow_natCast, mul_le_mul_iff_left₀ hpos]
    exact_mod_cast hlow
  · rw [add_comm, zpow_add₀ (by norm_num), zpow_natCast, mul_lt_mul_iff_left₀ hpos]
    exact_mod_cast hhigh

theorem round_significand {m : ℕ} (hlow : 2 ^ 52 ≤ m) (hhigh : m < 2 ^ 53) (e : ℤ) :
    Binary64.round (m * 2 ^ e) = m * 2 ^ e := by
  have hpos : (0 : ℚ) < 2 ^ e := by positivity
  have hm : (0 : ℚ) < m := by exact_mod_cast (by omega : 0 < m)
  rw [Binary64.round, Binary.round_of_pos (by positivity), lastPlace_significand hlow hhigh,
    mul_div_cancel_right₀ _ hpos.ne', Binary.roundHalfEven_natCast, Int.cast_natCast]

/-- `x - y`, of a number that is not smaller -/
theorem HasValue.sub (hx : HasValue x p) (hy : HasValue y q) (hle : q ≤ p)
    (h : p = q ∨ Normal (p - q)) : HasValue (x - y) (Binary64.round (p - q)) := by
  have hsub : x - y =
      .ofModel (.pack (UnpackedFloat.sub .binary64 x.toModel.unpack y.toModel.unpack)) := rfl
  cases hx with
  | zero hx =>
    cases hy with
    | zero hy =>
      rw [hsub, hx, hy, sub_zero]
      exact .zero unpack_pack_zero
    | @normal m e hm => exact absurd hle (not_le.mpr (by positivity))
  | @normal m₁ e₁ hm₁ hx hlow₁ hhigh₁ =>
    cases hy with
    | zero hy =>
      have hnormal : Normal ((m₁ : ℚ) * 2 ^ e₁) := by
        rw [sub_zero] at h
        exact h.resolve_left (by positivity)
      rw [hsub, hx, hy, sub_zero]
      have hplace := hnormal.lastPlace
      rw [lastPlace_significand hlow₁ hhigh₁] at hplace
      rw [round_significand hlow₁ hhigh₁]
      exact .normal (unpack_pack hm₁ hlow₁ hhigh₁ hplace.1 (by omega)) hlow₁ hhigh₁
    | @normal m₂ e₂ hm₂ hy hlow₂ hhigh₂ =>
      obtain ⟨e, he⟩ : ∃ e, min e₁ e₂ = e := ⟨_, rfl⟩
      obtain ⟨n₁, hn₁⟩ : ∃ n : ℕ, e₁ = e + n := ⟨(e₁ - e).toNat, by omega⟩
      obtain ⟨n₂, hn₂⟩ : ∃ n : ℕ, e₂ = e + n := ⟨(e₂ - e).toNat, by omega⟩
      have hmantissa : UnpackedFloat.sub .binary64 (.finite .positive m₁ e₁ hm₁)
          (.finite .positive m₂ e₂ hm₂) =
            UnpackedFloat.normalize .binary64 ((m₁ <<< n₁ : ℕ) - (m₂ <<< n₂ : ℕ)) e .positive := by
        have hshift₁ : (e₁ - e).toNat = n₁ := by omega
        have hshift₂ : (e₂ - e).toNat = n₂ := by omega
        rw [UnpackedFloat.sub]
        simp only [he, decreaseExponent, hshift₁, hshift₂, Sign.apply]
      have hvalue : (m₁ : ℚ) * 2 ^ e₁ - m₂ * 2 ^ e₂ =
          (((m₁ <<< n₁ : ℕ) - (m₂ <<< n₂ : ℕ) : ℤ) : ℚ) * 2 ^ e := by
        rw [hn₁, hn₂, Nat.shiftLeft_eq, Nat.shiftLeft_eq, zpow_add₀ (by norm_num),
          zpow_add₀ (by norm_num), zpow_natCast, zpow_natCast]
        push_cast
        ring
      have hpos : (0 : ℚ) < 2 ^ e := by positivity
      have hsign : 0 ≤ ((m₁ <<< n₁ : ℕ) - (m₂ <<< n₂ : ℕ) : ℤ) := by
        have hnonneg := hvalue ▸ sub_nonneg.mpr hle
        exact_mod_cast nonneg_of_mul_nonneg_left hnonneg hpos
      rw [hsub, hx, hy, hmantissa, hvalue]
      refine hasValue_normalize hsign ?_
      rw [← sub_eq_zero, hvalue] at h
      refine h.imp_left fun hzero => ?_
      exact_mod_cast (mul_eq_zero.mp hzero).resolve_right hpos.ne'

theorem hasValue_one : HasValue 1.0 1 := by
  have hunpack : (1.0 : Float).toModel.unpack = .finite .positive (2 ^ 52) (-52) (by decide) := by
    rfl
  have hvalue : (1 : ℚ) = (2 ^ 52 : ℕ) * 2 ^ (-52 : ℤ) := by norm_num
  rw [hvalue]
  exact .normal hunpack le_rfl (by norm_num)

theorem normal_natCast {n : ℕ} (hpos : 0 < n) (h : n < 2 ^ 64) : Normal n := by
  constructor
  · have hone : (2 : ℚ) ^ (-1022 : ℤ) ≤ 1 := zpow_le_one_of_nonpos₀ (by norm_num) (by norm_num)
    exact hone.trans (by exact_mod_cast hpos)
  · have hpow : (2 : ℚ) ^ (64 : ℤ) < 2 ^ (1023 : ℤ) :=
      zpow_lt_zpow_right₀ (by norm_num) (by norm_num)
    refine lt_trans ?_ hpow
    exact_mod_cast h

/-- A word that has no more bits than a mantissa is not rounded. -/
theorem hasValue_toFloat {n : ℕ} (h : n < 2 ^ 53) : HasValue n.toUInt64.toFloat n := by
  have hword : n.toUInt64.toNat = n := UInt64.toNat_ofNat_of_lt' (by
    rw [UInt64.size]
    omega)
  have hnormal : n = 0 ∨ Normal n :=
    n.eq_zero_or_pos.imp_right fun hpos => normal_natCast hpos (by omega)
  have hvalue := hasValue_normalize (m := n) (e := 0) (by omega) (by simpa using hnormal)
  rw [Int.cast_natCast, zpow_zero, mul_one, Binary64.round_natCast h] at hvalue
  show HasValue (.ofModel (.pack (UnpackedFloat.normalize .binary64 (n.toUInt64.toNat : ℤ) 0
    .positive))) _
  rw [hword]
  exact hvalue

/-- A whole number is rounded with 53 places more than it has. -/
theorem hasValue_ofScientific {n : ℕ} (hpos : 0 < n) (h : n < 2 ^ 64) :
    HasValue (.ofModel (.pack (UnpackedFloat.ofScientific .binary64 n 0))) (Binary64.round n) := by
  have hmodel : UnpackedFloat.ofScientific .binary64 n 0 =
      roundWithAccuracy .binary64 .positive (n <<< 53) (-53) .exact := by
    rw [UnpackedFloat.ofScientific, dif_neg hpos.ne', if_neg (by decide), if_neg (by norm_num),
      if_pos le_rfl]
    show roundWithAccuracy .binary64 .positive (n <<< 53 * 1) (-53 + 0) .exact = _
    rw [mul_one, add_zero]
  have hvalue : (n : ℚ) = (n <<< 53 : ℕ) * 2 ^ (-53 : ℤ) := by
    rw [Nat.shiftLeft_eq]
    push_cast
    rw [zpow_neg]
    norm_num
    ring
  have hnormal := normal_natCast hpos h
  rw [hmodel]
  rw [hvalue] at hnormal ⊢
  refine hasValue_roundWithAccuracy (stands_exact _) ?_ (le_lastPlace ?_ _) hnormal
  · rw [Nat.shiftLeft_eq]
    exact Nat.mul_pos hpos (Nat.two_pow_pos 53)
  · rw [Nat.shiftLeft_eq]
    push_cast
    have hone : (1 : ℚ) ≤ n := by exact_mod_cast hpos
    linarith only [hone]

/-- `n as f64` -/
theorem hasValue_ofNat {n : ℕ} (h : n < 2 ^ 64) :
    HasValue (Float.ofNat n) (Binary64.round n) := by
  rw [Float.ofNat]
  show HasValue (Float.ofScientific n false 0) _
  rw [Float.ofScientific]
  split
  · next hsmall =>
    -- it is multiplied by one
    have hsmall : n < 2 ^ 53 := hsmall.1
    have hmul := (hasValue_toFloat hsmall).mul hasValue_one (by
      rw [mul_one]
      rcases n.eq_zero_or_pos with rfl | hpos
      · exact .inl (by rw [Nat.cast_zero])
      · exact .inr (.inr (normal_natCast hpos h)))
    rw [mul_one] at hmul
    exact hmul
  · next hlarge =>
    simp only [Bool.false_eq_true, if_false, Int.ofNat_eq_natCast, Nat.cast_zero]
    exact hasValue_ofScientific (by omega) h

/-! ## Order -/

theorem lt_of_exponent_lt {m₁ m₂ : ℕ} {e₁ e₂ : ℤ} (hhigh : m₁ < 2 ^ 53) (hlow : 2 ^ 52 ≤ m₂)
    (he : e₁ < e₂) : (m₁ : ℚ) * 2 ^ e₁ < m₂ * 2 ^ e₂ := by
  have hexp : (2 : ℚ) ^ (e₁ + 1) ≤ 2 ^ e₂ := zpow_le_zpow_right₀ (by norm_num) he
  have hsig : (m₁ : ℚ) < 2 ^ 53 := by exact_mod_cast hhigh
  have hsig' : (2 : ℚ) ^ 52 ≤ m₂ := by exact_mod_cast hlow
  have hpos : (0 : ℚ) < 2 ^ e₁ := by positivity
  calc (m₁ : ℚ) * 2 ^ e₁ < 2 ^ 53 * 2 ^ e₁ := by gcongr
    _ = 2 ^ 52 * 2 ^ (e₁ + 1) := by
        rw [zpow_add₀ (by norm_num)]
        ring
    _ ≤ m₂ * 2 ^ e₂ := by gcongr

/-- Numbers are ordered as their values are. -/
theorem HasValue.le (hx : HasValue x p) (hy : HasValue y q) (h : p ≤ q) : x ≤ y := by
  have hle : x.toModel.unpack.le y.toModel.unpack = true → x ≤ y := by
    intro hle
    show decide (x.toModel ≤ y.toModel) = true
    exact decide_eq_true hle
  refine hle ?_
  cases hx with
  | zero hx =>
    cases hy with
    | zero hy =>
      rw [hx, hy]
      rfl
    | normal hy =>
      rw [hx, hy]
      rfl
  | @normal m₁ e₁ hm₁ hx hlow₁ hhigh₁ =>
    cases hy with
    | zero hy => exact absurd h (not_le.mpr (by positivity))
    | @normal m₂ e₂ hm₂ hy hlow₂ hhigh₂ =>
      rw [hx, hy]
      show ((compare e₁ e₂).then (compare m₁ m₂)).isLE = true
      rcases lt_trichotomy e₁ e₂ with hlt | rfl | hgt
      · rw [compare_lt_iff_lt.mpr hlt]
        rfl
      · have hsig : (m₁ : ℚ) ≤ m₂ := le_of_mul_le_mul_right h (by positivity)
        rw [compare_eq_iff_eq.mpr rfl]
        exact Nat.isLE_compare.mpr (by exact_mod_cast hsig)
      · exact absurd h (not_le.mpr (lt_of_exponent_lt hhigh₂ hlow₁ hgt))

theorem hasValue_zero : HasValue 0.0 0 := .zero (by rfl)

/-! ## Ratios of counts -/

theorem round_one : Binary64.round 1 = 1 := by
  exact_mod_cast Binary64.round_natCast (n := 1) (by norm_num)

theorem normal_of_le_one (hlow : 2 ^ (-64 : ℤ) ≤ q) (hhigh : q ≤ 1) : Normal q := by
  refine ⟨le_trans (zpow_le_zpow_right₀ (by norm_num) (by norm_num)) hlow, hhigh.trans_lt ?_⟩
  exact one_lt_zpow₀ (by norm_num) (by norm_num)

/-- `1.0 - x`, of a number that is at most one -/
theorem HasValue.one_sub (hx : HasValue x q) (hle : q ≤ 1) :
    HasValue (1.0 - x) (Binary64.round (1 - q)) := by
  refine hasValue_one.sub hx hle ?_
  cases hx with
  | zero hx => exact .inr (normal_of_le_one (by norm_num) (by norm_num))
  | @normal m e hm hx hlow hhigh =>
    rcases hle.eq_or_lt with heq | hlt
    · exact .inl heq.symm
    right
    -- a number below one is so by its last place at least
    have he : e ≤ -53 := by
      by_contra hne
      have hexp : (2 : ℚ) ^ (-52 : ℤ) ≤ 2 ^ e := zpow_le_zpow_right₀ (by norm_num) (by omega)
      have hsig : (2 : ℚ) ^ 52 ≤ m := by exact_mod_cast hlow
      have hge : (2 : ℚ) ^ 52 * 2 ^ (-52 : ℤ) ≤ m * 2 ^ e := by gcongr
      norm_num at hge
      linarith
    have hle : (m : ℚ) * 2 ^ e ≤ (2 ^ 53 - 1) * 2 ^ (-53 : ℤ) := by
      have hexp : (2 : ℚ) ^ e ≤ 2 ^ (-53 : ℤ) := zpow_le_zpow_right₀ (by norm_num) he
      have hsig : (m : ℚ) ≤ 2 ^ 53 - 1 := by
        have hsucc : ((m + 1 : ℕ) : ℚ) ≤ 2 ^ 53 := by exact_mod_cast hhigh
        push_cast at hsucc
        linarith
      gcongr
    have hpos : (0 : ℚ) < m * 2 ^ e := by positivity
    norm_num at hle
    refine normal_of_le_one ?_ (by linarith)
    norm_num
    linarith

/-- The `f64` of a count that is not zero and of one that is not smaller divide to one at most. -/
theorem hasValue_div_ofNat {n m : ℕ} (hle : n ≤ m) (hm : 0 < m) (hlt : m < 2 ^ 64) :
    HasValue (Float.ofNat n / Float.ofNat m)
      (Binary64.round (Binary64.round n / Binary64.round m)) := by
  have hone : ∀ {k : ℕ}, 0 < k → 1 ≤ Binary64.round k := by
    intro k hk
    rw [← round_one]
    exact Binary64.round_mono (by norm_num) (by exact_mod_cast hk)
  have hmax : Binary64.round m ≤ 2 ^ 64 := by
    have hpow : (2 : ℚ) ^ 64 = (2 ^ 52 : ℕ) * 2 ^ (12 : ℤ) := by norm_num
    rw [hpow, ← round_significand le_rfl (by norm_num), ← hpow]
    exact Binary64.round_mono (by positivity) (by exact_mod_cast hlt.le)
  have hpos : 0 < Binary64.round m := zero_lt_one.trans_le (hone hm)
  refine (hasValue_ofNat (hle.trans_lt hlt)).div (hasValue_ofNat hlt) hpos.ne' ?_
  rcases n.eq_zero_or_pos with rfl | hn
  · left
    exact_mod_cast Binary64.round_natCast (n := 0) (by norm_num)
  · right
    have hratio : Binary64.round n / Binary64.round m ≤ 1 :=
      (div_le_one hpos).mpr (Binary64.round_mono (by positivity) (by exact_mod_cast hle))
    refine normal_of_le_one ?_ hratio
    rw [le_div_iff₀ hpos]
    have hn := hone hn
    norm_num at hmax ⊢
    linarith

/-- **One minus a ratio of counts lies between zero and one.** -/
theorem one_sub_div_ofNat_bounds {n m : ℕ} (hle : n ≤ m) (hm : 0 < m) (hlt : m < 2 ^ 64) :
    0.0 ≤ 1.0 - Float.ofNat n / Float.ofNat m ∧ 1.0 - Float.ofNat n / Float.ofNat m ≤ 1.0 := by
  have hratio := hasValue_div_ofNat hle hm hlt
  have hpos : 0 ≤ Binary64.round m := Binary64.round_nonneg (by positivity)
  have hone : Binary64.round (Binary64.round n / Binary64.round m) ≤ 1 := by
    have hdiv : Binary64.round n / Binary64.round m ≤ 1 :=
      div_le_one_of_le₀ (Binary64.round_mono (by positivity) (by exact_mod_cast hle)) hpos
    refine (Binary64.round_mono ?_ hdiv).trans_eq round_one
    exact div_nonneg (Binary64.round_nonneg (by positivity)) hpos
  have hsub := hratio.one_sub hone
  refine ⟨hasValue_zero.le hsub hsub.nonneg, hsub.le hasValue_one ?_⟩
  refine (Binary64.round_mono (by linarith) ?_).trans_eq round_one
  linarith [hratio.nonneg]

end Float64
end MeetilyLocal
