import Mathlib.Data.Prod.Lex
import Mathlib.Data.Int.Order.Basic
import Mathlib.Tactic.Common

/-!
# The order of floating-point numbers

`f64::partial_cmp`, on the model of `Float` in the standard library, and the fact that it is a
total preorder once NaN is set aside: it compares the ranks of the numbers, in a linear order
(`Float64.partialCmp_eq`).
-/

namespace MeetilyLocal

namespace Float64

open Float.Model

/-- Signs, exponents and mantissas in lexicographic order. -/
abbrev Rank : Type := ℤ ×ₗ ℤ ×ₗ ℤ

/-- Where a number stands among the others; both zeros stand at one place. -/
def unpackedRank : UnpackedFloat → Rank
  | .infinity .negative => toLex (-2, toLex (0, 0))
  | .finite .negative m e _ => toLex (-1, toLex (-e, -m))
  | .zero _ => toLex (0, toLex (0, 0))
  | .finite .positive m e _ => toLex (1, toLex (e, m))
  | .infinity .positive => toLex (2, toLex (0, 0))
  | .notANumber => toLex (3, toLex (0, 0))

/-- Where a number stands among the others. -/
def rank (x : Float) : Rank := unpackedRank x.toModel.unpack

/-- `f64::partial_cmp` -/
def partialCmp (x y : Float) : Option Ordering := x.toModel.compare y.toModel

/-- `f64::MAX` -/
def max : Float := Float.ofBits 0x7FEFFFFFFFFFFFFF

theorem compare_natCast (m n : ℕ) : compare (m : ℤ) (n : ℤ) = compare m n := by
  rw [compare_iff]
  rcases lt_trichotomy m n with h | rfl | h
  · rw [compare_lt_iff_lt.mpr h]
    exact Int.ofNat_lt.mpr h
  · rw [compare_eq_iff_eq.mpr rfl]
    exact (rfl : (m : ℤ) = m)
  · rw [compare_gt_iff_gt.mpr h]
    exact Int.ofNat_lt.mpr h

theorem compare_neg (a b : ℤ) : compare (-a) (-b) = (compare a b).swap := by
  rw [compare_iff]
  rcases lt_trichotomy a b with h | rfl | h
  · rw [compare_lt_iff_lt.mpr h]
    exact Int.neg_lt_neg h
  · rw [compare_eq_iff_eq.mpr rfl]
    exact (rfl : -a = -a)
  · rw [compare_gt_iff_gt.mpr h]
    exact Int.neg_lt_neg h

theorem compare_toLex {α β : Type*} [LinearOrder α] [LinearOrder β] (a b : α × β) :
    compare (toLex a) (toLex b) = (compare a.1 b.1).then (compare a.2 b.2) := by
  rw [Prod.Lex.compare_def]
  rfl

/-- Two numbers of one sign compare by exponent and then by mantissa. -/
theorem compare_rank_of_sign (sign : ℤ) (e e' : ℤ) (m m' : ℤ) :
    compare (toLex (sign, toLex (e, m)) : Rank) (toLex (sign, toLex (e', m'))) =
      (compare e e').then (compare m m') := by
  rw [compare_toLex, compare_toLex, compare_eq_iff_eq.mpr rfl]
  rfl

theorem compare_unpackedRank {a b : UnpackedFloat} (ha : a.isNaN = false) (hb : b.isNaN = false) :
    a.compare b = some (compare (unpackedRank a) (unpackedRank b)) := by
  rcases a with (_ | _) | _ | _ | ⟨_ | _, m, e, hm⟩ <;>
  rcases b with (_ | _) | _ | (_ | _) | ⟨_ | _, m', e', hm'⟩ <;>
  -- numbers of different classes, or of classes with one rank only
  first | rfl | contradiction | skip
  · show _ = some (compare (toLex (-1, toLex (-e, -(m : ℤ))) : Rank)
      (toLex (-1, toLex (-e', -(m' : ℤ)))))
    rw [compare_rank_of_sign, compare_neg, compare_neg, compare_natCast, ← Ordering.swap_then]
    rfl
  · show _ = some (compare (toLex (1, toLex (e, (m : ℤ))) : Rank)
      (toLex (1, toLex (e', (m' : ℤ)))))
    rw [compare_rank_of_sign, compare_natCast]
    rfl

/-- Numbers compare as their ranks do. -/
theorem partialCmp_eq {x y : Float} (hx : x.isNaN = false) (hy : y.isNaN = false) :
    partialCmp x y = some (compare (rank x) (rank y)) :=
  compare_unpackedRank hx hy

/-- Numbers are equal as their ranks are, so `-0.0` is equal to `0.0`. -/
theorem beq_iff {x y : Float} (hx : x.isNaN = false) (hy : y.isNaN = false) :
    (x == y) = true ↔ rank x = rank y := by
  have hbeq : (x == y) = (partialCmp x y == some .eq) := rfl
  rw [hbeq, partialCmp_eq hx hy, beq_iff_eq, Option.some_inj, compare_eq_iff_eq]

theorem isNaN_of_isFinite {x : Float} (h : x.isFinite = true) : x.isNaN = false := by
  change x.toModel.unpack.isFinite = true at h
  change x.toModel.unpack.isNaN = false
  cases hunpack : x.toModel.unpack with
  | notANumber =>
    rw [hunpack] at h
    cases h
  | _ => rfl

theorem isNaN_max : max.isNaN = false := by decide +kernel

end Float64

end MeetilyLocal
