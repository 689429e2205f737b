import Mathlib.Data.Char
import Mathlib.Data.List.Lex
import Mathlib.Tactic.NormNum

/-!
# Zero-padded decimal numerals

`padded w n` is `n` in decimal, padded with zeros to at least `w` characters. Padding loses
nothing (`padded_injective`), and as long as the numbers fit in `w` digits, character order is
number order (`padded_lt_padded`). Beyond that it is not: a longer numeral is compared by its
leading digits.
-/

namespace MeetilyLocal

namespace Decimal

/-- `n` in decimal, padded with zeros to at least `w` characters. -/
def padded (w n : ℕ) : List Char := (Nat.toDigits 10 n).leftpad w '0'

theorem ofDigitChars_padded (w n : ℕ) : Nat.ofDigitChars 10 (padded w n) 0 = n := by
  rw [padded, List.leftpad, Nat.ofDigitChars_append, Nat.ofDigitChars_replicate_zero,
    Nat.mul_zero, Nat.ofDigitChars_ten_toDigits]

/-- Different numbers have different numerals. -/
theorem padded_injective (w : ℕ) : Function.Injective (padded w) := by
  intro m n h
  rw [← ofDigitChars_padded w m, h, ofDigitChars_padded]

/-- So do they without padding. -/
theorem repr_injective : Function.Injective Nat.repr := by
  intro m n h
  have hdigits : Nat.toDigits 10 m = Nat.toDigits 10 n := String.ofList_inj.mp h
  rw [← Nat.ofDigitChars_ten_toDigits (n := m), hdigits, Nat.ofDigitChars_ten_toDigits]

theorem length_padded {w n : ℕ} (hw : 0 < w) (h : n < 10 ^ w) : (padded w n).length = w := by
  rw [padded, List.length_leftpad]
  exact max_eq_left ((Nat.length_toDigits_le_iff (by norm_num) hw).mpr h)

/-- The last digit, and the numeral of the rest. -/
theorem padded_succ {w : ℕ} (hw : 0 < w) (n : ℕ) :
    padded (w + 1) n = padded w (n / 10) ++ [Nat.digitChar (n % 10)] := by
  by_cases h : n < 10
  · obtain ⟨w, rfl⟩ := Nat.exists_eq_add_of_lt hw
    rw [padded, padded, Nat.toDigits_of_lt_base h, Nat.div_eq_of_lt h, Nat.mod_eq_of_lt h,
      Nat.toDigits_zero, List.leftpad, List.leftpad, Nat.zero_add]
    simp [← List.replicate_succ']
  · rw [padded, padded, Nat.toDigits_of_base_le (by norm_num) (not_lt.mp h), List.leftpad,
      List.leftpad]
    simp

theorem digitChar_lt {m n : ℕ} (h : m < n) (hn : n < 10) : Nat.digitChar m < Nat.digitChar n := by
  have hall : ∀ n < 10, ∀ m < n, Nat.digitChar m < Nat.digitChar n := by decide
  exact hall n hn m h

/-- Between words of one length, a difference in front decides. -/
theorem append_lt_append {a b : List Char} (hlen : a.length = b.length) (h : a < b)
    (s t : List Char) : a ++ s < b ++ t := by
  induction a generalizing b with
  | nil =>
    rw [List.eq_nil_of_length_eq_zero hlen.symm] at h
    exact absurd h (List.not_lt_nil [])
  | cons x a ih =>
    cases b with
    | nil => exact absurd h (List.not_lt_nil _)
    | cons y b =>
      rw [List.cons_append, List.cons_append, List.cons_lt_cons_iff]
      rcases List.cons_lt_cons_iff.mp h with hxy | ⟨hxy, hab⟩
      · exact Or.inl hxy
      · exact Or.inr ⟨hxy, ih (Nat.succ.inj hlen) hab⟩

/-- **Numerals of one width are ordered as their numbers.** -/
theorem padded_lt_padded {w m n : ℕ} (hw : 0 < w) (h : m < n) (hn : n < 10 ^ w) :
    padded w m < padded w n := by
  induction w, hw using Nat.le_induction generalizing m n with
  | base =>
    rw [pow_one] at hn
    have hone : ∀ k < 10, padded 1 k = [Nat.digitChar k] := by decide
    rw [hone m (h.trans hn), hone n hn, List.cons_lt_cons_iff]
    exact Or.inl (digitChar_lt h hn)
  | succ w hw ih =>
    rw [padded_succ hw, padded_succ hw]
    rw [pow_succ] at hn
    rcases (Nat.div_le_div_right h.le (c := 10)).lt_or_eq with hdiv | hdiv
    · have hlen : (padded w (m / 10)).length = (padded w (n / 10)).length := by
        rw [length_padded hw (by omega), length_padded hw (by omega)]
      exact append_lt_append hlen (ih hdiv (by omega)) _ _
    · rw [hdiv]
      refine List.append_left_lt (List.cons_lt_cons_iff.mpr (Or.inl (digitChar_lt ?_ ?_)))
      · omega
      · exact Nat.mod_lt n (by norm_num)

end Decimal

end MeetilyLocal
