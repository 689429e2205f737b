import Mathlib.Data.List.Induction
import MeetilyLocal.Library.Decimal

/-!
# Texts with numbers of fixed width

A layout gives the width of each number of a text and what is written in front of it. Texts of one
layout compare as their numbers, and then as what comes behind these (`render_lt_iff`). A fraction that
is written with as many groups of digits as it needs compares so too, if what comes behind is smaller
than a digit (`groups_lt_groups`); and so do fractions with any numbers of digits
(`decimals_lt_decimals`).
-/

namespace MeetilyLocal

namespace Decimal

theorem padded_add {w v : ℕ} (hw : 0 < w) (hv : 0 < v) (n : ℕ) :
    padded (w + v) n = padded w (n / 10 ^ v) ++ padded v (n % 10 ^ v) := by
  induction v, hv using Nat.le_induction generalizing n with
  | base =>
    have hone : ∀ k < 10, padded 1 k = [Nat.digitChar k] := by decide
    change padded (w + 1) n = padded w (n / 10 ^ 1) ++ padded 1 (n % 10 ^ 1)
    rw [padded_succ hw, pow_one, hone _ (Nat.mod_lt n (by norm_num))]
  | succ v hv ih =>
    rw [← Nat.add_assoc, padded_succ (by omega), ih, padded_succ hv, ← List.append_assoc,
      Nat.div_div_eq_div_mul, Nat.mul_comm 10, ← pow_succ, pow_succ', Nat.mod_mul_right_div_self,
      Nat.mod_mul_right_mod]

/-- No digit is smaller than zero. -/
theorem zero_le_of_mem_padded {w n : ℕ} {c : Char} (hc : c ∈ padded w n) : '0' ≤ c := by
  rw [padded, List.leftpad] at hc
  rcases List.mem_append.mp hc with hc | hc
  · rw [List.eq_of_mem_replicate hc]
  · have hdigit := Nat.isDigit_of_mem_toDigits (by norm_num) (by norm_num) hc
    simp only [Char.isDigit, Bool.and_eq_true, decide_eq_true_eq] at hdigit
    exact hdigit.1

theorem exists_padded_cons {w n : ℕ} (hw : 0 < w) (h : n < 10 ^ w) :
    ∃ c rest, padded w n = c :: rest ∧ '0' ≤ c := by
  have hlen := length_padded hw h
  rcases hp : padded w n with _ | ⟨c, rest⟩
  · rw [hp] at hlen
    exact absurd hlen hw.ne
  · exact ⟨c, rest, rfl, zero_le_of_mem_padded (by rw [hp]; exact List.mem_cons_self)⟩

/-- Digits are the numeral of their number. -/
theorem exists_eq_padded {digits : List Char} (hne : digits ≠ [])
    (h : ∀ c ∈ digits, c.isDigit = true) :
    ∃ n < 10 ^ digits.length, digits = padded digits.length n := by
  induction digits using List.reverseRecOn with
  | nil => exact absurd rfl hne
  | append_singleton digits c ih =>
    obtain ⟨hdigits, hc⟩ := List.forall_mem_append.mp h
    have hdigit : ∃ d < 10, Nat.digitChar d = c := by
      have hrange := hc c (List.mem_singleton_self c)
      simp only [Char.isDigit, Bool.and_eq_true, decide_eq_true_eq] at hrange
      have hle : 48 ≤ c.toNat ∧ c.toNat ≤ 57 := hrange
      have hall : ∀ k < 58, 48 ≤ k → Nat.digitChar (k - 48) = Char.ofNat k := by decide
      exact ⟨c.toNat - 48, by omega, (hall c.toNat (by omega) hle.1).trans (Char.ofNat_toNat c)⟩
    obtain ⟨d, hd, rfl⟩ := hdigit
    rw [List.length_append, List.length_singleton]
    rcases eq_or_ne digits [] with rfl | hsome
    · have hone : ∀ k < 10, padded 1 k = [Nat.digitChar k] := by decide
      exact ⟨d, by simpa using hd, (hone d hd).symm⟩
    · obtain ⟨n, hn, heq⟩ := ih hsome hdigits
      have hdiv : (n * 10 + d) / 10 = n := by omega
      have hmod : (n * 10 + d) % 10 = d := by omega
      refine ⟨n * 10 + d, ?_, ?_⟩
      · rw [pow_succ]
        omega
      · rw [padded_succ (List.length_pos_of_ne_nil hsome), hdiv, hmod, ← heq]

/-- **Fractions**, with any numbers of digits: what comes behind is smaller than a digit. -/
theorem decimals_lt_decimals {z : Char} (hz : z < '0') {w v m n : ℕ} (hw : 0 < w) (hv : 0 < v)
    (hm : m < 10 ^ w) (hn : n < 10 ^ v) (h : m * 10 ^ v < n * 10 ^ w) (s t : List Char) :
    padded w m ++ z :: s < padded v n ++ z :: t := by
  have hpos : ∀ k, 0 < 10 ^ k := fun k => Nat.pow_pos (by norm_num)
  rcases Nat.lt_or_ge v w with hlt | hge
  · obtain ⟨u, hu, rfl⟩ : ∃ u, 0 < u ∧ w = v + u := ⟨w - v, by omega, by omega⟩
    have hless : m / 10 ^ u < n := by
      rw [Nat.div_lt_iff_lt_mul (hpos u)]
      rw [pow_add, mul_comm (10 ^ v), ← mul_assoc] at h
      exact Nat.lt_of_mul_lt_mul_right h
    rw [padded_add hv hu, List.append_assoc]
    refine append_lt_append ?_ (padded_lt_padded hv hless hn) _ _
    rw [length_padded hv (hless.trans hn), length_padded hv hn]
  · obtain ⟨u, rfl⟩ := Nat.exists_eq_add_of_le hge
    have hle : m * 10 ^ u < n := by
      rw [pow_add, mul_comm (10 ^ w), ← mul_assoc] at h
      exact Nat.lt_of_mul_lt_mul_right h
    rcases Nat.eq_zero_or_pos u with rfl | hu
    · rw [pow_zero, mul_one] at hle
      refine append_lt_append ?_ (padded_lt_padded hv hle hn) _ _
      rw [length_padded hv hm, length_padded hv hn]
    have hfront : n / 10 ^ u < 10 ^ w := by
      rw [Nat.div_lt_iff_lt_mul (hpos u), ← pow_add]
      exact hn
    rw [padded_add hw hu, List.append_assoc]
    rcases ((Nat.le_div_iff_mul_le (hpos u)).mpr hle.le).lt_or_eq with hless | rfl
    · refine append_lt_append ?_ (padded_lt_padded hw hless hfront) _ _
      rw [length_padded hw hm, length_padded hw hfront]
    · -- the longer one goes on with a digit
      obtain ⟨c, rest, hrest, hc⟩ := exists_padded_cons hu (Nat.mod_lt n (hpos u))
      rw [hrest]
      exact List.append_left_lt (List.cons_lt_cons_iff.mpr (.inl (hz.trans_le hc)))

end Decimal

namespace FixedWidth

open Decimal

section Layouts

variable {layout : List (List Char × ℕ)} {ms ns : List ℕ} {s t : List Char}

/-- The numbers, each in its width and behind what comes in front of it, and then the rest. -/
def render : List (List Char × ℕ) → List ℕ → List Char → List Char
  | (sep, w) :: layout, n :: ns, tail => sep ++ padded w n ++ render layout ns tail
  | _, _, tail => tail

/-- Each number fits its width. -/
def Fits (layout : List (List Char × ℕ)) (ns : List ℕ) : Prop :=
  List.Forall₂ (fun place n => 0 < place.2 ∧ n < 10 ^ place.2) layout ns

theorem render_append (hn : Fits layout ns) :
    render layout ns (s ++ t) = render layout ns s ++ t := by
  induction hn with
  | nil => rfl
  | cons _ _ ih => rw [render, render, ih, List.append_assoc, List.append_assoc, List.append_assoc]

theorem length_render (hn : Fits layout ns) :
    (render layout ns []).length = (layout.map fun place => place.1.length + place.2).sum := by
  induction hn with
  | nil => rfl
  | cons hfit _ ih =>
    rw [render, List.length_append, List.length_append, length_padded hfit.1 hfit.2, ih,
      List.map_cons, List.sum_cons]

theorem render_lt_render (hm : Fits layout ms) (hn : Fits layout ns)
    (h : ms < ns ∨ ms = ns ∧ s < t) : render layout ms s < render layout ns t := by
  induction hm generalizing ns with
  | nil =>
    cases hn
    rcases h with h | ⟨-, h⟩
    · exact absurd h (lt_irrefl _)
    · exact h
  | @cons place m layout ms hfit hm ih =>
    obtain _ | @⟨_, n, _, ns, hfit', hn⟩ := hn
    obtain ⟨sep, w⟩ := place
    rw [render, render, List.append_assoc, List.append_assoc]
    apply List.append_left_lt
    rw [List.cons_lt_cons_iff, List.cons_eq_cons] at h
    by_cases hmn : m = n
    · subst hmn
      apply List.append_left_lt
      apply ih hn
      simpa using h
    · have hlt : m < n := by
        rcases h with (h | ⟨h, -⟩) | ⟨⟨h, -⟩, -⟩
        · exact h
        · exact absurd h hmn
        · exact absurd h hmn
      have hlen : (padded w m).length = (padded w n).length := by
        rw [length_padded hfit.1 hfit.2, length_padded hfit'.1 hfit'.2]
      exact append_lt_append hlen (padded_lt_padded hfit.1 hlt hfit'.2) _ _

/-- **Texts of one layout** compare as their numbers, and then as what is behind these. -/
theorem render_lt_iff (hm : Fits layout ms) (hn : Fits layout ns) :
    render layout ms s < render layout ns t ↔ ms < ns ∨ ms = ns ∧ s < t := by
  constructor
  · intro h
    by_contra hnot
    rw [not_or, not_and] at hnot
    rcases (not_lt.mp hnot.1).lt_or_eq with hlt | heq
    · exact lt_asymm h (render_lt_render hn hm (.inl hlt))
    · subst heq
      rcases (not_lt.mp (hnot.2 rfl)).lt_or_eq with hlt | heq
      · exact lt_asymm h (render_lt_render hn hm (.inr ⟨rfl, hlt⟩))
      · subst heq
        exact lt_irrefl _ h
  · exact render_lt_render hm hn

end Layouts

section Groups

variable {z : Char} {zone : List Char}

/-- Three digits of each number, up to the last one that is not zero, and then `zone`. -/
def groups (zone : List Char) : List ℕ → List Char
  | [] => zone
  | g :: gs => if ∀ k ∈ g :: gs, k = 0 then zone else padded 3 g ++ groups zone gs

/-- Nothing of one length is smaller than zeros. -/
theorem not_lt_of_zeros {ms ns : List ℕ} (hlen : ms.length = ns.length) (hns : ∀ n ∈ ns, n = 0) :
    ¬ms < ns := by
  induction ms generalizing ns with
  | nil =>
    rw [List.eq_nil_of_length_eq_zero hlen.symm]
    exact lt_irrefl _
  | cons m ms ih =>
    obtain _ | ⟨n, ns⟩ := ns
    · exact List.not_lt_nil _
    obtain ⟨rfl, hrest⟩ := List.forall_mem_cons.mp hns
    rw [List.cons_lt_cons_iff]
    rintro (hlt | ⟨-, hlt⟩)
    · exact Nat.not_lt_zero _ hlt
    · exact ih (Nat.succ.inj hlen) hrest hlt

theorem groups_lt_groups (hz : z < '0') {gs hs : List ℕ} (hlen : gs.length = hs.length)
    (hgs : ∀ g ∈ gs, g < 1000) (hhs : ∀ h ∈ hs, h < 1000) (hlt : gs < hs) :
    groups (z :: zone) gs < groups (z :: zone) hs := by
  induction gs generalizing hs with
  | nil =>
    rw [List.eq_nil_of_length_eq_zero hlen.symm] at hlt
    exact absurd hlt (lt_irrefl _)
  | cons g gs ih =>
    obtain _ | ⟨h, hs⟩ := hs
    · cases hlen
    have hpos : ¬∀ k ∈ h :: hs, k = 0 := fun hzero => not_lt_of_zeros hlen hzero hlt
    have hh : h < 10 ^ 3 := hhs h List.mem_cons_self
    have hg : g < 10 ^ 3 := hgs g List.mem_cons_self
    rw [groups, groups, if_neg hpos]
    split
    · obtain ⟨c, rest, hp, hc⟩ := exists_padded_cons (by norm_num) hh
      rw [hp, List.cons_append, List.cons_lt_cons_iff]
      exact .inl (hz.trans_le hc)
    · rcases List.cons_lt_cons_iff.mp hlt with hgh | ⟨rfl, hrest⟩
      · have hlen : (padded 3 g).length = (padded 3 h).length := by
          rw [length_padded (by norm_num) hg, length_padded (by norm_num) hh]
        exact append_lt_append hlen (padded_lt_padded (by norm_num) hgh hh) _ _
      · apply List.append_left_lt
        exact ih (Nat.succ.inj hlen) (fun k hk => hgs k (List.mem_cons_of_mem _ hk))
          (fun k hk => hhs k (List.mem_cons_of_mem _ hk)) hrest

end Groups

end FixedWidth

end MeetilyLocal
