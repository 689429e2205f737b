import Mathlib.Data.List.Basic
import Mathlib.Tactic.Common

/-!
# Lists placed on a timeline

A list `xs` placed at position `s` is a function on positions: its `i`-th element at `s + i`,
zero everywhere else. A window of such a function is the list of its values on `[p, p + w)`.

This is the view under which a buffer that drops from its front and grows at its back does not
move: dropping `k` elements and advancing the start by `k` leaves the later values alone
(`placed_drop`), and consecutive windows concatenate to one (`window_append`).
-/

namespace MeetilyLocal

namespace Timeline

universe u

variable {α : Type u}

/-- The list `xs` placed at position `s`, zero elsewhere. -/
def placed [Zero α] (s : ℕ) (xs : List α) (p : ℕ) : α :=
  if s ≤ p then (xs[p - s]?).getD 0 else 0

/-- The values of `f` on `[p, p + w)`. -/
def window (f : ℕ → α) (p w : ℕ) : List α := (List.range w).map fun i => f (p + i)

/-! ## Windows -/

@[simp] theorem length_window (f : ℕ → α) (p w : ℕ) : (window f p w).length = w := by
  simp [window]

theorem getElem?_window (f : ℕ → α) (p w i : ℕ) :
    (window f p w)[i]? = if i < w then some (f (p + i)) else none := by
  by_cases h : i < w
  · simp [window, h]
  · simp [window, h]

theorem getElem?_window_of_lt {f : ℕ → α} {p w i : ℕ} (h : i < w) :
    (window f p w)[i]? = some (f (p + i)) := by
  rw [getElem?_window, if_pos h]

/-- Consecutive windows concatenate. -/
theorem window_append (f : ℕ → α) (p v w : ℕ) :
    window f p v ++ window f (p + v) w = window f p (v + w) := by
  simp [window, List.range_add, Nat.add_assoc]

theorem window_congr {f g : ℕ → α} {p w : ℕ} (h : ∀ i < w, f (p + i) = g (p + i)) :
    window f p w = window g p w := by
  unfold window
  exact List.map_congr_left fun i hi => h i (List.mem_range.mp hi)

/-! ## Placed lists -/

variable [Zero α]

theorem placed_of_lt {s p : ℕ} (xs : List α) (h : p < s) : placed s xs p = 0 := by
  rw [placed, if_neg (by omega)]

@[simp] theorem placed_nil (s p : ℕ) : placed s ([] : List α) p = 0 := by
  simp [placed]

theorem placed_add (s i : ℕ) (xs : List α) : placed s xs (s + i) = (xs[i]?).getD 0 := by
  simp [placed]

theorem placed_of_getElem? {s i : ℕ} {xs : List α} {x : α} (h : xs[i]? = some x) :
    placed s xs (s + i) = x := by
  rw [placed_add, h, Option.getD_some]

/-- A value that is not zero is one of the list's elements. -/
theorem getElem?_of_placed_ne_zero {s p : ℕ} {xs : List α} (h : placed s xs p ≠ 0) :
    s ≤ p ∧ xs[p - s]? = some (placed s xs p) := by
  by_cases hs : s ≤ p
  · refine ⟨hs, ?_⟩
    rw [placed, if_pos hs] at h ⊢
    rcases hx : xs[p - s]? with _ | x
    · rw [hx] at h
      exact absurd rfl h
    · rfl
  · exact absurd (placed_of_lt xs (by omega)) h

/-- Dropping from the front and advancing the start moves nothing. -/
theorem placed_drop {s k p : ℕ} (xs : List α) (h : s + k ≤ p) :
    placed (s + k) (xs.drop k) p = placed s xs p := by
  rw [placed, placed, if_pos h, if_pos (by omega), List.getElem?_drop]
  congr 2
  omega

/-- The window of a placed list, written out: zeros up to its start, what there is of it, zeros
after its end. -/
theorem window_placed {s p w : ℕ} (xs : List α) (h : p ≤ s) :
    window (placed s xs) p w =
      (List.replicate (s - p) 0 ++ xs ++ List.replicate (w - (s - p) - xs.length) 0).take w := by
  apply List.ext_getElem?
  intro i
  rw [getElem?_window, List.getElem?_take]
  by_cases hi : i < w
  · rw [if_pos hi, if_pos hi, List.append_assoc, List.getElem?_append]
    by_cases hz : i < s - p
    · rw [placed_of_lt xs (by omega)]
      simp [hz]
    · have hpos : p + i = s + (i - (s - p)) := by omega
      rw [hpos, placed_add, List.length_replicate, if_neg hz, List.getElem?_append]
      by_cases hx : i - (s - p) < xs.length
      · simp [hx]
      · rw [if_neg hx, List.getElem?_eq_none (by omega), List.getElem?_replicate,
          if_pos (by omega), Option.getD_none]
  · rw [if_neg hi, if_neg hi]

end Timeline

end MeetilyLocal
