import Mathlib.Algebra.Group.Action.Defs
import Mathlib.Algebra.Order.BigOperators.Group.List
import Mathlib.Algebra.Order.Ring.Nat
import Mathlib.Data.List.Chain
import Mathlib.Order.Nat
import Mathlib.Tactic.Common

/-!
# Cutting a list at positions

A cut of a stretch `[a, b)` is a list of ranges, each starting where the one before it ends
(`Contiguous`). The slices of a list along it concatenate to its slice `[a, b)`
(`Contiguous.flatten_slices`), and a function of the positions takes a cut to a cut
(`Contiguous.map`), so that cuts by position and cuts by time are cuts in one sense.

`slice?` is slicing as it is in a program: it fails where a bound is outside of the list. `walk` is the
loop that cuts a list from its start to its end, one piece at a time, and `exists_walk` is the rule for
it: what is so of each step is so of the whole cut.

Ranges that may overlap reach from `a` to `b` if none starts after the one before it ends (`Covers`).
There are only so many of them if each ends after the one before it (`length_mul_le_of_advances`).
-/

namespace MeetilyLocal

namespace Cuts

universe u v

variable {α : Type u} {β : Type v}

/-- The ranges lead from `a` to `b`. -/
def Contiguous (a b : α) : List (α × α) → Prop
  | [] => a = b
  | range :: ranges => range.1 = a ∧ Contiguous range.2 b ranges

/-- The elements at the positions of a range. -/
def slice (xs : List β) (range : ℕ × ℕ) : List β := (xs.drop range.1).take (range.2 - range.1)

/-- The elements from `lo` up to `hi`; none if the list has no such positions. -/
def slice? (xs : List β) (lo hi : ℕ) : Option (List β) :=
  if lo ≤ hi ∧ hi ≤ xs.length then some (slice xs (lo, hi)) else none

/-! ## Slices -/

theorem slice?_eq_some {xs : List β} {lo hi : ℕ} (hle : lo ≤ hi) (hin : hi ≤ xs.length) :
    slice? xs lo hi = some (slice xs (lo, hi)) := if_pos ⟨hle, hin⟩

theorem length_slice {xs : List β} {lo hi : ℕ} (hin : hi ≤ xs.length) :
    (slice xs (lo, hi)).length = hi - lo := by
  rw [slice, List.length_take, List.length_drop]
  omega

@[simp] theorem slice_self (xs : List β) (a : ℕ) : slice xs (a, a) = [] := by
  simp [slice]

theorem slice_length (xs : List β) (lo : ℕ) : slice xs (lo, xs.length) = xs.drop lo := by
  simp [slice, List.take_of_length_le]

@[simp] theorem slice_zero_length (xs : List β) : slice xs (0, xs.length) = xs :=
  slice_length xs 0

/-- Steps that do not fail make of a list what they make of its elements. -/
theorem mapM_of_some {f : α → Option β} {g : α → β} {xs : List α}
    (h : ∀ x ∈ xs, f x = some (g x)) : xs.mapM f = some (xs.map g) := by
  induction xs with
  | nil => rfl
  | cons x xs ih =>
    obtain ⟨hx, hrest⟩ := List.forall_mem_cons.mp h
    rw [List.mapM_cons, hx, ih hrest]
    rfl

theorem length_of_mapM {f : α → Option β} {xs : List α} {ys : List β} (h : xs.mapM f = some ys) :
    ys.length = xs.length := by
  induction xs generalizing ys with
  | nil =>
    obtain rfl := Option.some.inj h
    rfl
  | cons x xs ih =>
    rw [List.mapM_cons] at h
    obtain ⟨y, -, hrest⟩ := Option.bind_eq_some_iff.mp h
    obtain ⟨ys, hys, hcons⟩ := Option.bind_eq_some_iff.mp hrest
    obtain rfl := Option.some.inj hcons
    rw [List.length_cons, List.length_cons, ih hys]

theorem mapM_slice? {xs : List β} {ranges : List (ℕ × ℕ)}
    (h : ∀ range ∈ ranges, range.1 ≤ range.2 ∧ range.2 ≤ xs.length) :
    (ranges.mapM fun range => slice? xs range.1 range.2) = some (ranges.map (slice xs)) :=
  mapM_of_some fun range hrange => slice?_eq_some (h range hrange).1 (h range hrange).2

/-- Adjacent slices concatenate. -/
theorem slice_append (xs : List β) {a m b : ℕ} (ham : a ≤ m) (hmb : m ≤ b) :
    slice xs (a, m) ++ slice xs (m, b) = slice xs (a, b) := by
  have hdrop : xs.drop m = (xs.drop a).drop (m - a) := by
    rw [List.drop_drop, Nat.add_sub_cancel' ham]
  have hlength : b - a = (m - a) + (b - m) := by omega
  simp only [slice]
  rw [hlength, List.take_add, hdrop]

/-! ## Contiguous ranges -/

namespace Contiguous

/-- A function of the positions takes a cut to a cut. -/
theorem map {f : α → β} {a b : α} {ranges : List (α × α)} (h : Contiguous a b ranges) :
    Contiguous (f a) (f b) (ranges.map fun range => (f range.1, f range.2)) := by
  induction ranges generalizing a with
  | nil => exact congrArg f h
  | cons range ranges ih => exact ⟨congrArg f h.1, ih h.2⟩

theorem append {a m b : α} {ranges more : List (α × α)} (h : Contiguous a m ranges)
    (hmore : Contiguous m b more) : Contiguous a b (ranges ++ more) := by
  induction ranges generalizing a with
  | nil =>
    obtain rfl : a = m := h
    exact hmore
  | cons range ranges ih => exact ⟨h.1, ih h.2⟩

theorem le [Preorder α] {a b : α} {ranges : List (α × α)} (h : Contiguous a b ranges)
    (hle : ∀ range ∈ ranges, range.1 ≤ range.2) : a ≤ b := by
  induction ranges generalizing a with
  | nil =>
    obtain rfl : a = b := h
    exact le_rfl
  | cons range ranges ih =>
    obtain ⟨rfl, hrest⟩ := h
    exact (hle range (by simp)).trans (ih hrest fun r hr => hle r (by simp [hr]))

/-- The ranges of a cut are within it. -/
theorem mem_bounds [Preorder α] {a b : α} {ranges : List (α × α)} (h : Contiguous a b ranges)
    (hle : ∀ range ∈ ranges, range.1 ≤ range.2) {range : α × α} (hrange : range ∈ ranges) :
    a ≤ range.1 ∧ range.2 ≤ b := by
  induction ranges generalizing a with
  | nil => cases hrange
  | cons first ranges ih =>
    obtain ⟨rfl, hrest⟩ := h
    have hrest_le : ∀ r ∈ ranges, r.1 ≤ r.2 := fun r hr => hle r (by simp [hr])
    rcases List.mem_cons.mp hrange with rfl | hmem
    · exact ⟨le_rfl, hrest.le hrest_le⟩
    · obtain ⟨hlow, hhigh⟩ := ih hrest hrest_le hmem
      exact ⟨(hle first (by simp)).trans hlow, hhigh⟩

/-- There are no more ranges than positions, if none of them is empty. -/
theorem add_length_le {a n : ℕ} {ranges : List (ℕ × ℕ)} (h : Contiguous a n ranges)
    (hlt : ∀ range ∈ ranges, range.1 < range.2) : a + ranges.length ≤ n := by
  induction ranges generalizing a with
  | nil =>
    obtain rfl : a = n := h
    simp
  | cons range ranges ih =>
    have hfirst := hlt range List.mem_cons_self
    have hrest := ih h.2 fun range hmem => hlt range (List.mem_cons_of_mem _ hmem)
    have hstart : range.1 = a := h.1
    rw [List.length_cons]
    omega

theorem of_append {a b : α} {ranges more : List (α × α)} (h : Contiguous a b (ranges ++ more)) :
    ∃ m, Contiguous a m ranges ∧ Contiguous m b more := by
  induction ranges generalizing a with
  | nil => exact ⟨a, rfl, h⟩
  | cons range ranges ih =>
    obtain ⟨hfirst, hrest⟩ := h
    obtain ⟨m, hranges, hmore⟩ := ih hrest
    exact ⟨m, ⟨hfirst, hranges⟩, hmore⟩

/-- **Nothing is lost, nothing is repeated**: the slices along a cut concatenate to what was cut. -/
theorem flatten_slices {xs : List β} {a b : ℕ} {ranges : List (ℕ × ℕ)} (h : Contiguous a b ranges)
    (hle : ∀ range ∈ ranges, range.1 ≤ range.2) :
    (ranges.map (slice xs)).flatten = slice xs (a, b) := by
  induction ranges generalizing a with
  | nil =>
    obtain rfl : a = b := h
    simp
  | cons range ranges ih =>
    obtain ⟨lo, hi⟩ := range
    obtain ⟨rfl, hrest⟩ := h
    have hrest_le : ∀ r ∈ ranges, r.1 ≤ r.2 := fun r hr => hle r (by simp [hr])
    rw [List.map_cons, List.flatten_cons, ih hrest hrest_le,
      slice_append xs (hle (lo, hi) (by simp)) (hrest.le hrest_le)]

end Contiguous

/-! ## The positions of a cut -/

/-- Where the `i`-th range starts; where the cut ends, if there is no such range. -/
def position (b : α) (ranges : List (α × α)) (i : ℕ) : α := ((ranges[i]?).map Prod.fst).getD b

@[simp] theorem position_length (b : α) (ranges : List (α × α)) :
    position b ranges ranges.length = b := by
  simp [position]

theorem position_cons_succ (b : α) (range : α × α) (ranges : List (α × α)) (i : ℕ) :
    position b (range :: ranges) (i + 1) = position b ranges i := by
  simp [position]

namespace Contiguous

theorem position_zero {a b : α} {ranges : List (α × α)} (h : Contiguous a b ranges) :
    position b ranges 0 = a := by
  cases ranges with
  | nil => exact Eq.symm h
  | cons range ranges => exact h.1

/-- A range is from its position to the next one. -/
theorem getElem?_eq {a b : α} {ranges : List (α × α)} {i : ℕ} (h : Contiguous a b ranges)
    (hi : i < ranges.length) :
    ranges[i]? = some (position b ranges i, position b ranges (i + 1)) := by
  induction ranges generalizing a i with
  | nil => cases hi
  | cons range ranges ih =>
    rw [position_cons_succ]
    cases i with
    | zero =>
      rw [h.2.position_zero]
      rfl
    | succ i =>
      rw [List.getElem?_cons_succ, position_cons_succ]
      exact ih h.2 (by simpa using hi)

theorem position_lt [Preorder α] {a b : α} {ranges : List (α × α)} (h : Contiguous a b ranges)
    (hlt : ∀ range ∈ ranges, range.1 < range.2) {i j : ℕ} (hij : i < j) (hj : j ≤ ranges.length) :
    position b ranges i < position b ranges j := by
  induction j, hij using Nat.le_induction with
  | base => exact hlt _ (List.mem_of_getElem? (h.getElem?_eq hj))
  | succ j hij ih =>
    exact (ih (by omega)).trans (hlt _ (List.mem_of_getElem? (h.getElem?_eq hj)))

end Contiguous

/-! ## Cutting piece by piece -/

/-- The pieces of a loop over positions: `next` makes the piece at a position and says where the next
one starts. None if a piece is not made, or does not come to an end, with which the loop does not. -/
def walk (next : ℕ → Option (β × ℕ)) (total pos : ℕ) : Option (List β) :=
  if pos < total then
    match next pos with
    | none => none
    | some (piece, pos') =>
      if pos < pos' then (walk next total pos').map (piece :: ·) else none
  else some []
termination_by total - pos

/-- **A loop that advances** cuts what there is, if each of its pieces is that of a range. -/
theorem exists_walk {next : ℕ → Option (β × ℕ)} {total : ℕ} (pieceOf : ℕ × ℕ → β)
    (good : ℕ × ℕ → Prop)
    (h : ∀ pos < total, ∃ pos', next pos = some (pieceOf (pos, pos'), pos') ∧
      pos < pos' ∧ pos' ≤ total ∧ good (pos, pos')) {pos : ℕ} (hpos : pos ≤ total) :
    ∃ ranges, walk next total pos = some (ranges.map pieceOf) ∧ Contiguous pos total ranges ∧
      ∀ range ∈ ranges, range.1 < range.2 ∧ range.2 ≤ total ∧ good range := by
  fun_induction walk next total pos with
  | case1 pos hlt hnone =>
    obtain ⟨pos', hnext, -⟩ := h pos hlt
    rw [hnone] at hnext
    cases hnext
  | case2 pos hlt piece pos' hnext hadvance ih =>
    obtain ⟨pos'', hpiece, -, hle, hgood⟩ := h pos hlt
    obtain ⟨rfl, rfl⟩ := Prod.mk.inj (Option.some.inj (hnext.symm.trans hpiece))
    obtain ⟨ranges, hwalk, hcontiguous, hranges⟩ := ih hle
    refine ⟨(pos, _) :: ranges, by rw [hwalk]; rfl, ⟨rfl, hcontiguous⟩, ?_⟩
    exact List.forall_mem_cons.mpr ⟨⟨hadvance, hle, hgood⟩, hranges⟩
  | case3 pos hlt piece pos' hnext hstuck =>
    obtain ⟨pos'', hpiece, hadvance, -⟩ := h pos hlt
    obtain ⟨rfl, rfl⟩ := Prod.mk.inj (Option.some.inj (hnext.symm.trans hpiece))
    exact absurd hadvance hstuck
  | case4 pos hge =>
    obtain rfl : pos = total := by omega
    exact ⟨[], rfl, rfl, by simp⟩

/-! ## Ranges that overlap -/

/-- The ranges reach from `a` to `b`: each starts no later than the one before it ends. -/
def Covers [LE α] (a b : α) : List (α × α) → Prop
  | [] => a = b
  | range :: ranges => range.1 ≤ a ∧ Covers range.2 b ranges

namespace Covers

theorem head_le [LE α] {a b : α} {ranges : List (α × α)} (h : Covers a b ranges)
    {range : α × α} (hrange : ranges.head? = some range) : range.1 ≤ a := by
  cases ranges with
  | nil => cases hrange
  | cons first ranges =>
    obtain rfl := Option.some.inj hrange
    exact h.1

theorem eq_of_getLast? [LE α] {a b : α} {ranges : List (α × α)} (h : Covers a b ranges)
    {range : α × α} (hrange : ranges.getLast? = some range) : range.2 = b := by
  induction ranges generalizing a with
  | nil => cases hrange
  | cons first ranges ih =>
    cases ranges with
    | nil =>
      obtain rfl := Option.some.inj hrange
      exact h.2
    | cons second ranges => exact ih h.2 (by simpa using hrange)

theorem isChain [LE α] {a b : α} {ranges : List (α × α)} (h : Covers a b ranges) :
    ranges.IsChain fun range next => next.1 ≤ range.2 := by
  induction ranges generalizing a with
  | nil => exact .nil
  | cons first ranges ih =>
    cases ranges with
    | nil => exact .singleton first
    | cons second ranges => exact .cons_cons h.2.1 (ih h.2)

/-- **Nothing falls between the ranges.** -/
theorem exists_mem [LinearOrder α] {a b i : α} {ranges : List (α × α)} (h : Covers a b ranges)
    (hai : a ≤ i) (hib : i < b) : ∃ range ∈ ranges, range.1 ≤ i ∧ i < range.2 := by
  induction ranges generalizing a with
  | nil =>
    obtain rfl : a = b := h
    exact absurd hib (not_lt.mpr hai)
  | cons first ranges ih =>
    rcases lt_or_ge i first.2 with hlt | hge
    · exact ⟨first, List.mem_cons_self, h.1.trans hai, hlt⟩
    · obtain ⟨range, hmem, hin⟩ := ih h.2 hge
      exact ⟨range, List.mem_cons_of_mem _ hmem, hin⟩

end Covers

/-! ## Ranges that advance -/

/-- By how much each range ends after the one before it, the first one after `a`. -/
def advances (a : ℕ) : List (ℕ × ℕ) → List ℕ
  | [] => []
  | range :: ranges => (range.2 - a) :: advances range.2 ranges

@[simp] theorem length_advances (a : ℕ) (ranges : List (ℕ × ℕ)) :
    (advances a ranges).length = ranges.length := by
  induction ranges generalizing a with
  | nil => rfl
  | cons range ranges ih => rw [advances, List.length_cons, ih, List.length_cons]

/-- All they advance is within where they end. -/
theorem sum_advances_le {a b : ℕ} {ranges : List (ℕ × ℕ)} (hb : ∀ range ∈ ranges, range.2 ≤ b)
    (hends : ranges.IsChain fun range next => range.2 < next.2)
    (hfirst : ∀ range, ranges.head? = some range → a ≤ range.2) :
    (advances a ranges).sum ≤ b - a := by
  induction ranges generalizing a with
  | nil => exact Nat.zero_le _
  | cons range ranges ih =>
    obtain ⟨hrange, hmore⟩ := List.forall_mem_cons.mp hb
    obtain ⟨hnext, hrest⟩ := List.isChain_cons.mp hends
    have hle := ih hmore hrest fun next hhead => (hnext next hhead).le
    have hstart := hfirst range rfl
    rw [advances, List.sum_cons]
    omega

/-- **There are no more** than fit at the smallest advance. -/
theorem length_mul_le_of_advances {b d : ℕ} {ranges : List (ℕ × ℕ)}
    (hb : ∀ range ∈ ranges, range.2 ≤ b)
    (hends : ranges.IsChain fun range next => range.2 < next.2)
    (hd : ∀ advance ∈ advances 0 ranges, d ≤ advance) : ranges.length * d ≤ b := by
  have hsum := List.card_nsmul_le_sum (advances 0 ranges) d hd
  rw [length_advances, smul_eq_mul] at hsum
  exact hsum.trans (sum_advances_le hb hends fun range _ => Nat.zero_le _)

end Cuts

end MeetilyLocal
