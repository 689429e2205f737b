import Mathlib.Data.List.Infix
import Mathlib.Data.List.Chain

/-!
# Squares

A *square* is a block that is immediately followed by itself. `AvoidsSquares lo hi` says that a list has
none whose block has from `lo` to `hi` elements; squares of one element are those of a list that is not a
chain of `≠` (`avoidsSquares_one_iff`). As a list grows at its end, a square is seen when its last element
comes (`avoidsSquares_append`).
-/

namespace MeetilyLocal

namespace Squares

universe u

variable {α : Type u} {lo hi : ℕ} {l m : List α}

/-- No block of from `lo` to `hi` elements is immediately followed by itself. -/
def AvoidsSquares (lo hi : ℕ) (l : List α) : Prop :=
  ∀ x : List α, lo ≤ x.length → x.length ≤ hi → ¬x ++ x <:+: l

/-- None ends where the list does. -/
def NoSquareEnds (lo hi : ℕ) (l : List α) : Prop :=
  ∀ x : List α, lo ≤ x.length → x.length ≤ hi → ¬x ++ x <:+ l

/-- None begins where the list does. -/
def NoSquareBegins (lo hi : ℕ) (l : List α) : Prop :=
  ∀ x : List α, lo ≤ x.length → x.length ≤ hi → ¬x ++ x <+: l

theorem AvoidsSquares.of_isInfix (h : AvoidsSquares lo hi m) (hl : l <:+: m) : AvoidsSquares lo hi l :=
  fun x hlo hhi hx => h x hlo hhi (hx.trans hl)

theorem avoidsSquares_nil (hlo : 0 < lo) : AvoidsSquares lo hi ([] : List α) := by
  intro x hx _ hinside
  have hnil := List.infix_nil.mp hinside
  simp [List.append_eq_nil_iff.mp hnil |>.1] at hx
  omega

theorem avoidsSquares_cons {a : α} :
    AvoidsSquares lo hi (a :: l) ↔ NoSquareBegins lo hi (a :: l) ∧ AvoidsSquares lo hi l := by
  constructor
  · intro h
    exact ⟨fun x hx hx' hbegins => h x hx hx' hbegins.isInfix,
      h.of_isInfix (List.infix_cons List.infix_rfl)⟩
  · rintro ⟨hbegins, hrest⟩ x hx hx' hinside
    obtain hhead | htail := List.infix_cons_iff.mp hinside
    · exact hbegins x hx hx' hhead
    · exact hrest x hx hx' htail

theorem avoidsSquares_concat {a : α} :
    AvoidsSquares lo hi (l ++ [a]) ↔ AvoidsSquares lo hi l ∧ NoSquareEnds lo hi (l ++ [a]) := by
  constructor
  · intro h
    exact ⟨h.of_isInfix (List.prefix_append l [a]).isInfix,
      fun x hx hx' hends => h x hx hx' hends.isInfix⟩
  · rintro ⟨hrest, hends⟩ x hx hx' hinside
    obtain hlast | hinit := List.infix_concat_iff.mp hinside
    · exact hends x hx hx' hlast
    · exact hrest x hx hx' hinit

/-- **What is added** makes a square exactly if one ends in it. -/
theorem avoidsSquares_append :
    AvoidsSquares lo hi (l ++ m) ↔
      AvoidsSquares lo hi l ∧ ∀ y, y ≠ [] → y <+: m → NoSquareEnds lo hi (l ++ y) := by
  induction m using List.reverseRecOn with
  | nil =>
    rw [List.append_nil, iff_self_and]
    intro _ y hne hy
    exact absurd (List.prefix_nil.mp hy) hne
  | append_singleton m a ih =>
    rw [← List.append_assoc, avoidsSquares_concat, ih]
    constructor
    · rintro ⟨⟨hl, hm⟩, hends⟩
      refine ⟨hl, fun y hne hy => ?_⟩
      obtain rfl | hy := List.prefix_concat_iff.mp hy
      · rwa [← List.append_assoc]
      · exact hm y hne hy
    · rintro ⟨hl, hm⟩
      refine ⟨⟨hl, fun y hne hy => hm y hne (hy.trans (List.prefix_append m [a]))⟩, ?_⟩
      rw [List.append_assoc]
      exact hm _ (by simp) List.prefix_rfl

/-- Squares of one element. -/
theorem avoidsSquares_one_iff : AvoidsSquares 1 1 l ↔ l.IsChain (· ≠ ·) := by
  rw [List.isChain_iff_forall_rel_of_append_cons_cons]
  constructor
  · rintro h a b front back rfl rfl
    exact h [a] le_rfl le_rfl ⟨front, back, by simp⟩
  · rintro h x hx hx' ⟨front, back, hl⟩
    obtain ⟨a, rfl⟩ := List.length_eq_one_iff.mp (le_antisymm hx' hx)
    exact h (show l = front ++ a :: a :: back by simpa using hl.symm) rfl

/-- The squares of all lengths are those up to one and those from the next on. -/
theorem avoidsSquares_split (mid : ℕ) (hlo : lo ≤ mid + 1) (hhi : mid ≤ hi) :
    AvoidsSquares lo hi l ↔ AvoidsSquares lo mid l ∧ AvoidsSquares (mid + 1) hi l := by
  constructor
  · intro h
    exact ⟨fun x hx hx' => h x hx (hx'.trans hhi), fun x hx hx' => h x (hlo.trans hx) hx'⟩
  · rintro ⟨hshort, hlong⟩ x hx hx'
    obtain hle | hlt := Nat.lt_or_ge mid x.length |>.symm
    · exact hshort x hx hle
    · exact hlong x hlt hx'

end Squares

end MeetilyLocal
