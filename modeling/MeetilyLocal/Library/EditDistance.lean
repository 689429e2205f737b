import Mathlib.Order.Bounds.Basic
import Mathlib.Order.MinMax
import Mathlib.Tactic.Common

/-!
# Edit distance

The least number of single-character edits that turn one list into another: insertions, deletions
and substitutions. The usual recursion computes it (`EditDistance.isLeast_distance`), so it is
symmetric and satisfies the triangle inequality, as the edits themselves do, and reversing both
lists does not change it. The recursion is from the front of the lists; a table that is filled from
its upper left corner is one over prefixes, and follows the same recursion at their ends
(`EditDistance.distance_concat`).
-/

namespace MeetilyLocal

namespace EditDistance

variable {α : Type*}

/-! ## Edits -/

/-- One edit, of one character. -/
inductive Edit : List α → List α → Prop
  | insert (before after : List α) (c : α) : Edit (before ++ after) (before ++ c :: after)
  | delete (before after : List α) (c : α) : Edit (before ++ c :: after) (before ++ after)
  | substitute (before after : List α) (c d : α) :
      Edit (before ++ c :: after) (before ++ d :: after)

/-- So many edits, one after the other. -/
inductive Edits : ℕ → List α → List α → Prop
  | refl (a : List α) : Edits 0 a a
  | step {n : ℕ} {a b c : List α} : Edit a b → Edits n b c → Edits (n + 1) a c

variable {a b c : List α} {m n : ℕ}

theorem Edit.symm (h : Edit a b) : Edit b a := by
  cases h with
  | insert before after c => exact .delete before after c
  | delete before after c => exact .insert before after c
  | substitute before after c d => exact .substitute before after d c

theorem Edit.cons (x : α) (h : Edit a b) : Edit (x :: a) (x :: b) := by
  cases h with
  | insert before after c => exact .insert (x :: before) after c
  | delete before after c => exact .delete (x :: before) after c
  | substitute before after c d => exact .substitute (x :: before) after c d

theorem Edit.reverse (h : Edit a b) : Edit a.reverse b.reverse := by
  cases h with
  | insert before after c => simpa using Edit.insert after.reverse before.reverse c
  | delete before after c => simpa using Edit.delete after.reverse before.reverse c
  | substitute before after c d => simpa using Edit.substitute after.reverse before.reverse c d

theorem Edits.trans (h : Edits m a b) (h' : Edits n b c) : Edits (m + n) a c := by
  induction h with
  | refl a => simpa using h'
  | step hedit hedits ih =>
    rw [Nat.add_right_comm]
    exact .step hedit (ih h')

theorem Edits.symm (h : Edits n a b) : Edits n b a := by
  induction h with
  | refl a => exact .refl a
  | step hedit hedits ih => exact ih.trans (.step hedit.symm (.refl _))

theorem Edits.cons (x : α) (h : Edits n a b) : Edits n (x :: a) (x :: b) := by
  induction h with
  | refl a => exact .refl _
  | step hedit hedits ih => exact .step (hedit.cons x) ih

theorem Edits.reverse (h : Edits n a b) : Edits n a.reverse b.reverse := by
  induction h with
  | refl a => exact .refl _
  | step hedit hedits ih => exact .step hedit.reverse ih

theorem edits_reverse : Edits n a.reverse b.reverse ↔ Edits n a b :=
  ⟨fun h => by simpa using h.reverse, Edits.reverse⟩

theorem edits_nil_left (b : List α) : Edits b.length [] b := by
  induction b with
  | nil => exact .refl _
  | cons y b ih => exact ih.trans (.step (.insert [] b y) (.refl _))

/-! ## The recursion -/

variable [DecidableEq α]

/-- The edit distance, by the first characters. -/
def distance : List α → List α → ℕ
  | [], b => b.length
  | a, [] => a.length
  | x :: a, y :: b =>
    min (min (distance a (y :: b) + 1) (distance (x :: a) b + 1))
      (distance a b + if x = y then 0 else 1)
termination_by a b => a.length + b.length

@[simp]
theorem distance_nil_left (b : List α) : distance [] b = b.length := by
  rw [distance]

@[simp]
theorem distance_nil_right (a : List α) : distance a [] = a.length := by
  cases a with
  | nil => rw [distance]
  | cons x a => rw [distance]; exact List.cons_ne_nil x a

theorem distance_cons (x y : α) (a b : List α) :
    distance (x :: a) (y :: b) =
      min (min (distance a (y :: b) + 1) (distance (x :: a) b + 1))
        (distance a b + if x = y then 0 else 1) := by
  rw [distance]

/-! ### It is reached -/

/-- So many edits as the distance are enough. -/
theorem edits_distance (a b : List α) : Edits (distance a b) a b := by
  induction a, b using distance.induct with
  | case1 b =>
    rw [distance_nil_left]
    exact edits_nil_left b
  | case2 a hne =>
    rw [distance_nil_right]
    exact (edits_nil_left a).symm
  | case3 x a y b ihdelete ihinsert ihkeep =>
    rw [distance_cons]
    rcases min_choice (min (distance a (y :: b) + 1) (distance (x :: a) b + 1))
      (distance a b + if x = y then 0 else 1) with hmin | hmin <;> rw [hmin]
    · rcases min_choice (distance a (y :: b) + 1) (distance (x :: a) b + 1) with hmin | hmin <;>
        rw [hmin]
      · exact .step (.delete [] a x) ihdelete
      · exact ihinsert.trans (.step (.insert [] b y) (.refl _))
    · split
      · next heq =>
        subst heq
        exact ihkeep.cons x
      · exact .step (.substitute [] a x y) (ihkeep.cons y)

/-! ### It is not undercut -/

theorem distance_cons_left_le (x : α) (a b : List α) : distance (x :: a) b ≤ distance a b + 1 := by
  cases b with
  | nil => simp
  | cons y b =>
    rw [distance_cons]
    omega

theorem distance_cons_right_le (y : α) (a b : List α) : distance a (y :: b) ≤ distance a b + 1 := by
  cases a with
  | nil => simp
  | cons x a =>
    rw [distance_cons]
    omega

theorem distance_le_cons_left (x : α) (a b : List α) : distance a b ≤ distance (x :: a) b + 1 := by
  induction b with
  | nil =>
    simp only [distance_nil_right, List.length_cons]
    omega
  | cons y b ih =>
    have hright := distance_cons_right_le y a b
    rw [distance_cons]
    omega

theorem distance_cons_cons_le (x y : α) (a b : List α) :
    distance (x :: a) b ≤ distance (y :: a) b + 1 := by
  induction b with
  | nil => simp
  | cons z b ih =>
    have hcost : (if x = z then 0 else 1) ≤ 1 := by split <;> omega
    rw [distance_cons, distance_cons]
    omega

/-- One edit changes the distance from anything by one at most. -/
theorem Edit.distance_le (h : Edit a b) (c : List α) : distance a c ≤ distance b c + 1 := by
  have hcons : ∀ (x : α) (a b : List α), (∀ c, distance a c ≤ distance b c + 1) →
      ∀ c, distance (x :: a) c ≤ distance (x :: b) c + 1 := by
    intro x a b hle c
    induction c with
    | nil => simpa using hle []
    | cons z c ih =>
      have hdelete := hle (z :: c)
      have hkeep := hle c
      rw [distance_cons, distance_cons]
      omega
  have hbefore : ∀ (before a b : List α), (∀ c, distance a c ≤ distance b c + 1) →
      ∀ c, distance (before ++ a) c ≤ distance (before ++ b) c + 1 := by
    intro before a b hle
    induction before with
    | nil => exact hle
    | cons x before ih => exact hcons x _ _ ih
  cases h with
  | insert before after x => exact hbefore before _ _ (fun c => distance_le_cons_left x after c) c
  | delete before after x => exact hbefore before _ _ (fun c => distance_cons_left_le x after c) c
  | substitute before after x y => exact hbefore before _ _ (distance_cons_cons_le x y after) c

theorem distance_self (a : List α) : distance a a = 0 := by
  induction a with
  | nil => rw [distance_nil_left, List.length_nil]
  | cons x a ih =>
    rw [distance_cons, ih, if_pos rfl]
    omega

theorem Edits.distance_le (h : Edits n a b) : distance a b ≤ n := by
  induction h with
  | refl a => rw [distance_self]
  | step hedit hedits ih => exact (hedit.distance_le _).trans (Nat.succ_le_succ ih)

/-! ## The least number of edits -/

/-- **The recursion computes the least number of edits.** -/
theorem isLeast_distance (a b : List α) : IsLeast {n | Edits n a b} (distance a b) :=
  ⟨edits_distance a b, fun _ h => h.distance_le⟩

theorem distance_comm (a b : List α) : distance a b = distance b a :=
  le_antisymm (edits_distance b a).symm.distance_le (edits_distance a b).symm.distance_le

theorem distance_triangle (a b c : List α) : distance a c ≤ distance a b + distance b c :=
  ((edits_distance a b).trans (edits_distance b c)).distance_le

theorem distance_le_max_length (a b : List α) : distance a b ≤ max a.length b.length := by
  induction a, b using distance.induct with
  | case1 b => simp
  | case2 a hne => simp
  | case3 x a y b ihdelete ihinsert ihkeep =>
    have hcost : (if x = y then 0 else 1) ≤ 1 := by split <;> omega
    rw [distance_cons]
    simp only [List.length_cons]
    omega

@[simp]
theorem distance_reverse (a b : List α) : distance a.reverse b.reverse = distance a b :=
  le_antisymm (edits_reverse.mpr (edits_distance a b)).distance_le
    (edits_reverse.mp (edits_distance _ _)).distance_le

/-- The recursion at the ends of the lists. -/
theorem distance_concat (x y : α) (a b : List α) :
    distance (a ++ [x]) (b ++ [y]) =
      min (min (distance a (b ++ [y]) + 1) (distance (a ++ [x]) b + 1))
        (distance a b + if x = y then 0 else 1) := by
  have hcons := distance_cons x y a.reverse b.reverse
  have hconcat : ∀ (z : α) (l : List α), z :: l.reverse = (l ++ [z]).reverse := by simp
  rwa [hconcat, hconcat, distance_reverse, distance_reverse, distance_reverse,
    distance_reverse] at hcons

end EditDistance

end MeetilyLocal
