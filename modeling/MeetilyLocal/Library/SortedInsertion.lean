import Mathlib.Data.List.Sort
import Mathlib.Tactic.Common

/-!
# Insertion into a sorted list

Where an element goes in a list that is sorted by a key is found by halving
(`slice::partition_point`), which gives the number of elements in front of it (`partitionPoint_append`).
A list that mirrors another one is kept up to date by splices (`splice_append`).
-/

namespace MeetilyLocal

variable {α : Type*}

section PartitionPoint

variable {p : α → Bool} {xs front back : List α}

/-- The point is one of the places from `base` to `base + size`; the element in the middle tells in
which half. -/
def partitionBetween (p : α → Bool) (xs : List α) : ℕ → ℕ → ℕ → ℕ
  | 0, base, _ => base
  | fuel + 1, base, size =>
    if size = 0 then base
    else
      match xs[base + size / 2]? with
      | none => base
      | some x =>
        if p x then partitionBetween p xs fuel (base + size / 2 + 1) (size - size / 2 - 1)
        else partitionBetween p xs fuel base (size / 2)

/-- `slice::partition_point` -/
def partitionPoint (p : α → Bool) (xs : List α) : ℕ := partitionBetween p xs xs.length 0 xs.length

theorem partitionBetween_append (hfront : ∀ x ∈ front, p x = true)
    (hback : ∀ x ∈ back, p x = false) :
    ∀ fuel base size, size ≤ fuel → base ≤ front.length → front.length ≤ base + size →
      base + size ≤ front.length + back.length →
      partitionBetween p (front ++ back) fuel base size = front.length := by
  intro fuel
  induction fuel with
  | zero =>
    intro base size hfuel hlow hhigh _
    rw [partitionBetween]
    omega
  | succ fuel ih =>
    intro base size hfuel hlow hhigh hend
    rw [partitionBetween]
    split
    · omega
    have hmid : base + size / 2 < (front ++ back).length := by
      rw [List.length_append]
      omega
    rw [List.getElem?_eq_getElem hmid]
    by_cases hside : base + size / 2 < front.length
    · have hp : p (front ++ back)[base + size / 2] = true := by
        rw [List.getElem_append_left hside]
        exact hfront _ (List.getElem_mem _)
      simp only [hp, if_true]
      apply ih <;> omega
    · have hp : p (front ++ back)[base + size / 2] = false := by
        rw [List.getElem_append_right (by omega)]
        exact hback _ (List.getElem_mem _)
      simp only [hp, Bool.false_eq_true, if_false]
      apply ih <;> omega

/-- It is the number of elements for which `p` holds, if these come first. -/
theorem partitionPoint_append (hfront : ∀ x ∈ front, p x = true)
    (hback : ∀ x ∈ back, p x = false) : partitionPoint p (front ++ back) = front.length := by
  apply partitionBetween_append hfront hback <;> simp

end PartitionPoint

section SortedBy

variable {κ : Type*} [LinearOrder κ] {key : α → κ} {xs front back : List α} {a old : α}

/-- Sorted by the key, and no key is there twice. -/
def SortedBy (key : α → κ) (xs : List α) : Prop := xs.Pairwise fun a b => key a < key b

namespace SortedBy

/-- The smaller ones come first. -/
theorem exists_partition (h : SortedBy key xs) (k : κ) :
    ∃ front back, xs = front ++ back ∧ (∀ x ∈ front, key x ≤ k) ∧ ∀ x ∈ back, k < key x := by
  induction xs with
  | nil => exact ⟨[], [], rfl, by simp, by simp⟩
  | cons x xs ih =>
    obtain ⟨hx, h⟩ := List.pairwise_cons.mp h
    by_cases hk : key x ≤ k
    · obtain ⟨front, back, rfl, hfront, hback⟩ := ih h
      refine ⟨x :: front, back, rfl, ?_, hback⟩
      intro y hy
      rcases List.mem_cons.mp hy with rfl | hy
      · exact hk
      · exact hfront y hy
    · refine ⟨[], x :: xs, rfl, by simp, ?_⟩
      have hk := lt_of_not_ge hk
      intro y hy
      rcases List.mem_cons.mp hy with rfl | hy
      · exact hk
      · exact hk.trans (hx y hy)

theorem insert (h : SortedBy key (front ++ back)) (hfront : ∀ x ∈ front, key x < key a)
    (hback : ∀ x ∈ back, key a < key x) : SortedBy key (front ++ a :: back) := by
  obtain ⟨hf, hb, hfb⟩ := List.pairwise_append.mp h
  apply List.pairwise_append.mpr
  refine ⟨hf, List.pairwise_cons.mpr ⟨hback, hb⟩, ?_⟩
  intro x hx y hy
  rcases List.mem_cons.mp hy with rfl | hy
  · exact hfront x hx
  · exact hfb x hx y hy

theorem erase (h : SortedBy key (front ++ old :: back)) : SortedBy key (front ++ back) :=
  List.Pairwise.sublist (List.Sublist.append_left (List.sublist_cons_self old back) front) h

/-- What stands in front of an element is smaller, and what stands behind it is greater. -/
theorem lt_middle (h : SortedBy key (front ++ old :: back)) :
    (∀ x ∈ front, key x < key old) ∧ ∀ x ∈ back, key old < key x := by
  obtain ⟨-, hold, hfront⟩ := List.pairwise_append.mp h
  obtain ⟨hback, -⟩ := List.pairwise_cons.mp hold
  exact ⟨fun x hx => hfront x hx old List.mem_cons_self, hback⟩

end SortedBy

end SortedBy

section Splice

variable {front mid back items : List α} {a old : α}

/-- Put `items` in the place of those from `start` to `stop`; it is a failure if there is no such
range. -/
def splice (start stop : ℕ) (items xs : List α) : Option (List α) :=
  if start ≤ stop ∧ stop ≤ xs.length then some (xs.take start ++ items ++ xs.drop stop) else none

theorem splice_append (front mid items back : List α) :
    splice front.length (front.length + mid.length) items (front ++ mid ++ back) =
      some (front ++ items ++ back) := by
  have hrange : front.length ≤ front.length + mid.length ∧
      front.length + mid.length ≤ (front ++ mid ++ back).length := by
    simp only [List.length_append]
    omega
  have hfront : (front ++ mid ++ back).take front.length = front := by simp
  have hback : (front ++ mid ++ back).drop (front.length + mid.length) = back := by
    rw [← List.length_append, List.drop_left]
  rw [splice, if_pos hrange, hfront, hback]

theorem splice_insert (front back : List α) (a : α) :
    splice front.length front.length [a] (front ++ back) = some (front ++ a :: back) := by
  simpa using splice_append front [] [a] back

theorem splice_replace (front back : List α) (old a : α) :
    splice front.length (front.length + 1) [a] (front ++ old :: back) = some (front ++ a :: back) := by
  simpa using splice_append front [old] [a] back

theorem splice_erase (front back : List α) (old : α) :
    splice front.length (front.length + 1) [] (front ++ old :: back) = some (front ++ back) := by
  simpa using splice_append front [old] [] back

theorem insertIdx_append (front back : List α) (a : α) :
    (front ++ back).insertIdx front.length a = front ++ a :: back := by
  induction front with
  | nil => simp
  | cons x front ih => simpa using ih

theorem set_append (front back : List α) (old a : α) :
    (front ++ old :: back).set front.length a = front ++ a :: back := by
  simp

theorem eraseIdx_append (front back : List α) (old : α) :
    (front ++ old :: back).eraseIdx front.length = front ++ back := by
  simp [List.eraseIdx_append_of_length_le]

/-- What a search finds divides the list. -/
theorem exists_of_findIdx?_eq_some {p : α → Bool} {xs : List α} {i : ℕ}
    (h : xs.findIdx? p = some i) :
    ∃ front x back, xs = front ++ x :: back ∧ front.length = i ∧ p x = true := by
  obtain ⟨hi, hp, -⟩ := List.findIdx?_eq_some_iff_getElem.mp h
  refine ⟨xs.take i, xs[i], xs.drop (i + 1), ?_, ?_, hp⟩
  · rw [List.getElem_cons_drop, List.take_append_drop]
  · exact List.length_take_of_le hi.le

end Splice

end MeetilyLocal
