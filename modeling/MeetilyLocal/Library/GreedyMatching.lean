import Mathlib.Data.List.ReduceOption
import Mathlib.Data.List.Count
import Mathlib.Data.List.Perm.Basic
import Mathlib.Tactic.Common

/-!
# Greedy matching by keys

Items are given out to keys, one after the other: each key gets the first item left that has it. So
each item is given out at most once (`greedy_perm`), and for each key as many as there are items and
uses of the key (`greedy_countP`). Given out to their own keys, all items come in their order
(`greedy_map`).

Items that are gone can be kept as a list of their names (`assign_eq_greedy`).
-/

namespace MeetilyLocal

variable {α κ ι : Type*} [DecidableEq κ] [DecidableEq ι] {key : α → κ} {name : α → ι}
  {items : List α} {keys : List κ} {claimed : List ι} {x : α} {p : α → Bool}

/-- Each key gets the first item left that has it. -/
def greedy (key : α → κ) : List α → List κ → List (Option α)
  | _, [] => []
  | items, k :: keys =>
    items.find? (key · = k) :: greedy key (items.eraseP (key · = k)) keys

/-- The same, with the names of the items that are gone. -/
def assign (key : α → κ) (name : α → ι) (items : List α) : List ι → List κ → List (Option α)
  | _, [] => []
  | claimed, k :: keys =>
    let found := items.find? fun x => key x = k && !claimed.contains (name x)
    found :: assign key name items (claimed ++ (found.map name).toList) keys

theorem exists_of_find? (h : items.find? p = some x) :
    ∃ front back, items = front ++ x :: back ∧ items.eraseP p = front ++ back ∧ p x = true := by
  obtain ⟨hx, front, back, hitems, hfront⟩ := List.find?_eq_some_iff_append.mp h
  refine ⟨front, back, hitems, ?_, hx⟩
  rw [hitems, List.eraseP_append_right _ (by simpa using hfront), List.eraseP_cons_of_pos hx]

theorem eraseP_of_find?_eq_none (h : items.find? p = none) : items.eraseP p = items :=
  List.eraseP_of_forall_not (by simpa using h)

theorem length_greedy (items : List α) (keys : List κ) :
    (greedy key items keys).length = keys.length := by
  induction keys generalizing items with
  | nil => rfl
  | cons k keys ih => rw [greedy, List.length_cons, List.length_cons, ih]

variable (key) in
/-- What a key gets has it. -/
theorem forall₂_greedy (items : List α) (keys : List κ) :
    List.Forall₂ (fun (found : Option α) k => ∀ x ∈ found, key x = k) (greedy key items keys) keys := by
  induction keys generalizing items with
  | nil => exact .nil
  | cons k keys ih =>
    refine .cons ?_ (ih _)
    intro x hx
    simpa using List.find?_some hx

variable (key) in
/-- No item is given out twice. -/
theorem greedy_perm (items : List α) (keys : List κ) :
    ∃ rest, ((greedy key items keys).reduceOption ++ rest).Perm items := by
  induction keys generalizing items with
  | nil => exact ⟨items, .refl _⟩
  | cons k keys ih =>
    obtain ⟨rest, hperm⟩ := ih (items.eraseP (key · = k))
    refine ⟨rest, ?_⟩
    rw [greedy]
    rcases hfind : items.find? (key · = k) with _ | x
    · rw [List.reduceOption_cons_of_none]
      rwa [eraseP_of_find?_eq_none hfind] at hperm ⊢
    · obtain ⟨front, back, hitems, herase, -⟩ := exists_of_find? hfind
      rw [List.reduceOption_cons_of_some, List.cons_append]
      rw [herase] at hperm ⊢
      rw [hitems]
      exact (hperm.cons x).trans List.perm_middle.symm

/-- **Each key** is given out as often as there are items with it and uses of it. -/
theorem greedy_countP (items : List α) (keys : List κ) (k : κ) :
    (greedy key items keys).reduceOption.countP (key · = k) =
      min (items.countP (key · = k)) (keys.countP (· = k)) := by
  induction keys generalizing items with
  | nil => simp [greedy]
  | cons k' keys ih =>
    rw [greedy]
    rcases hfind : items.find? (key · = k') with _ | x
    · rw [List.reduceOption_cons_of_none, ih, eraseP_of_find?_eq_none hfind, List.countP_cons]
      split
      next hk =>
        obtain rfl := of_decide_eq_true hk
        have hzero : items.countP (key · = k') = 0 := by
          rw [List.countP_eq_zero]
          simpa using hfind
        omega
      next => rw [Nat.add_zero]
    · obtain ⟨front, back, hitems, herase, hx⟩ := exists_of_find? hfind
      rw [List.reduceOption_cons_of_some, List.countP_cons, ih, herase, hitems, List.countP_cons,
        List.countP_append, List.countP_append, List.countP_cons]
      obtain rfl : key x = k' := by simpa using hx
      by_cases hk : key x = k
      · simp only [hk, decide_true, if_true]
        omega
      · simp only [hk, decide_false, Bool.false_eq_true, if_false]
        omega

/-- **To their own keys** items are given out as they are. -/
theorem greedy_map (items : List α) : greedy key items (items.map key) = items.map some := by
  induction items with
  | nil => rfl
  | cons x items ih =>
    rw [List.map_cons, greedy, List.find?_cons_of_pos (by simp), List.eraseP_cons_of_pos (by simp),
      ih, List.map_cons]

theorem filter_name_ne (hnodup : (items.map name).Nodup) (h : items.find? p = some x) :
    items.filter (name · ≠ name x) = items.eraseP p := by
  obtain ⟨front, back, hitems, herase, -⟩ := exists_of_find? h
  rw [herase, hitems]
  rw [hitems, (List.perm_middle.map name).nodup_iff, List.map_cons, List.nodup_cons] at hnodup
  have hne : ∀ y ∈ front ++ back, name y ≠ name x := by
    intro y hy heq
    exact hnodup.1 (heq ▸ List.mem_map_of_mem hy)
  rw [List.filter_append, List.filter_cons_of_neg (by simp), ← List.filter_append,
    List.filter_eq_self]
  simpa using hne

/-- The items that are gone are known by their names, if no two have the same. -/
theorem assign_eq_greedy (hnodup : (items.map name).Nodup) (claimed : List ι) (keys : List κ) :
    assign key name items claimed keys =
      greedy key (items.filter fun x => !claimed.contains (name x)) keys := by
  induction keys generalizing claimed with
  | nil => rfl
  | cons k keys ih =>
    have hfind : items.find? (fun x => key x = k && !claimed.contains (name x)) =
        (items.filter fun x => !claimed.contains (name x)).find? (key · = k) := by
      rw [List.find?_filter]
      congr 1
      funext x
      simp [and_comm]
    have hsub : ((items.filter fun x => !claimed.contains (name x)).map name).Nodup :=
      hnodup.sublist (List.filter_sublist.map name)
    rw [assign, greedy, ih, hfind]
    rcases hfound : (items.filter fun x => !claimed.contains (name x)).find? (key · = k) with _ | x
    · rw [eraseP_of_find?_eq_none hfound]
      simp
    · rw [← filter_name_ne hsub hfound, List.filter_filter]
      congr 2
      apply List.filter_congr
      simp [Bool.and_comm]

end MeetilyLocal
