import Mathlib.Data.List.Sort
import Mathlib.Tactic.Common

/-!
# Queries with an order

What a query with an `ORDER BY` may return: its rows sorted by a key, and rows with the same key in
any order. The order of such rows is chosen by an arrangement of all rows, which a stable sort then
keeps where the keys are equal.

The result is a given list whatever is chosen if and only if no two rows have the same key and the
list is sorted by it (`forall_orderBy_eq_iff`). With a `LIMIT` it is the first rows in another order
if and only if no row that should come behind another one, and does not, is among the first
(`forall_isTop_orderBy_iff`).
-/

namespace MeetilyLocal

/-- An order in which rows are given out. -/
structure Arrangement (α : Type*) : Type _ where
  /-- the rows in that order -/
  arrange : List α → List α
  /-- each row is given out once -/
  perm : ∀ rows, (arrange rows).Perm rows

namespace Arrangement

/-- As they are stored. -/
def stored (α : Type*) : Arrangement α := ⟨id, fun _ => .refl _⟩

/-- The row that was stored last comes first. -/
def reversed (α : Type*) : Arrangement α := ⟨List.reverse, List.reverse_perm⟩

end Arrangement

section OrderBy

variable {α κ : Type*} [LinearOrder κ] {key : α → κ} {rows target : List α}

/-- `a` may stand before `b`. -/
def keyLE (key : α → κ) (a b : α) : Bool := decide (key a ≤ key b)

@[simp] theorem keyLE_iff {a b : α} : keyLE key a b = true ↔ key a ≤ key b := decide_eq_true_iff

theorem keyLE_trans (a b c : α) (hab : keyLE key a b = true) (hbc : keyLE key b c = true) :
    keyLE key a c = true := by
  rw [keyLE_iff] at *
  exact hab.trans hbc

theorem keyLE_total (a b : α) : (keyLE key a b || keyLE key b a) = true := by
  simpa using le_total (key a) (key b)

/-- `ORDER BY key` -/
def orderBy (key : α → κ) (order : Arrangement α) (rows : List α) : List α :=
  (order.arrange rows).mergeSort (keyLE key)

theorem perm_orderBy (key : α → κ) (order : Arrangement α) (rows : List α) :
    (orderBy key order rows).Perm rows :=
  (List.mergeSort_perm _ _).trans (order.perm rows)

theorem pairwise_orderBy (key : α → κ) (order : Arrangement α) (rows : List α) :
    (orderBy key order rows).Pairwise fun a b => key a ≤ key b :=
  (List.pairwise_mergeSort keyLE_trans keyLE_total _).imp fun h => keyLE_iff.mp h

/-- Rows with different keys have one order. -/
theorem orderBy_eq (order : Arrangement α) (hperm : target.Perm rows)
    (hkey : ∀ a ∈ rows, ∀ b ∈ rows, key a = key b → a = b)
    (hsorted : target.Pairwise fun a b => key a ≤ key b) : orderBy key order rows = target := by
  have hall := perm_orderBy key order rows
  refine List.Perm.eq_of_pairwise ?_ (pairwise_orderBy key order rows) hsorted
    (hall.trans hperm.symm)
  intro a b ha hb hab hba
  exact hkey a (hall.mem_iff.mp ha) b (hperm.mem_iff.mp hb) (le_antisymm hab hba)

/-- Of two elements of a list one comes first. -/
theorem pair_sublist_or {a b : α} (ha : a ∈ rows) (hb : b ∈ rows) (hne : a ≠ b) :
    [a, b].Sublist rows ∨ [b, a].Sublist rows := by
  induction rows with
  | nil => cases ha
  | cons c rows ih =>
    by_cases hca : a = c
    · subst hca
      have hb := (List.mem_cons.mp hb).resolve_left hne.symm
      exact .inl ((List.singleton_sublist.mpr hb).cons_cons _)
    have ha' := (List.mem_cons.mp ha).resolve_left hca
    by_cases hcb : b = c
    · subst hcb
      exact .inr ((List.singleton_sublist.mpr ha').cons_cons _)
    have hb' := (List.mem_cons.mp hb).resolve_left hcb
    exact (ih ha' hb').imp (·.cons _) (·.cons _)

/-- Without repetitions only one of them does. -/
theorem not_pair_sublist {a b : α} (hnodup : rows.Nodup) (h : [a, b].Sublist rows) :
    ¬ [b, a].Sublist rows := by
  induction rows with
  | nil => cases h
  | cons c rows ih =>
    obtain ⟨hc, hnodup⟩ := List.nodup_cons.mp hnodup
    intro h'
    rcases List.cons_sublist_cons'.mp h with hab | ⟨rfl, hb⟩
    · rcases List.cons_sublist_cons'.mp h' with hba | ⟨rfl, -⟩
      · exact ih hnodup hab hba
      · exact hc (hab.subset (by simp))
    · rcases List.cons_sublist_cons'.mp h' with hba | ⟨rfl, -⟩
      · exact hc (hba.subset (by simp))
      · exact hc (hb.subset (by simp))

/-- Two rows with the same key may come in either order. -/
theorem exists_orderBy_ne {a b : α} (hnodup : rows.Nodup) (ha : a ∈ rows) (hb : b ∈ rows)
    (hkey : key a = key b) (hne : a ≠ b) (target : List α) :
    ∃ order, orderBy key order rows ≠ target := by
  by_contra! h
  have hstored : orderBy key (.stored α) rows = target := h _
  have hreversed : orderBy key (.reversed α) rows = target := h _
  have hnodup' : target.Nodup := by
    rw [← hstored]
    exact (perm_orderBy key _ rows).nodup_iff.mpr hnodup
  have hboth : ∀ {c d : α}, key c = key d → [c, d].Sublist rows →
      [c, d].Sublist target ∧ [d, c].Sublist target := by
    intro c d hcd hsub
    constructor
    · rw [← hstored]
      exact List.pair_sublist_mergeSort keyLE_trans keyLE_total (keyLE_iff.mpr hcd.le) hsub
    · rw [← hreversed]
      exact List.pair_sublist_mergeSort keyLE_trans keyLE_total (keyLE_iff.mpr hcd.ge)
        (List.reverse_sublist.mpr hsub)
  rcases pair_sublist_or ha hb hne with hsub | hsub
  · obtain ⟨hab, hba⟩ := hboth hkey hsub
    exact not_pair_sublist hnodup' hab hba
  · obtain ⟨hba, hab⟩ := hboth hkey.symm hsub
    exact not_pair_sublist hnodup' hba hab

/-- **One result.** The rows come as a given list whatever order is chosen, if and only if no two of
them have the same key and the list is sorted by it. -/
theorem forall_orderBy_eq_iff (key : α → κ) (hnodup : rows.Nodup) (hperm : target.Perm rows) :
    (∀ order, orderBy key order rows = target) ↔
      (∀ a ∈ rows, ∀ b ∈ rows, key a = key b → a = b) ∧
        target.Pairwise fun a b => key a ≤ key b := by
  constructor
  · intro h
    refine ⟨?_, ?_⟩
    · intro a ha b hb hkey
      by_contra hne
      obtain ⟨order, horder⟩ := exists_orderBy_ne hnodup ha hb hkey hne target
      exact horder (h order)
    · rw [← h (.stored α)]
      exact pairwise_orderBy key _ rows
  · rintro ⟨hkey, hsorted⟩ order
    exact orderBy_eq order hperm hkey hsorted

/-- Without an `ORDER BY` the rows come as they are given out. -/
theorem orderBy_const (c : κ) (order : Arrangement α) (rows : List α) :
    orderBy (fun _ => c) order rows = order.arrange rows := by
  refine List.mergeSort_of_pairwise (List.pairwise_of_forall fun _ _ => ?_)
  simp

/-- Rows are all the same if there is at most one. -/
theorem forall_mem_eq_iff (hnodup : rows.Nodup) :
    (∀ a ∈ rows, ∀ b ∈ rows, a = b) ↔ rows.length ≤ 1 := by
  match rows with
  | [] => simp
  | [a] => simp
  | a :: b :: rows =>
    refine iff_of_false ?_ (by simp)
    intro hall
    obtain rfl := hall a (by simp) b (by simp)
    simp at hnodup

/-- What keys say of any two rows they say of a sorted list. -/
theorem rel_of_pairwise {r : α → α → Prop} {a b : α} (h : rows.Pairwise r)
    (hsub : [a, b].Sublist rows) : r a b :=
  List.pairwise_pair.mp (h.sublist hsub)

end OrderBy

/-! ## The first rows -/

section Top

variable {α κ μ : Type*} [LinearOrder κ] [LinearOrder μ] {key : α → κ} {goal : α → μ}
  {rows : List α} {k : ℕ}

/-- The first `k` rows in the order of a key, rows with the same key in any order. -/
def IsTop (goal : α → μ) (k : ℕ) (rows result : List α) : Prop :=
  ∃ all : List α, all.Perm rows ∧ (all.Pairwise fun a b => goal a ≤ goal b) ∧ result = all.take k

/-- Each of the first `k` rows comes before all that are behind it. -/
def TopSorted (goal : α → μ) : ℕ → List α → Prop
  | 0, _ => True
  | _ + 1, [] => True
  | k + 1, a :: rows => (∀ b ∈ rows, goal a ≤ goal b) ∧ TopSorted goal k rows

theorem isTop_take_iff : IsTop goal k rows (rows.take k) ↔ TopSorted goal k rows := by
  induction rows generalizing k with
  | nil =>
    refine iff_of_true ⟨[], .nil, .nil, rfl⟩ ?_
    cases k <;> trivial
  | cons a rows ih =>
    cases k with
    | zero =>
      refine iff_of_true ⟨orderBy goal (.stored α) (a :: rows), perm_orderBy goal _ _,
        pairwise_orderBy goal _ _, rfl⟩ trivial
    | succ k =>
      rw [TopSorted, ← ih]
      refine ⟨?_, ?_⟩
      · rintro ⟨all, hperm, hsorted, hresult⟩
        obtain _ | ⟨b, all⟩ := all
        · cases hperm.length_eq
        rw [List.take_succ_cons, List.take_succ_cons, List.cons.injEq] at hresult
        obtain ⟨rfl, hresult⟩ := hresult
        obtain ⟨hfirst, hsorted⟩ := List.pairwise_cons.mp hsorted
        have hrest := (List.perm_cons a).mp hperm
        exact ⟨fun b hb => hfirst b (hrest.mem_iff.mpr hb), all, hrest, hsorted, hresult⟩
      · rintro ⟨hfirst, all, hperm, hsorted, hresult⟩
        refine ⟨a :: all, hperm.cons a, ?_, ?_⟩
        · exact List.pairwise_cons.mpr ⟨fun b hb => hfirst b (hperm.mem_iff.mp hb), hsorted⟩
        · rw [List.take_succ_cons, List.take_succ_cons, hresult]

theorem topSorted_iff : TopSorted goal k rows ↔ ∀ front a behind, rows = front ++ a :: behind →
    front.length < k → ∀ b ∈ behind, goal a ≤ goal b := by
  induction rows generalizing k with
  | nil =>
    refine iff_of_true (by cases k <;> trivial) fun front a behind h => ?_
    simp at h
  | cons c rows ih =>
    cases k with
    | zero => exact iff_of_true trivial fun front a behind _ hlt => absurd hlt (Nat.not_lt_zero _)
    | succ k =>
      rw [TopSorted, ih]
      refine ⟨?_, fun h => ⟨?_, ?_⟩⟩
      · rintro ⟨hfirst, hrest⟩ front a behind heq hlt
        obtain _ | ⟨d, front⟩ := front
        · obtain ⟨rfl, rfl⟩ := List.cons.inj heq
          exact hfirst
        · obtain ⟨rfl, rfl⟩ := List.cons.inj heq
          exact hrest front a behind rfl (Nat.lt_of_succ_lt_succ hlt)
      · exact h [] c rows rfl (Nat.succ_pos k)
      · rintro front a behind rfl hlt
        exact h (c :: front) a behind rfl (Nat.succ_lt_succ hlt)

/-- In a sorted list, what has a smaller key than a row is in front of it. -/
theorem countP_lt_le_length {front behind : List α} {a : α}
    (h : (front ++ a :: behind).Pairwise fun b c => key b ≤ key c) :
    (front ++ a :: behind).countP (fun b => decide (key b < key a)) ≤ front.length := by
  obtain ⟨-, hbehind, -⟩ := List.pairwise_append.mp h
  have hnone : (a :: behind).countP (fun b => decide (key b < key a)) = 0 := by
    rw [List.countP_eq_zero]
    intro b hb
    rcases List.mem_cons.mp hb with rfl | hb
    · simp
    · simpa using (List.pairwise_cons.mp hbehind).1 b hb
  rw [List.countP_append, hnone, Nat.add_zero]
  exact List.countP_le_length

/-- One row comes first. -/
def Arrangement.first [DecidableEq α] (a : α) : Arrangement α where
  arrange rows := if a ∈ rows then a :: rows.erase a else rows
  perm rows := by
    split
    · next ha => exact (List.perm_cons_erase ha).symm
    · exact .refl _

/-- The row that comes first has only smaller keys in front of it. -/
theorem exists_orderBy_first [DecidableEq α] {a : α} (hnodup : rows.Nodup) (ha : a ∈ rows) :
    ∃ front behind, orderBy key (.first a) rows = front ++ a :: behind ∧
      ∀ b ∈ front, key b < key a := by
  have hperm := perm_orderBy key (.first a) rows
  have hsorted := pairwise_orderBy key (.first a) rows
  have hnodup' : (orderBy key (.first a) rows).Nodup := hperm.nodup_iff.mpr hnodup
  obtain ⟨front, behind, heq⟩ := List.append_of_mem (hperm.mem_iff.mpr ha)
  refine ⟨front, behind, heq, fun b hb => ?_⟩
  have hpair : [b, a].Sublist (orderBy key (.first a) rows) := by
    rw [heq]
    exact (List.singleton_sublist.mpr hb).append
      (List.singleton_sublist.mpr List.mem_cons_self)
  refine (rel_of_pairwise hsorted hpair).lt_of_ne fun hkey => ?_
  -- with the same key it would come behind
  refine not_pair_sublist hnodup' hpair ?_
  have hne : b ≠ a := by
    rintro rfl
    rw [heq] at hnodup'
    exact (List.nodup_append.mp hnodup').2.2 b hb b List.mem_cons_self rfl
  have hmem : b ∈ rows := hperm.mem_iff.mp (by simp [heq, hb])
  refine List.pair_sublist_mergeSort keyLE_trans keyLE_total (keyLE_iff.mpr hkey.ge) ?_
  simp only [Arrangement.first, if_pos ha]
  exact (List.singleton_sublist.mpr ((List.mem_erase_of_ne hne).mpr hmem)).cons_cons a

/-- **The first rows.** The first `k` rows by one key are the first ones by another key, whatever
order is chosen, if and only if each row that the first key does not place behind one that should
come before it has `k` rows with a smaller key. -/
theorem forall_isTop_orderBy_iff (key : α → κ) (goal : α → μ) (k : ℕ) (hnodup : rows.Nodup) :
    (∀ order, IsTop goal k rows ((orderBy key order rows).take k)) ↔
      ∀ a ∈ rows, ∀ b ∈ rows, key a ≤ key b → goal b < goal a →
        k ≤ rows.countP fun c => decide (key c < key a) := by
  classical
  have htop : ∀ order, IsTop goal k rows ((orderBy key order rows).take k) ↔
      TopSorted goal k (orderBy key order rows) := by
    intro order
    have hperm := perm_orderBy key order rows
    rw [← isTop_take_iff]
    refine exists_congr fun all => and_congr_left fun _ => ?_
    exact ⟨fun h => h.trans hperm.symm, fun h => h.trans hperm⟩
  simp only [htop, topSorted_iff]
  refine ⟨fun h a ha b hb hkey hgoal => ?_, fun h order front a behind heq hlt b hb => ?_⟩
  · by_contra hfew
    obtain ⟨front, behind, heq, hfront⟩ : ∃ front behind,
        orderBy key (.first a) rows = front ++ a :: behind ∧ ∀ c ∈ front, key c < key a :=
      exists_orderBy_first hnodup ha
    have hperm := perm_orderBy key (.first a) rows
    have hshort : front.length < k := by
      have hcount : front.countP (fun c => decide (key c < key a)) = front.length :=
        List.countP_eq_length.mpr fun c hc => decide_eq_true (hfront c hc)
      have hall := hperm.countP_eq fun c => decide (key c < key a)
      rw [heq, List.countP_append, hcount] at hall
      omega
    have hbehind : b ∈ behind := by
      have hmem := hperm.mem_iff.mpr hb
      rw [heq, List.mem_append, List.mem_cons] at hmem
      rcases hmem with hmem | rfl | hmem
      · exact absurd (hfront b hmem) (not_lt.mpr hkey)
      · exact absurd hgoal (lt_irrefl _)
      · exact hmem
    exact absurd (h (.first a) front a behind heq hshort b hbehind) (not_le.mpr hgoal)
  · by_contra hgoal
    have hperm := perm_orderBy key order rows
    have hsorted := pairwise_orderBy key order rows
    rw [heq] at hperm hsorted
    have hkey : key a ≤ key b :=
      (List.pairwise_cons.mp (List.pairwise_append.mp hsorted).2.1).1 b hb
    have hmany := h a (hperm.mem_iff.mp (by simp)) b (hperm.mem_iff.mp (by simp [hb])) hkey
      (not_le.mp hgoal)
    rw [← hperm.countP_eq] at hmany
    have hle := countP_lt_le_length hsorted
    omega

end Top

/-! ## Pages -/

section Pages

variable {α : Type*} {rows : List α} {limit : ℕ}

/-- `LIMIT limit OFFSET offset` -/
def limitOffset (limit offset : ℕ) (rows : List α) : List α := (rows.drop offset).take limit

/-- The pages of a list, one after the other, are the list. -/
theorem flatMap_limitOffset (count : ℕ) (h : rows.length ≤ count * limit) :
    (List.range count).flatMap (fun k => limitOffset limit (k * limit) rows) = rows := by
  have htaken : ∀ count, (List.range count).flatMap (fun k => limitOffset limit (k * limit) rows) =
      rows.take (count * limit) := by
    intro count
    induction count with
    | zero => simp
    | succ count ih =>
      rw [List.range_succ, List.flatMap_append, ih, List.flatMap_singleton, limitOffset, Nat.succ_mul,
        List.take_add]
  rw [htaken, List.take_of_length_le h]

end Pages

end MeetilyLocal
