import Mathlib.Data.List.Basic
import Mathlib.Data.List.Induction
import Mathlib.Data.List.Perm.Basic
import Mathlib.Tactic.Common

/-!
# Upserts into a table

A table is a list of rows, some of which have a key. An upsert puts its row in the place of one with
the same key, and adds it if there is none; a row without a key is always added. So a sequence of
upserts comes to the same rows as the last one for each key (`exists_lasts`), in another order.
-/

namespace MeetilyLocal

universe u v w

/-- What a table has of its rows: a key, and how a row is put in the place of an old one. -/
structure Keyed (α : Type u) (κ : Type v) : Type max u v where
  /-- the key of a row, if it has one -/
  key : α → Option κ
  /-- put a row in the place of an old one -/
  put : α → α → α
  /-- it keeps its key there -/
  key_put : ∀ row old, key (put row old) = key row
  /-- what was in that place before is gone -/
  put_put : ∀ row mid old, put row (put mid old) = put row old
  /-- nothing is left of another place that it had -/
  put_left : ∀ row mid old, put (put row mid) old = put row old

section Lasts

variable {β : Type w} {κ : Type v} (key : β → Option κ)

/-- They have the same key. -/
def SameKeyed (x y : β) : Prop := key x ≠ none ∧ key x = key y

variable {key} in
theorem SameKeyed.symm {x y : β} (h : SameKeyed key x y) : SameKeyed key y x :=
  ⟨h.2 ▸ h.1, h.2.symm⟩

variable {key} in
theorem SameKeyed.trans {x y z : β} (h : SameKeyed key x y) (h' : SameKeyed key y z) :
    SameKeyed key x z :=
  ⟨h.1, h.2.trans h'.2⟩

variable {key} in
/-- Where keys differ, the one with some key is the only one. -/
theorem not_sameKeyed_of_pairwise {front back : List β} {first item : β}
    (h : (front ++ first :: back).Pairwise fun x y => ¬SameKeyed key x y)
    (hfirst : SameKeyed key first item) : ∀ x ∈ front ++ back, ¬SameKeyed key x item := by
  obtain ⟨-, hback, hfront⟩ := List.pairwise_append.mp h
  intro x hx hsame
  rcases List.mem_append.mp hx with hmem | hmem
  · exact hfront x hmem first List.mem_cons_self (hsame.trans hfirst.symm)
  · exact List.rel_of_pairwise_cons hback hmem (hfirst.trans hsame.symm)

variable [DecidableEq κ]

instance : DecidableRel (SameKeyed key) := fun x y =>
  inferInstanceAs (Decidable (key x ≠ none ∧ key x = key y))

/-- The last one for each key, and all that have none. -/
def lasts : List β → List β
  | [] => []
  | x :: later => if ∃ y ∈ later, SameKeyed key x y then lasts later else x :: lasts later

variable {key}

theorem lasts_sublist (xs : List β) : (lasts key xs).Sublist xs := by
  induction xs with
  | nil => exact .slnil
  | cons x later ih =>
    rw [lasts]
    split
    · exact ih.cons x
    · exact ih.cons_cons x

theorem lasts_pairwise (xs : List β) :
    (lasts key xs).Pairwise fun x y => ¬SameKeyed key x y := by
  induction xs with
  | nil => exact .nil
  | cons x later ih =>
    rw [lasts]
    split
    · exact ih
    · next hlast =>
      exact ih.cons fun y hy hsame => hlast ⟨y, (lasts_sublist later).subset hy, hsame⟩

/-- One more takes the place of the earlier one with its key. -/
theorem lasts_concat (xs : List β) (x : β) :
    lasts key (xs ++ [x]) = (lasts key xs).filter (fun y => ¬SameKeyed key y x) ++ [x] := by
  induction xs with
  | nil => simp [lasts]
  | cons y later ih =>
    rw [List.cons_append, lasts, lasts]
    by_cases hlater : ∃ z ∈ later, SameKeyed key y z
    · obtain ⟨z, hz, hsame⟩ := hlater
      rw [if_pos ⟨z, List.mem_append_left _ hz, hsame⟩, if_pos ⟨z, hz, hsame⟩, ih]
    · rw [if_neg hlater]
      by_cases hx : SameKeyed key y x
      · rw [if_pos ⟨x, by simp, hx⟩, ih, List.filter_cons_of_neg (by simpa using hx)]
      · have hnone : ¬∃ z ∈ later ++ [x], SameKeyed key y z := by
          rintro ⟨z, hz, hsame⟩
          rcases List.mem_append.mp hz with hz | hz
          · exact hlater ⟨z, hz, hsame⟩
          · exact hx (List.mem_singleton.mp hz ▸ hsame)
        rw [if_neg hnone, ih, List.filter_cons_of_pos (by simpa using hx), List.cons_append]

end Lasts

namespace Keyed

variable {α : Type u} {κ : Type v} (K : Keyed α κ)

theorem sameKeyed_put {row mid old : α} :
    SameKeyed K.key (K.put row mid) old ↔ SameKeyed K.key row old := by
  rw [SameKeyed, SameKeyed, K.key_put]

theorem sameKeyed_put_right {row mid old : α} :
    SameKeyed K.key row (K.put mid old) ↔ SameKeyed K.key row mid := by
  rw [SameKeyed, SameKeyed, K.key_put]

variable [DecidableEq κ]

/-- Put the row in the place of an old one that has its key. -/
def place (row old : α) : α := if SameKeyed K.key row old then K.put row old else old

/-- Put the row in the place of those with its key, or add it if there is none. -/
def upsert (table : List α) (row : α) : List α :=
  if ∃ old ∈ table, SameKeyed K.key row old then table.map (K.place row) else table ++ [row]

/-- One upsert after the other. -/
def upserts (table rows : List α) : List α := rows.foldl K.upsert table

theorem upserts_append (table rows rows' : List α) :
    K.upserts table (rows ++ rows') = K.upserts (K.upserts table rows) rows' :=
  List.foldl_append

variable {K}

/-- The order of the rows makes no difference. -/
theorem upsert_perm {table table' : List α} (h : table.Perm table') (row : α) :
    (K.upsert table row).Perm (K.upsert table' row) := by
  rw [upsert, upsert]
  simp only [h.mem_iff]
  split
  · exact h.map _
  · exact h.append_right _

theorem upserts_perm {table table' : List α} (h : table.Perm table') (rows : List α) :
    (K.upserts table rows).Perm (K.upserts table' rows) := by
  induction rows generalizing table table' with
  | nil => exact h
  | cons row rows ih => exact ih (upsert_perm h row)

/-- The keys of a table after an upsert. -/
theorem exists_mem_upsert {table : List α} {row other : α} :
    (∃ old ∈ K.upsert table other, SameKeyed K.key row old) ↔
      SameKeyed K.key row other ∨ ∃ old ∈ table, SameKeyed K.key row old := by
  rw [upsert]
  split
  · next hhit =>
    obtain ⟨hit, hmem, hsame⟩ := hhit
    constructor
    · rintro ⟨_, hplaced, hrow⟩
      obtain ⟨old, hold, rfl⟩ := List.mem_map.mp hplaced
      rw [place] at hrow
      split at hrow
      · exact .inl (K.sameKeyed_put_right.mp hrow)
      · exact .inr ⟨old, hold, hrow⟩
    · rintro (hrow | ⟨old, hold, hrow⟩)
      · refine ⟨_, List.mem_map_of_mem hmem, ?_⟩
        rw [place, if_pos hsame]
        exact K.sameKeyed_put_right.mpr hrow
      · refine ⟨_, List.mem_map_of_mem hold, ?_⟩
        rw [place]
        split
        · next hother => exact K.sameKeyed_put_right.mpr (hrow.trans hother.symm)
        · exact hrow
  · simp [or_comm]

theorem map_place_of_not_exists {table : List α} {row : α}
    (h : ¬∃ old ∈ table, SameKeyed K.key row old) : table.map (K.place row) = table := by
  refine (List.map_congr_left fun old hold => ?_).trans (List.map_id table)
  rw [place, if_neg fun hsame => h ⟨old, hold, hsame⟩, id]

/-- **A second version** takes the place that the first one has taken. -/
theorem upsert_upsert {row first : α} (table : List α) (h : SameKeyed K.key row first) :
    K.upsert (K.upsert table first) row = K.upsert table (K.put row first) := by
  have hiff : ∀ old, SameKeyed K.key row old ↔ SameKeyed K.key first old := fun old =>
    ⟨h.symm.trans, h.trans⟩
  rw [upsert, if_pos (exists_mem_upsert.mpr (.inl h)), upsert, upsert]
  simp only [K.sameKeyed_put, hiff]
  split
  · rw [List.map_map]
    refine List.map_congr_left fun old _ => ?_
    simp only [Function.comp_apply, place, K.sameKeyed_put, hiff]
    split
    · next hold =>
      rw [if_pos (K.sameKeyed_put_right.mpr ((hiff first).mp h)), K.put_put, K.put_left]
    · rfl
  · next hnone =>
    rw [List.map_append, map_place_of_not_exists (by simpa only [hiff] using hnone),
      List.map_singleton, place, if_pos h]

theorem place_place {row other : α} (h : ¬SameKeyed K.key row other) (old : α) :
    K.place row (K.place other old) = K.place other (K.place row old) := by
  have hnot : ¬SameKeyed K.key other row := fun hsame => h hsame.symm
  by_cases hother : SameKeyed K.key other old
  · have hrow : ¬SameKeyed K.key row old := fun hsame => h (hsame.trans hother.symm)
    simp [place, hother, hrow, K.sameKeyed_put_right, h]
  · by_cases hrow : SameKeyed K.key row old
    · simp [place, hother, hrow, K.sameKeyed_put_right, hnot]
    · simp [place, hother, hrow]

/-- **Upserts with different keys commute**, but for the order of the rows. -/
theorem upsert_comm {row other : α} (table : List α) (h : ¬SameKeyed K.key row other) :
    (K.upsert (K.upsert table other) row).Perm (K.upsert (K.upsert table row) other) := by
  have hnot : ¬SameKeyed K.key other row := fun hsame => h hsame.symm
  have hrow : (∃ old ∈ K.upsert table other, SameKeyed K.key row old) ↔
      ∃ old ∈ table, SameKeyed K.key row old := by rw [exists_mem_upsert, or_iff_right h]
  have hother : (∃ old ∈ K.upsert table row, SameKeyed K.key other old) ↔
      ∃ old ∈ table, SameKeyed K.key other old := by rw [exists_mem_upsert, or_iff_right hnot]
  rw [upsert, upsert.eq_def K (K.upsert table row)]
  simp only [hrow, hother]
  by_cases hrows : ∃ old ∈ table, SameKeyed K.key row old
  · by_cases hothers : ∃ old ∈ table, SameKeyed K.key other old
    · rw [if_pos hrows, if_pos hothers, upsert, if_pos hothers, upsert, if_pos hrows, List.map_map,
        List.map_map]
      exact .of_eq (List.map_congr_left fun old _ => place_place h old)
    · rw [if_pos hrows, if_neg hothers, upsert, if_neg hothers, upsert, if_pos hrows,
        List.map_append, List.map_singleton, place.eq_def K row other, if_neg h]
  · by_cases hothers : ∃ old ∈ table, SameKeyed K.key other old
    · rw [if_neg hrows, if_pos hothers, upsert, if_pos hothers, upsert, if_neg hrows,
        List.map_append, List.map_singleton, place.eq_def K other row, if_neg hnot]
    · rw [if_neg hrows, if_neg hothers, upsert, if_neg hothers, upsert, if_neg hrows,
        List.append_assoc, List.append_assoc]
      exact (List.Perm.swap row other []).append_left table

theorem upserts_comm {row : α} {rows : List α} (table : List α)
    (h : ∀ other ∈ rows, ¬SameKeyed K.key row other) :
    (K.upserts (K.upsert table row) rows).Perm (K.upsert (K.upserts table rows) row) := by
  induction rows generalizing table with
  | nil => exact .refl _
  | cons other rows ih =>
    obtain ⟨hother, hrows⟩ := List.forall_mem_cons.mp h
    have hnot : ¬SameKeyed K.key other row := fun hsame => hother hsame.symm
    exact (upserts_perm (upsert_comm table hnot) rows).trans (ih (K.upsert table other) hrows)

/-! ## The last one for each key -/

variable {β : Type w} {itemKey : β → Option κ} (RowOf : β → α → Prop)

/-- **Upserts come to those of the last items**, of rows that the items have. -/
theorem exists_lasts (hkey : ∀ {item row}, RowOf item row → K.key row = itemKey item)
    (hput : ∀ {item row} old, RowOf item row → RowOf item (K.put row old)) (table : List α)
    (pairs : List (β × α)) (hpairs : ∀ pair ∈ pairs, RowOf pair.1 pair.2) :
    ∃ kept : List (β × α), (∀ pair ∈ kept, RowOf pair.1 pair.2) ∧
      kept.map Prod.fst = lasts itemKey (pairs.map Prod.fst) ∧
      (K.upserts table (pairs.map Prod.snd)).Perm (K.upserts table (kept.map Prod.snd)) := by
  induction pairs using List.reverseRecOn with
  | nil => exact ⟨[], by simp, rfl, .refl _⟩
  | append_singleton pairs pair ih =>
    obtain ⟨item, row⟩ := pair
    obtain ⟨hbefore, hpair⟩ := List.forall_mem_append.mp hpairs
    have hrow : RowOf item row := hpair _ (List.mem_singleton_self _)
    obtain ⟨kept, hkept, hlasts, hperm⟩ := ih hbefore
    have hsame : ∀ pair ∈ kept, SameKeyed itemKey pair.1 item ↔ SameKeyed K.key row pair.2 := by
      intro pair hmem
      rw [SameKeyed, SameKeyed, hkey (hkept pair hmem), hkey hrow]
      exact ⟨fun h => ⟨h.2 ▸ h.1, h.2.symm⟩, fun h => ⟨h.2 ▸ h.1, h.2.symm⟩⟩
    have hconcat : ∀ (pairs : List (β × α)) (row : α),
        K.upserts table ((pairs ++ [(item, row)]).map Prod.snd) =
          K.upsert (K.upserts table (pairs.map Prod.snd)) row := by
      intro pairs row
      rw [List.map_append, upserts_append]
      rfl
    rw [hconcat, List.map_append, List.map_singleton, lasts_concat, ← hlasts]
    by_cases hex : ∃ first ∈ kept, SameKeyed itemKey first.1 item
    · -- an earlier version is replaced, where it is
      obtain ⟨first, hfirst, hversion⟩ := hex
      have hpairwise : (lasts itemKey (pairs.map Prod.fst)).Pairwise fun x y =>
          ¬SameKeyed itemKey x y := lasts_pairwise _
      rw [← hlasts] at hpairwise
      obtain ⟨front, back, rfl⟩ := List.append_of_mem hfirst
      have hsub : (front ++ back).Sublist (front ++ first :: back) :=
        (List.sublist_cons_self first back).append_left front
      rw [List.map_append, List.map_cons] at hpairwise
      have hothers := not_sameKeyed_of_pairwise hpairwise hversion
      refine ⟨front ++ back ++ [(item, K.put row first.2)], ?_, ?_, ?_⟩
      · refine List.forall_mem_append.mpr ⟨fun pair hmem => hkept pair (hsub.subset hmem), ?_⟩
        simpa using hput _ hrow
      · have hfilter : (front.map Prod.fst ++ first.1 :: back.map Prod.fst).filter
            (fun x => ¬SameKeyed itemKey x item) = front.map Prod.fst ++ back.map Prod.fst := by
          rw [List.filter_append, List.filter_cons_of_neg (by simpa using hversion),
            ← List.filter_append, List.filter_eq_self.mpr fun x hx => decide_eq_true (hothers x hx)]
        simp only [List.map_append, List.map_cons, List.map_nil, hfilter]
      · rw [hconcat, ← upsert_upsert _ ((hsame first hfirst).mp hversion)]
        refine upsert_perm (hperm.trans ?_) row
        rw [List.map_append, List.map_cons, upserts_append, List.map_append, upserts_append]
        refine upserts_comm _ fun other hother hsamekey => ?_
        obtain ⟨pair, hmem, rfl⟩ := List.mem_map.mp hother
        have hback := hsame pair (hsub.subset (List.mem_append_right _ hmem))
        refine hothers pair.1 (List.mem_append_right _ (List.mem_map_of_mem hmem)) (hback.mpr ?_)
        exact ((hsame first hfirst).mp hversion).trans hsamekey
    · refine ⟨kept ++ [(item, row)], List.forall_mem_append.mpr ⟨hkept, hpair⟩, ?_, ?_⟩
      · rw [List.filter_eq_self.mpr, List.map_append, List.map_singleton]
        intro other hother
        obtain ⟨pair, hmem, rfl⟩ := List.mem_map.mp hother
        exact decide_eq_true fun hsamekey => hex ⟨pair, hmem, hsamekey⟩
      · rw [hconcat]
        exact upsert_perm hperm row

end Keyed

end MeetilyLocal
