import Mathlib.Data.List.Nodup
import Mathlib.Tactic.Common

/-!
# Tables and references

A table with a primary key, and rows that refer to the keys of another table. An update keeps the keys
(`keys_updateWhere`), and where a key is deleted together with the rows that refer to it, all references
that are left can be followed (`Refers.cascade`).
-/

namespace MeetilyLocal

universe u v w

variable {R : Type u} {K : Type v}

/-- A table: its rows, no two of which have the same primary key. -/
structure Table (key : R → K) : Type u where
  /-- the rows, in the order in which they were inserted -/
  rows : List R
  /-- `PRIMARY KEY` -/
  distinct : (rows.map key).Nodup

namespace Table

variable {key : R → K} {t : Table key} {row : R} {k : K} {p : R → Bool} {set : R → R}

/-- A table without a row. -/
def empty (key : R → K) : Table key := ⟨[], List.nodup_nil⟩

/-- The keys that there are. -/
def keys (t : Table key) : List K := t.rows.map key

/-- `INSERT` of a row whose key is new. -/
def insert (t : Table key) (row : R) (h : key row ∉ t.keys) : Table key where
  rows := t.rows ++ [row]
  distinct := by
    rw [List.map_append, List.map_singleton]
    refine List.nodup_append.mpr ⟨t.distinct, List.nodup_singleton _, ?_⟩
    rintro k hk _ hin rfl
    rw [List.mem_singleton.mp hin] at hk
    exact h hk

/-- `UPDATE … WHERE` that keeps the keys. -/
def updateWhere (t : Table key) (p : R → Bool) (set : R → R) (hset : ∀ row, key (set row) = key row) :
    Table key where
  rows := t.rows.map fun row => if p row then set row else row
  distinct := by
    rw [List.map_map]
    refine (List.map_congr_left fun row _ => ?_).symm ▸ t.distinct
    simp only [Function.comp_apply]
    split
    · exact hset row
    · rfl

/-- `DELETE … WHERE` -/
def deleteWhere (t : Table key) (p : R → Bool) : Table key where
  rows := t.rows.filter fun row => !p row
  distinct := t.distinct.sublist (List.filter_sublist.map key)

/-- `SELECT … WHERE key = ?` -/
def find [DecidableEq K] (t : Table key) (k : K) : Option R := t.rows.find? fun row => key row = k

@[simp] theorem rows_insert {h : key row ∉ t.keys} : (t.insert row h).rows = t.rows ++ [row] := rfl

@[simp] theorem keys_insert {h : key row ∉ t.keys} : (t.insert row h).keys = t.keys ++ [key row] :=
  List.map_append

@[simp] theorem keys_updateWhere {hset : ∀ row, key (set row) = key row} :
    (t.updateWhere p set hset).keys = t.keys := by
  rw [keys, updateWhere, List.map_map]
  refine List.map_congr_left fun row _ => ?_
  simp only [Function.comp_apply]
  split
  · exact hset row
  · rfl

/-- An update leaves the rows that it is not for. -/
theorem mem_updateWhere (hset : ∀ row, key (set row) = key row) (h : row ∈ t.rows)
    (hp : p row = false) : row ∈ (t.updateWhere p set hset).rows :=
  List.mem_map.mpr ⟨row, h, by rw [hp]; rfl⟩

theorem mem_deleteWhere (h : row ∈ t.rows) (hp : p row = false) : row ∈ (t.deleteWhere p).rows :=
  List.mem_filter.mpr ⟨h, by rw [hp]; rfl⟩

/-- The row with a key is the only one with it. -/
theorem eq_of_key {row' : R} (h : row ∈ t.rows) (h' : row' ∈ t.rows) (hkey : key row = key row') :
    row = row' :=
  List.inj_on_of_nodup_map t.distinct h h' hkey

variable [DecidableEq K]

theorem find_eq_some_iff : t.find k = some row ↔ row ∈ t.rows ∧ key row = k := by
  constructor
  · intro h
    exact ⟨List.mem_of_find?_eq_some h, by simpa using List.find?_some h⟩
  · rintro ⟨hmem, rfl⟩
    obtain ⟨found, hfound⟩ : ∃ found, t.find (key row) = some found := by
      rw [find, ← Option.isSome_iff_exists, List.find?_isSome]
      exact ⟨row, hmem, by simp⟩
    have hkey : key found = key row := by simpa using List.find?_some hfound
    rw [hfound, eq_of_key (List.mem_of_find?_eq_some hfound) hmem hkey]

theorem find_eq_none_iff : t.find k = none ↔ k ∉ t.keys := by
  simp [find, keys, List.find?_eq_none]

theorem isSome_find_iff : (t.find k).isSome ↔ k ∈ t.keys := by
  rw [← Option.ne_none_iff_isSome, Ne, find_eq_none_iff, not_not]

theorem find_insert {h : key row ∉ t.keys} :
    (t.insert row h).find k = if key row = k then some row else t.find k := by
  rw [find, rows_insert, List.find?_append]
  by_cases hk : key row = k
  · have hnone : t.rows.find? (fun row => decide (key row = k)) = none :=
      find_eq_none_iff.mpr (hk ▸ h)
    simp [hk, hnone]
  · simp [hk, find]

/-- An update is made to the row that is found. -/
theorem find_updateWhere {hset : ∀ row, key (set row) = key row} :
    (t.updateWhere p set hset).find k = (t.find k).map fun row => if p row then set row else row := by
  rw [find, updateWhere, List.find?_map, find]
  congr 2
  funext row
  simp only [Function.comp_apply]
  split
  · rw [hset]
  · rfl

/-- A deletion by key leaves the other rows. -/
theorem find_deleteWhere_of_ne {k' : K} (h : k' ≠ k) :
    (t.deleteWhere fun row => key row = k).find k' = t.find k' := by
  rw [find, find, deleteWhere, List.find?_filter]
  congr 1
  funext row
  by_cases hrow : key row = k' <;> simp [hrow, h]

theorem keys_deleteWhere (t : Table key) (k : K) :
    (t.deleteWhere fun row => key row = k).keys = t.keys.filter fun key => !decide (key = k) := by
  rw [keys, keys, deleteWhere, List.filter_map]
  rfl

theorem notMem_keys_deleteWhere : k ∉ (t.deleteWhere fun row => key row = k).keys := by
  simp [keys, deleteWhere]

end Table

/-! ## References -/

/-- `FOREIGN KEY`: every row refers to a key that there is. -/
def Refers (owner : R → K) (rows : List R) (keys : List K) : Prop := ∀ row ∈ rows, owner row ∈ keys

namespace Refers

variable {owner : R → K} {rows rows' : List R} {keys keys' : List K} {k : K}

theorem nil (owner : R → K) (keys : List K) : Refers owner [] keys := by
  simp [Refers]

theorem mono (h : Refers owner rows keys) (hrows : rows' ⊆ rows) (hkeys : keys ⊆ keys') :
    Refers owner rows' keys' :=
  fun row hrow => hkeys (h row (hrows hrow))

theorem append (h : Refers owner rows keys) (h' : Refers owner rows' keys) :
    Refers owner (rows ++ rows') keys := by
  intro row hrow
  obtain hrow | hrow := List.mem_append.mp hrow
  · exact h row hrow
  · exact h' row hrow

/-- Rows may be changed if they go on to refer to the same key. -/
theorem map {f : R → R} (h : Refers owner rows keys) (hf : ∀ row, owner (f row) = owner row) :
    Refers owner (rows.map f) keys := by
  intro row hrow
  obtain ⟨old, hold, rfl⟩ := List.mem_map.mp hrow
  exact hf old ▸ h old hold

theorem filter (h : Refers owner rows keys) (p : R → Bool) : Refers owner (rows.filter p) keys :=
  h.mono (List.filter_sublist).subset (List.Subset.refl _)

variable [DecidableEq K]

/-- `ON DELETE CASCADE` -/
theorem cascade (h : Refers owner rows keys) (k : K) :
    Refers owner (rows.filter fun row => !decide (owner row = k)) (keys.filter fun key => !decide (key = k)) := by
  intro row hrow
  obtain ⟨hmem, hne⟩ := List.mem_filter.mp hrow
  exact List.mem_filter.mpr ⟨h row hmem, hne⟩

/-- Nothing refers to a key that there is not. -/
theorem filter_eq_nil (h : Refers owner rows keys) (hk : k ∉ keys) :
    rows.filter (fun row => owner row = k) = [] := by
  refine List.filter_eq_nil_iff.mpr fun row hrow howner => hk ?_
  exact of_decide_eq_true howner ▸ h row hrow

end Refers

end MeetilyLocal
