import Mathlib.Data.List.Infix
import MeetilyLocal.Audio.EchoDedup
import MeetilyLocal.Library.EditDistance
import MeetilyLocal.Library.FloatRounding

/-!
# The similarity of two texts

`levenshtein_distance` fills the table of the edit distance with two rows at a time. The row that is
left by a prefix of `a` holds its distances from all prefixes of `b`
(`EchoDedup.foldl_levenshteinRow`), hence the distance is the least number of edits, and the ratio
is within its bounds also as an `f64` (`EchoDedup.isLeast_levenshteinDistance`).
-/

namespace MeetilyLocal

namespace EchoDedup

open EditDistance

/-- The row of a prefix of `a`. -/
def prefixRow (a b : List Char) : List ℕ := b.inits.map (distance a)

theorem prefixRow_nil (b : List Char) : prefixRow [] b = List.range (b.length + 1) := by
  refine List.ext_getElem (by simp [prefixRow]) fun j hj hj' => ?_
  simp only [prefixRow, List.length_map, List.length_inits] at hj
  simp only [prefixRow, List.getElem_map, List.getElem_inits, distance_nil_left, List.length_take,
    List.getElem_range]
  omega

/-- **The inner loop**: what is left of the row, once the prefix `done` of `b` has been gone through.
The induction is on what is left of `b`. -/
theorem levenshteinEntries_eq (ca : Char) (a done rest : List Char) :
    levenshteinEntries ca (distance (a ++ [ca]) done)
        (rest.inits.map fun t => distance a (done ++ t)) rest =
      (rest.inits.map fun t => distance (a ++ [ca]) (done ++ t)).tail := by
  induction rest generalizing done with
  | nil => rfl
  | cons cb rest ih =>
    have hshift : ∀ p : List Char, ((cb :: rest).inits.map fun t => distance p (done ++ t)) =
        distance p done :: rest.inits.map fun t => distance p (done ++ [cb] ++ t) := by
      intro p
      simp
    have hhead : ∀ p : List Char, ∃ row, (rest.inits.map fun t => distance p (done ++ [cb] ++ t)) =
        distance p (done ++ [cb]) :: row := by
      intro p
      cases rest with
      | nil => exact ⟨[], by simp⟩
      | cons c rest => exact ⟨_, by rw [List.inits_cons, List.map_cons, List.append_nil]⟩
    obtain ⟨row, hrow⟩ := hhead a
    obtain ⟨row', hrow'⟩ := hhead (a ++ [ca])
    have ih := ih (done ++ [cb])
    rw [hrow, hrow', List.tail_cons] at ih
    rw [hshift, hshift, List.tail_cons, hrow, hrow', levenshteinEntries]
    rw [← distance_concat ca cb a done, ih]

/-- One pass of the outer loop. -/
theorem levenshteinRow_prefixRow (ca : Char) (a b : List Char) :
    levenshteinRow b a.length ca (prefixRow a b) = prefixRow (a ++ [ca]) b := by
  have hentries := levenshteinEntries_eq ca a [] b
  simp only [List.nil_append, distance_nil_right, List.length_append, List.length_singleton]
    at hentries
  rw [levenshteinRow, prefixRow, hentries]
  cases b with
  | nil => simp [prefixRow]
  | cons c b => simp [prefixRow]

/-- **The outer loop**: the row that is left by a prefix of `a`. -/
theorem foldl_levenshteinRow (before rest b : List Char) :
    (rest.zipIdx before.length).foldl (fun row ci => levenshteinRow b ci.2 ci.1 row)
      (prefixRow before b) = prefixRow (before ++ rest) b := by
  induction rest generalizing before with
  | nil => simp
  | cons ca rest ih =>
    have ih := ih (before ++ [ca])
    rw [List.length_append, List.length_singleton, List.append_assoc, List.singleton_append] at ih
    rw [List.zipIdx_cons, List.foldl_cons, levenshteinRow_prefixRow, ih]

theorem levenshteinDistance_eq (a b : List Char) : levenshteinDistance a b = distance a b := by
  rw [levenshteinDistance]
  split
  · next hnil => rw [hnil, distance_nil_left]
  · split
    · next hnil => rw [hnil, distance_nil_right]
    · rw [← prefixRow_nil]
      have hfold := foldl_levenshteinRow [] a b
      rw [List.length_nil, List.nil_append] at hfold
      rw [hfold]
      simp [prefixRow, List.getD_eq_getElem?_getD, List.getElem_inits]

theorem similarityRatio_bounds {a b : List Char} (ha : a.length < 2 ^ 64) (hb : b.length < 2 ^ 64) :
    0.0 ≤ similarityRatio a b ∧ similarityRatio a b ≤ 1.0 := by
  rw [similarityRatio]
  split
  · exact ⟨Float64.hasValue_zero.le Float64.hasValue_one (by norm_num),
      Float64.hasValue_one.le Float64.hasValue_one le_rfl⟩
  · next hne =>
    rw [levenshteinDistance_eq]
    exact Float64.one_sub_div_ofNat_bounds (distance_le_max_length a b) (Nat.pos_of_ne_zero hne)
      (max_lt ha hb)

/-- **The distance of two texts** is the least number of edits that turn one into the other; the
similarity of two texts of which each has a `usize` of characters lies between zero and one. -/
theorem isLeast_levenshteinDistance (a b : List Char) :
    IsLeast {n | Edits n a b} (levenshteinDistance a b) ∧
    levenshteinDistance a b = levenshteinDistance b a ∧
    (∀ c, levenshteinDistance a c ≤ levenshteinDistance a b + levenshteinDistance b c) ∧
    (a.length < 2 ^ 64 → b.length < 2 ^ 64 →
      0.0 ≤ similarityRatio a b ∧ similarityRatio a b ≤ 1.0) := by
  refine ⟨?_, ?_, fun c => ?_, similarityRatio_bounds⟩
  · rw [levenshteinDistance_eq]
    exact isLeast_distance a b
  · rw [levenshteinDistance_eq, levenshteinDistance_eq, distance_comm]
  · rw [levenshteinDistance_eq, levenshteinDistance_eq, levenshteinDistance_eq]
    exact distance_triangle a b c

theorem isLeast_levenshteinDistance_kitten :
    IsLeast {n | Edits n "kitten".toList "sitting".toList} 3 ∧
    0.0 ≤ similarityRatio "kitten".toList "sitting".toList ∧
    similarityRatio "kitten".toList "sitting".toList ≤ 1.0 := by
  obtain ⟨hleast, -, -, hratio⟩ :=
    isLeast_levenshteinDistance "kitten".toList "sitting".toList
  have hdistance : levenshteinDistance "kitten".toList "sitting".toList = 3 := by decide
  rw [hdistance] at hleast
  exact ⟨hleast, hratio (by decide) (by decide)⟩

end EchoDedup

end MeetilyLocal
