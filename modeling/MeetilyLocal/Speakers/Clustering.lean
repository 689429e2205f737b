import Mathlib.Data.Finset.Dedup
import MeetilyLocal.Library.Linkage
import MeetilyLocal.Speakers.Refinement

/-!
# Clustering is average linkage

What the merging loop of `agglomerative_cluster` (`speaker_diarization/refinement.rs`) does in exact
arithmetic, over any ordered field and for any symmetric distance of the points. `Sound` is the
invariant: an entry of the matrix between active clusters is the mean distance of their points, and
what is cached as the nearest neighbour of an active cluster is one. The cache is refreshed only
for some clusters, which is enough because a merge brings no cluster closer to another
(`Sound.isNearest_mergePair`).
-/

namespace MeetilyLocal

namespace Refinement

open Linkage

section Numbers

variable {α : Type} {n : ℕ} {m : Merging α}

/-! ## The numbers of the clusters -/

/-- The points of a cluster. -/
def cluster (m : Merging α) (a : ℕ) : Finset ℕ := (m.members a).toFinset

/-- The active clusters. -/
def clusters (n : ℕ) (m : Merging α) : Finset (Finset ℕ) :=
  ((Finset.range n).filter fun a => m.active a = true).image (cluster m)

/-- The number of active clusters. -/
def activeCount (n : ℕ) (m : Merging α) : ℕ :=
  ((Finset.range n).filter fun a => m.active a = true).card

theorem foldl_update (points : List ℕ) (out : ℕ → ℕ) (c x : ℕ) :
    points.foldl (fun out point => Function.update out point c) out x =
      if x ∈ points then c else out x := by
  induction points generalizing out with
  | nil => simp
  | cons point points ih =>
    rw [List.foldl_cons, ih]
    by_cases hx : x ∈ points
    · simp [hx]
    · by_cases hp : x = point <;> simp [hx, hp]

/-- The numbers given to the points of the first `k` clusters, and the next number. -/
def numbered (m : Merging α) (k : ℕ) : (ℕ → ℕ) × ℕ :=
  (List.range k).foldl (fun (out, cluster) i =>
    if !m.active i then (out, cluster)
    else
      ((m.members i).foldl (fun out point => Function.update out point cluster) out, cluster + 1))
    ((fun _ => 0 : ℕ → ℕ), 0)

theorem numbered_succ (m : Merging α) (k : ℕ) :
    numbered m (k + 1) =
      if !m.active k then numbered m k
      else
        ((m.members k).foldl (fun out point => Function.update out point (numbered m k).2)
          (numbered m k).1, (numbered m k).2 + 1) := by
  rw [numbered, List.range_succ, List.foldl_append]
  rfl

theorem numbered_snd (m : Merging α) (k : ℕ) : (numbered m k).2 = activeCount k m := by
  induction k with
  | zero => rfl
  | succ k ih =>
    rw [numbered_succ, activeCount, Finset.range_add_one, Finset.filter_insert]
    by_cases hk : m.active k = true
    · simp [hk, ih, activeCount]
    · simp [hk, ih, activeCount]

theorem activeCount_lt {a b : ℕ} (ha : m.active a = true) (hab : a < b) :
    activeCount a m < activeCount b m := by
  refine Finset.card_lt_card (Finset.ssubset_iff_of_subset ?_ |>.mpr ⟨a, ?_, ?_⟩)
  · exact Finset.filter_subset_filter _ (Finset.range_mono hab.le)
  · exact Finset.mem_filter.mpr ⟨Finset.mem_range.mpr hab, ha⟩
  · simp

@[simp] theorem length_clusterIndices (n : ℕ) (m : Merging α) : (clusterIndices n m).length = n := by
  simp [clusterIndices]

theorem getElem?_clusterIndices (m : Merging α) {x : ℕ} (hx : x < n) :
    (clusterIndices n m)[x]? = some ((numbered m n).1 x) := by
  simp [clusterIndices, numbered, hx]

end Numbers

section Exact

variable {α : Type} [LinearOrder α] {n i j k : ℕ}

/-! ## The scans -/

/-- What is cached for cluster `i` is an active cluster nearest to it, if there is another one. -/
def IsNearest (dist : ℕ → ℕ → α) (active : ℕ → Bool) (i : ℕ) : Option (ℕ × α) → Prop
  | none => ∀ j, active j = true → j = i
  | some (j, δ) => active j = true ∧ j ≠ i ∧ δ = dist i j ∧
      ∀ k, active k = true → k ≠ i → δ ≤ dist i k

/-- The scan of `nearest_neighbour` is over the other active clusters. -/
theorem nearestNeighbour_eq {dist : ℕ → ℕ → α} {active : ℕ → Bool} (hi : active i = true) :
    nearestNeighbour n dist active i =
      (List.range n).foldl (keepLeast
        (fun j => if !active j || j == i then none else some (j, dist i j)) Prod.snd) none := by
  rw [nearestNeighbour, hi]
  simp only [Bool.not_true, Bool.false_eq_true, if_false]
  congr 1
  funext best j
  by_cases hj : (!active j || j == i) = true
  · simp only [hj, if_true, keepLeast]
  · rcases best with _ | ⟨k, δ⟩ <;> simp only [hj, if_false, keepLeast, Bool.false_eq_true]

theorem isNearest_nearestNeighbour {dist : ℕ → ℕ → α} {active : ℕ → Bool}
    (hlt : ∀ j, active j = true → j < n) (hi : active i = true) :
    IsNearest dist active i (nearestNeighbour n dist active i) := by
  cases hscan : nearestNeighbour n dist active i with
  | none =>
    rw [nearestNeighbour_eq hi] at hscan
    intro j hj
    by_contra hne
    have := candidate_of_foldl_keepLeast hscan j (List.mem_range.mpr (hlt j hj))
    simp [hj, hne] at this
  | some best =>
    rw [nearestNeighbour_eq hi] at hscan
    obtain ⟨⟨j, -, hj⟩, hle⟩ := of_foldl_keepLeast hscan
    by_cases hskip : (!active j || j == i) = true
    · simp [hskip] at hj
    · simp only [hskip, Bool.false_eq_true, if_false] at hj
      obtain rfl := Option.some.inj hj
      obtain ⟨hactive, hne⟩ : active j = true ∧ j ≠ i := by simpa using hskip
      refine ⟨hactive, hne, rfl, fun k hk hki => ?_⟩
      exact hle k (List.mem_range.mpr (hlt k hk)) (k, dist i k) (by simp [hk, hki])

/-- The scan for the closest pair is over what is cached for the active clusters. -/
theorem closestPair_eq (m : Merging α) :
    closestPair n m =
      (List.range n).foldl (keepLeast
        (fun i => if !m.active i then none else (m.nn i).map fun (j, δ) => (i, j, δ))
        fun pair => pair.2.2) none := by
  rw [closestPair]
  congr 1
  funext best i
  by_cases hi : (!m.active i) = true
  · simp only [hi, if_true, keepLeast]
  · rcases hnn : m.nn i with _ | ⟨j, δ⟩ <;> rcases best with _ | ⟨k, l, ε⟩ <;>
      simp only [hi, hnn, if_false, keepLeast, Bool.false_eq_true, Option.map_none, Option.map_some]

/-! ## The invariant of the merging loop -/

variable [Field α] {d : ℕ → ℕ → α} {m : Merging α} {maxDistance : α}

/-- The state of the merging loop is right. -/
structure Sound (n : ℕ) (d : ℕ → ℕ → α) (m : Merging α) : Prop where
  /-- an active cluster has the index of a point -/
  lt : ∀ a, m.active a = true → a < n
  /-- how many points it has -/
  size : ∀ a, m.active a = true → m.size a = ((cluster m a).card : α)
  /-- it has some -/
  nonempty : ∀ a, m.active a = true → (cluster m a).Nonempty
  /-- no two have a point in common -/
  disjoint : ∀ a b, m.active a = true → m.active b = true → a ≠ b →
    Disjoint (cluster m a) (cluster m b)
  /-- every point is in one, -/
  cover : ∀ x < n, ∃ a, m.active a = true ∧ x ∈ cluster m a
  /-- and nothing else is -/
  within : ∀ a, m.active a = true → ∀ x ∈ cluster m a, x < n
  /-- the matrix has the mean distance of two -/
  dist : ∀ a b, m.active a = true → m.active b = true → a ≠ b →
    m.dist a b = mean d (cluster m a) (cluster m b)
  /-- the cache has the nearest one -/
  nearest : ∀ a, m.active a = true → IsNearest m.dist m.active a (m.nn a)

/-- The state before the first merge: every point is a cluster. -/
def start (n : ℕ) (dist : ℕ → ℕ → α) : Merging α where
  dist := dist
  active := fun i => decide (i < n)
  size := fun _ => 1
  members := fun i => [i]
  nn := nearestNeighbour n dist fun i => decide (i < n)

@[simp] theorem active_start (n : ℕ) (d : ℕ → ℕ → α) (a : ℕ) :
    (start n d).active a = true ↔ a < n := by
  simp [start]

@[simp] theorem cluster_start (n : ℕ) (d : ℕ → ℕ → α) (a : ℕ) : cluster (start n d) a = {a} := by
  simp [cluster, start]

theorem sound_start (n : ℕ) (d : ℕ → ℕ → α) : Sound n d (start n d) := by
  refine ⟨?_, ?_, ?_, ?_, ?_, ?_, ?_, ?_⟩
  · intro a ha
    exact (active_start n d a).mp ha
  · intro a _
    simp [start, cluster]
  · intro a _
    simp
  · intro a b _ _ hne
    simpa using hne
  · intro x hx
    exact ⟨x, by simpa using hx, by simp⟩
  · intro a ha x hx
    rw [cluster_start, Finset.mem_singleton] at hx
    rw [hx]
    exact (active_start n d a).mp ha
  · intro a b _ _ _
    rw [cluster_start, cluster_start, mean_singleton]
    rfl
  · intro a ha
    exact isNearest_nearestNeighbour (fun j hj => (active_start n d j).mp hj) ha

theorem clusters_start (n : ℕ) (d : ℕ → ℕ → α) :
    clusters n (start n d) = singletons (Finset.range n) := by
  rw [clusters, singletons]
  ext A
  simp only [Finset.mem_image, Finset.mem_filter, active_start, cluster_start, Finset.mem_range,
    and_self]

theorem clusterPoints_eq (n : ℕ) (d : ℕ → ℕ → α) (maxDistance : α) :
    clusterPoints n d maxDistance = clusterIndices n (mergeClosest n maxDistance n (start n d)) :=
  rfl

/-! ## A merge -/

@[simp] theorem active_mergePair (a : ℕ) :
    (mergePair n m i j).active a = true ↔ m.active a = true ∧ a ≠ j := by
  by_cases ha : a = j
  · simp [mergePair, ha]
  · simp [mergePair, ha]

@[simp] theorem cluster_mergePair_self :
    cluster (mergePair n m i j) i = cluster m i ∪ cluster m j := by
  simp [cluster, mergePair]

theorem cluster_mergePair_of_ne {a : ℕ} (hi : a ≠ i) (hj : a ≠ j) :
    cluster (mergePair n m i j) a = cluster m a := by
  simp [cluster, mergePair, hi, hj]

theorem dist_mergePair_left {b : ℕ} (hb : m.active b = true) (hbi : b ≠ i) (hbj : b ≠ j) :
    (mergePair n m i j).dist i b =
      (m.size i * m.dist i b + m.size j * m.dist j b) / (m.size i + m.size j) := by
  simp [mergePair, hb, hbi, hbj]

theorem dist_mergePair_right {b : ℕ} (hb : m.active b = true) (hbi : b ≠ i) (hbj : b ≠ j) :
    (mergePair n m i j).dist b i =
      (m.size i * m.dist i b + m.size j * m.dist j b) / (m.size i + m.size j) := by
  simp [mergePair, hb, hbi, hbj]

theorem dist_mergePair_of_ne {a b : ℕ} (ha : a ≠ i) (hb : b ≠ i) :
    (mergePair n m i j).dist a b = m.dist a b := by
  simp [mergePair, ha, hb]

/-- The nearest neighbour of an active cluster is searched again if it may have changed. -/
theorem nn_mergePair {a : ℕ} (ha : (mergePair n m i j).active a = true) :
    (mergePair n m i j).nn a =
      if a == i || (m.nn a).any fun (t, _) => t == i || t == j then
        nearestNeighbour n (mergePair n m i j).dist (mergePair n m i j).active a
      else m.nn a := by
  have haj := ((active_mergePair a).mp ha).2
  change (if a == j then none
    else if (mergePair n m i j).active a && _ then _ else m.nn a) = _
  simp only [ha, beq_eq_false_iff_ne.mpr haj, Bool.true_and, Bool.false_eq_true, if_false]
  rfl

section Merge

variable [IsStrictOrderedRing α] (h : Sound n d m) (hd : ∀ x y, d x y = d y x)
  (hi : m.active i = true) (hj : m.active j = true) (hij : i ≠ j)

include h hi hj

include hij in
/-- The distance that the update computes is the mean distance. -/
theorem Sound.mean_mergePair {b : ℕ} (hb : m.active b = true) (hbi : b ≠ i) (hbj : b ≠ j) :
    (m.size i * m.dist i b + m.size j * m.dist j b) / (m.size i + m.size j) =
      mean d (cluster m i ∪ cluster m j) (cluster m b) := by
  rw [mean_union (h.disjoint i j hi hj hij) (h.nonempty i hi) (h.nonempty j hj), h.size i hi,
    h.size j hj, h.dist i b hi hb hbi.symm, h.dist j b hj hb hbj.symm]

include hd

/-- A merge brings no cluster closer to another, so that what the cache has for a cluster is still
its nearest neighbour, unless it is one of the two. -/
theorem Sound.isNearest_mergePair {a : ℕ} (ha : (mergePair n m i j).active a = true) (hai : a ≠ i)
    (hnn : (m.nn a).any (fun (t, _) => t == i || t == j) = false) :
    IsNearest (mergePair n m i j).dist (mergePair n m i j).active a (m.nn a) := by
  obtain ⟨haa, haj⟩ := (active_mergePair a).mp ha
  have hnearest := h.nearest a haa
  rcases hcached : m.nn a with _ | ⟨t, δ⟩
  · rw [hcached] at hnearest
    exact absurd (hnearest i hi) hai.symm
  · rw [hcached] at hnearest hnn
    obtain ⟨hti, htj⟩ : t ≠ i ∧ t ≠ j := by simpa using hnn
    obtain ⟨ht, hta, hδ, hle⟩ := hnearest
    refine ⟨(active_mergePair t).mpr ⟨ht, htj⟩, hta, ?_, fun k hk hka => ?_⟩
    · rw [dist_mergePair_of_ne hai hti, hδ]
    · obtain ⟨hkk, hkj⟩ := (active_mergePair k).mp hk
      by_cases hki : k = i
      · -- the distance to the union is a weighted mean of two that are not less
        have hcard : ∀ b, m.active b = true → 0 < m.size b := fun b hb => by
          rw [h.size b hb]
          exact_mod_cast (h.nonempty b hb).card_pos
        have hsymm : ∀ b, m.active b = true → b ≠ a → m.dist b a = m.dist a b := fun b hb hba => by
          rw [h.dist b a hb haa hba, h.dist a b haa hb hba.symm, mean_comm hd]
        rw [hki, dist_mergePair_right haa hai haj]
        refine le_weighted (hcard i hi) (hcard j hj) ?_ ?_
        · rw [hsymm i hi hai.symm]
          exact hle i hi hai.symm
        · rw [hsymm j hj haj.symm]
          exact hle j hj haj.symm
      · rw [dist_mergePair_of_ne hai hki]
        exact hle k hkk hka

include hij in
/-- A merge of two active clusters keeps the invariant. -/
theorem Sound.mergePair : Sound n d (mergePair n m i j) := by
  have hne : ∀ {a : ℕ}, (Refinement.mergePair n m i j).active a = true →
      m.active a = true ∧ a ≠ j := fun {a} ha => (active_mergePair a).mp ha
  refine ⟨?_, ?_, ?_, ?_, ?_, ?_, ?_, ?_⟩
  · intro a ha
    exact h.lt a (hne ha).1
  · intro a ha
    by_cases hai : a = i
    · rw [hai, cluster_mergePair_self, Finset.card_union_of_disjoint (h.disjoint i j hi hj hij),
        Nat.cast_add, ← h.size i hi, ← h.size j hj]
      simp [Refinement.mergePair]
    · rw [cluster_mergePair_of_ne hai (hne ha).2, ← h.size a (hne ha).1]
      simp [Refinement.mergePair, hai]
  · intro a ha
    by_cases hai : a = i
    · rw [hai, cluster_mergePair_self]
      exact (h.nonempty i hi).mono Finset.subset_union_left
    · rw [cluster_mergePair_of_ne hai (hne ha).2]
      exact h.nonempty a (hne ha).1
  · -- the union has no point in common with another cluster
    have hunion : ∀ b, (Refinement.mergePair n m i j).active b = true → b ≠ i →
        Disjoint (cluster m i ∪ cluster m j) (cluster m b) := by
      intro b hb hbi
      rw [Finset.disjoint_union_left]
      exact ⟨h.disjoint i b hi (hne hb).1 hbi.symm, h.disjoint j b hj (hne hb).1 (hne hb).2.symm⟩
    intro a b ha hb hab
    by_cases hai : a = i
    · rw [hai, cluster_mergePair_self, cluster_mergePair_of_ne (hai ▸ hab.symm) (hne hb).2]
      exact hunion b hb (hai ▸ hab.symm)
    · by_cases hbi : b = i
      · rw [hbi, cluster_mergePair_self, cluster_mergePair_of_ne hai (hne ha).2]
        exact (hunion a ha hai).symm
      · rw [cluster_mergePair_of_ne hai (hne ha).2, cluster_mergePair_of_ne hbi (hne hb).2]
        exact h.disjoint a b (hne ha).1 (hne hb).1 hab
  · intro x hx
    obtain ⟨a, ha, hxa⟩ := h.cover x hx
    by_cases hai : a = i ∨ a = j
    · refine ⟨i, (active_mergePair i).mpr ⟨hi, hij⟩, ?_⟩
      rw [cluster_mergePair_self, Finset.mem_union]
      rcases hai with rfl | rfl
      · exact .inl hxa
      · exact .inr hxa
    · obtain ⟨hai, haj⟩ := not_or.mp hai
      refine ⟨a, (active_mergePair a).mpr ⟨ha, haj⟩, ?_⟩
      rwa [cluster_mergePair_of_ne hai haj]
  · intro a ha x hx
    by_cases hai : a = i
    · rw [hai, cluster_mergePair_self, Finset.mem_union] at hx
      rcases hx with hx | hx
      · exact h.within i hi x hx
      · exact h.within j hj x hx
    · rw [cluster_mergePair_of_ne hai (hne ha).2] at hx
      exact h.within a (hne ha).1 x hx
  · intro a b ha hb hab
    by_cases hai : a = i
    · have hbi : b ≠ i := hai ▸ hab.symm
      rw [hai, dist_mergePair_left (hne hb).1 hbi (hne hb).2, cluster_mergePair_self,
        cluster_mergePair_of_ne hbi (hne hb).2,
        h.mean_mergePair hi hj hij (hne hb).1 hbi (hne hb).2]
    · by_cases hbi : b = i
      · rw [hbi, dist_mergePair_right (hne ha).1 hai (hne ha).2, cluster_mergePair_self,
          cluster_mergePair_of_ne hai (hne ha).2, mean_comm hd,
          h.mean_mergePair hi hj hij (hne ha).1 hai (hne ha).2]
      · rw [dist_mergePair_of_ne hai hbi, cluster_mergePair_of_ne hai (hne ha).2,
          cluster_mergePair_of_ne hbi (hne hb).2, h.dist a b (hne ha).1 (hne hb).1 hab]
  · intro a ha
    rw [nn_mergePair ha]
    by_cases hstale : (a == i || (m.nn a).any fun (t, _) => t == i || t == j) = true
    · rw [if_pos hstale]
      exact isNearest_nearestNeighbour (fun b hb => h.lt b (hne hb).1) ha
    · rw [if_neg hstale]
      obtain ⟨hai, hnn⟩ := Bool.or_eq_false_iff.mp (Bool.eq_false_iff.mpr hstale)
      exact h.isNearest_mergePair hd hi hj ha (by simpa using hai) hnn

end Merge

/-! ## The merging loop -/

/-- Two active clusters at the least distance, below the cutoff, are merged. -/
def MergesClosest (n : ℕ) (maxDistance : α) (m m' : Merging α) : Prop :=
  ∃ i j, m.active i = true ∧ m.active j = true ∧ i ≠ j ∧
    (∀ a b, m.active a = true → m.active b = true → a ≠ b → m.dist i j ≤ m.dist a b) ∧
    m.dist i j < maxDistance ∧ m' = mergePair n m i j

/-- No two active clusters are closer than the cutoff. -/
def Finished (maxDistance : α) (m : Merging α) : Prop :=
  ∀ a b, m.active a = true → m.active b = true → a ≠ b → maxDistance ≤ m.dist a b

/-- One round of the merging loop. -/
def round (n : ℕ) (maxDistance : α) (m : Merging α) : Merging α :=
  match closestPair n m with
  | none => m
  | some (i, j, δ) => if maxDistance ≤ δ then m else mergePair n m i j

theorem mergeClosest_eq (rounds : ℕ) (m : Merging α) :
    mergeClosest n maxDistance rounds m = (round n maxDistance)^[rounds] m := by
  induction rounds generalizing m with
  | zero => rfl
  | succ rounds ih =>
    rw [Function.iterate_succ_apply, mergeClosest]
    -- a round that ends the loop leaves the state as it is
    have hend : round n maxDistance m = m →
        m = (round n maxDistance)^[rounds] (round n maxDistance m) := by
      intro hfixed
      rw [hfixed, Function.iterate_fixed hfixed]
    cases hpair : closestPair n m with
    | none => exact hend (by rw [round, hpair])
    | some pair =>
      obtain ⟨i, j, δ⟩ := pair
      by_cases hcut : maxDistance ≤ δ
      · simp only [if_pos hcut]
        exact hend (by rw [round, hpair]; exact if_pos hcut)
      · simp only [if_neg hcut, ih]
        rw [round, hpair]
        simp only [if_neg hcut]

/-- A further round comes last. -/
theorem mergeClosest_succ (rounds : ℕ) (m : Merging α) :
    mergeClosest n maxDistance (rounds + 1) m =
      round n maxDistance (mergeClosest n maxDistance rounds m) := by
  rw [mergeClosest_eq, mergeClosest_eq, Function.iterate_succ_apply']

/-- Without a closest pair there is at most one active cluster. -/
theorem Sound.eq_of_closestPair (h : Sound n d m) (hpair : closestPair n m = none) {a b : ℕ}
    (ha : m.active a = true) (hb : m.active b = true) : a = b := by
  rw [closestPair_eq] at hpair
  have hnone := candidate_of_foldl_keepLeast hpair a (List.mem_range.mpr (h.lt a ha))
  have hnearest := h.nearest a ha
  cases hnn : m.nn a with
  | none =>
    rw [hnn] at hnearest
    exact (hnearest b hb).symm
  | some best => simp [ha, hnn] at hnone

/-- The closest pair is one of active clusters at the least distance. -/
theorem Sound.of_closestPair (h : Sound n d m) {δ : α} (hpair : closestPair n m = some (i, j, δ)) :
    m.active i = true ∧ m.active j = true ∧ i ≠ j ∧ δ = m.dist i j ∧
      ∀ a b, m.active a = true → m.active b = true → a ≠ b → δ ≤ m.dist a b := by
  rw [closestPair_eq] at hpair
  obtain ⟨⟨a, -, ha⟩, hle⟩ := of_foldl_keepLeast hpair
  by_cases hactive : m.active a = true
  · simp only [hactive, Bool.not_true, Bool.false_eq_true, if_false, Option.map_eq_some_iff,
      Prod.mk.injEq, Prod.exists] at ha
    obtain ⟨j', δ', hnn, rfl, rfl, rfl⟩ := ha
    have hnearest := h.nearest a hactive
    rw [hnn] at hnearest
    obtain ⟨hj, hne, hδ, -⟩ := hnearest
    refine ⟨hactive, hj, hne.symm, hδ, fun b c hb hc hbc => ?_⟩
    have hnearest := h.nearest b hb
    rcases hcached : m.nn b with _ | ⟨t, ε⟩
    · rw [hcached] at hnearest
      exact absurd (hnearest c hc) hbc.symm
    · rw [hcached] at hnearest
      have hε := hle b (List.mem_range.mpr (h.lt b hb)) (b, t, ε) (by simp [hb, hcached])
      exact hε.trans (hnearest.2.2.2 c hc hbc.symm)
  · simp [hactive] at ha

/-- A round merges two closest clusters, unless no two are closer than the cutoff. -/
theorem Sound.round (h : Sound n d m) (maxDistance : α) :
    MergesClosest n maxDistance m (round n maxDistance m) ∨
      Refinement.round n maxDistance m = m ∧ Finished maxDistance m := by
  cases hpair : closestPair n m with
  | none =>
    refine .inr ⟨by rw [Refinement.round, hpair], fun a b ha hb hne => ?_⟩
    exact absurd (h.eq_of_closestPair hpair ha hb) hne
  | some pair =>
    obtain ⟨i, j, δ⟩ := pair
    obtain ⟨hi, hj, hij, rfl, hle⟩ := h.of_closestPair hpair
    by_cases hcut : maxDistance ≤ m.dist i j
    · refine .inr ⟨by rw [Refinement.round, hpair]; exact if_pos hcut, fun a b ha hb hne => ?_⟩
      exact hcut.trans (hle a b ha hb hne)
    · refine .inl ⟨i, j, hi, hj, hij, hle, not_le.mp hcut, ?_⟩
      rw [Refinement.round, hpair]
      exact if_neg hcut

/-- A merge leaves one active cluster less. -/
theorem MergesClosest.activeCount {m' : Merging α} (hmerge : MergesClosest n maxDistance m m')
    (h : Sound n d m) : activeCount n m' + 1 = activeCount n m := by
  obtain ⟨i, j, -, hj, -, -, -, rfl⟩ := hmerge
  have heq : ((Finset.range n).filter fun a => (mergePair n m i j).active a = true) =
      ((Finset.range n).filter fun a => m.active a = true).erase j := by
    ext a
    simp only [Finset.mem_filter, Finset.mem_erase, active_mergePair]
    tauto
  have hmem : j ∈ (Finset.range n).filter fun a => m.active a = true :=
    Finset.mem_filter.mpr ⟨Finset.mem_range.mpr (h.lt j hj), hj⟩
  rw [Refinement.activeCount, heq, Finset.card_erase_add_one hmem, Refinement.activeCount]

/-- A point gets the number of active clusters before its own. -/
theorem Sound.numbered_fst (h : Sound n d m) {k a x : ℕ} (hak : a < k) (ha : m.active a = true)
    (hx : x ∈ cluster m a) : (numbered m k).1 x = activeCount a m := by
  induction k with
  | zero => omega
  | succ k ih =>
    rw [numbered_succ]
    by_cases hk : m.active k = true
    · simp only [hk, Bool.not_true, Bool.false_eq_true, if_false, foldl_update]
      by_cases hka : a = k
      · rw [← hka, if_pos (List.mem_toFinset.mp hx), numbered_snd]
      · -- no other cluster has the point
        have hxk : x ∉ m.members k := fun hxk =>
          Finset.disjoint_left.mp (h.disjoint a k ha hk hka) hx (List.mem_toFinset.mpr hxk)
        rw [if_neg hxk]
        exact ih (by omega)
    · have hka : a ≠ k := fun heq => hk (heq ▸ ha)
      simp only [hk, Bool.not_false, if_true]
      exact ih (by omega)

theorem Sound.eq_of_mem (h : Sound n d m) {a b x : ℕ} (ha : m.active a = true)
    (hb : m.active b = true) (hxa : x ∈ cluster m a) (hxb : x ∈ cluster m b) : a = b := by
  by_contra hne
  exact Finset.disjoint_left.mp (h.disjoint a b ha hb hne) hxa hxb

/-- Two points get the same number if and only if they are in one cluster. -/
theorem Sound.clusterIndices_eq_iff (h : Sound n d m) {x y : ℕ} (hx : x < n) (hy : y < n) :
    (clusterIndices n m)[x]? = (clusterIndices n m)[y]? ↔ Together (clusters n m) x y := by
  obtain ⟨a, ha, hxa⟩ := h.cover x hx
  obtain ⟨b, hb, hyb⟩ := h.cover y hy
  rw [getElem?_clusterIndices m hx, getElem?_clusterIndices m hy, Option.some_inj,
    h.numbered_fst (h.lt a ha) ha hxa, h.numbered_fst (h.lt b hb) hb hyb]
  constructor
  · intro heq
    obtain hlt | rfl | hlt := Nat.lt_trichotomy a b
    · exact absurd heq (activeCount_lt ha hlt).ne
    · refine ⟨cluster m a, Finset.mem_image.mpr ⟨a, ?_, rfl⟩, hxa, hyb⟩
      exact Finset.mem_filter.mpr ⟨Finset.mem_range.mpr (h.lt a ha), ha⟩
    · exact absurd heq (activeCount_lt hb hlt).ne'
  · rintro ⟨A, hA, hxA, hyA⟩
    obtain ⟨c, hc, rfl⟩ := Finset.mem_image.mp hA
    have hactive := (Finset.mem_filter.mp hc).2
    rw [h.eq_of_mem ha hactive hxa hxA, h.eq_of_mem hb hactive hyb hyA]

variable [IsStrictOrderedRing α]

theorem MergesClosest.sound {m' : Merging α} (hmerge : MergesClosest n maxDistance m m')
    (h : Sound n d m) (hd : ∀ x y, d x y = d y x) : Sound n d m' := by
  obtain ⟨i, j, hi, hj, hij, -, -, rfl⟩ := hmerge
  exact h.mergePair hd hi hj hij

/-- Every state of the loop is right. -/
theorem sound_mergeClosest (hd : ∀ x y, d x y = d y x) (maxDistance : α) (rounds : ℕ) :
    Sound n d (mergeClosest n maxDistance rounds (start n d)) := by
  induction rounds with
  | zero => exact sound_start n d
  | succ rounds ih =>
    rw [mergeClosest_succ]
    rcases ih.round maxDistance with hmerge | ⟨hend, -⟩
    · exact hmerge.sound ih hd
    · rwa [hend]

/-- As many rounds as there are clusters, less one, are enough. -/
theorem Sound.finished_iterate (h : Sound n d m) (hd : ∀ x y, d x y = d y x) {rounds : ℕ}
    (hrounds : Refinement.activeCount n m ≤ rounds + 1) :
    Finished maxDistance ((Refinement.round n maxDistance)^[rounds] m) := by
  induction rounds generalizing m with
  | zero =>
    intro a b ha hb hne
    refine absurd (Finset.card_le_one.mp hrounds a ?_ b ?_) hne
    · exact Finset.mem_filter.mpr ⟨Finset.mem_range.mpr (h.lt a ha), ha⟩
    · exact Finset.mem_filter.mpr ⟨Finset.mem_range.mpr (h.lt b hb), hb⟩
  | succ rounds ih =>
    rw [Function.iterate_succ_apply]
    rcases h.round maxDistance with hmerge | ⟨hend, hfinished⟩
    · have := hmerge.activeCount h
      exact ih (hmerge.sound h hd) (by omega)
    · rwa [hend, Function.iterate_fixed hend]

/-- The loop ends with no two clusters closer than the cutoff. -/
theorem finished_mergeClosest (hd : ∀ x y, d x y = d y x) (maxDistance : α) :
    Finished maxDistance (mergeClosest n maxDistance n (start n d)) := by
  rw [mergeClosest_eq]
  refine (sound_start n d).finished_iterate hd ?_
  exact ((Finset.card_filter_le _ _).trans (Finset.card_range n).le).trans (Nat.le_succ n)

/-! ## The whole loop -/

/-- A run of the merging loop is average linkage, for the distance `d` of the points. -/
structure AverageLinkage (n : ℕ) (d : ℕ → ℕ → α) (maxDistance : α) (state : ℕ → Merging α)
    (indices : List ℕ) : Prop where
  /-- a round merges two closest active clusters, or there are no two below the cutoff -/
  round : ∀ k, MergesClosest n maxDistance (state k) (state (k + 1)) ∨
    state (k + 1) = state k ∧ Finished maxDistance (state k)
  /-- what the matrix has for two active clusters is the mean distance of their points -/
  dist : ∀ k a b, (state k).active a = true → (state k).active b = true → a ≠ b →
    (state k).dist a b = mean d (cluster (state k) a) (cluster (state k) b)
  /-- in the end no two active clusters are below the cutoff -/
  finished : Finished maxDistance (state n)
  /-- every point is in one of them -/
  partition : ∀ x < n, ∃! a, (state n).active a = true ∧ x ∈ cluster (state n) a
  /-- every point gets an index -/
  length : indices.length = n
  /-- two points get the same one if and only if they are in the same cluster -/
  indices : ∀ x < n, ∀ y < n, indices[x]? = indices[y]? ↔ Together (clusters n (state n)) x y

/-- **The merging loop is average linkage**, for every symmetric distance. -/
theorem clusterPoints_averageLinkage (hd : ∀ x y, d x y = d y x) (maxDistance : α) :
    AverageLinkage n d maxDistance (fun k => mergeClosest n maxDistance k (start n d))
      (clusterPoints n d maxDistance) := by
  have hsound := fun k => sound_mergeClosest (n := n) hd maxDistance k
  refine ⟨fun k => ?_, fun k => (hsound k).dist, finished_mergeClosest hd maxDistance,
    fun x hx => ?_, ?_, fun x hx y hy => ?_⟩
  · have hround := (hsound k).round maxDistance
    rwa [← mergeClosest_succ] at hround
  · obtain ⟨a, ha, hxa⟩ := (hsound n).cover x hx
    exact ⟨a, ⟨ha, hxa⟩, fun b ⟨hb, hxb⟩ => (hsound n).eq_of_mem hb ha hxb hxa⟩
  · rw [clusterPoints_eq, length_clusterIndices]
  · rw [clusterPoints_eq]
    exact (hsound n).clusterIndices_eq_iff hx hy

/-- Only the distances of different points matter. -/
theorem clusterPoints_averageLinkage_congr {d' : ℕ → ℕ → α} (hd : ∀ x y, d x y = d y x)
    (hd' : ∀ x < n, ∀ y < n, x ≠ y → d x y = d' x y) (maxDistance : α) :
    AverageLinkage n d' maxDistance (fun k => mergeClosest n maxDistance k (start n d))
      (clusterPoints n d maxDistance) := by
  have h := clusterPoints_averageLinkage (n := n) hd maxDistance
  refine { h with dist := fun k a b ha hb hab => ?_ }
  have hsound := sound_mergeClosest (n := n) hd maxDistance k
  rw [h.dist k a b ha hb hab]
  refine mean_congr fun x hx y hy => hd' x (hsound.within a ha x hx) y (hsound.within b hb y hy) ?_
  rintro rfl
  exact Finset.disjoint_left.mp (hsound.disjoint a b ha hb hab) hx hy

end Exact

/-! ## Another field -/

section Fields

variable {α β : Type} [Field α] [LinearOrder α] [Field β] [LinearOrder β] {f : α →+* β} {n : ℕ}

/-- The state with its numbers read in another field. -/
def Merging.map (f : α →+* β) (m : Merging α) : Merging β where
  dist := fun i j => f (m.dist i j)
  active := m.active
  size := fun i => f (m.size i)
  members := m.members
  nn := fun i => (m.nn i).map (Prod.map id f)

theorem nearestNeighbour_map (hf : StrictMono f) (dist : ℕ → ℕ → α) (active : ℕ → Bool) (i : ℕ) :
    nearestNeighbour n (fun i j => f (dist i j)) active i =
      (nearestNeighbour n dist active i).map (Prod.map id f) := by
  by_cases hi : active i = true
  · have hkey : ∀ b c : ℕ × α, (Prod.map id f c).2 < (Prod.map id f b).2 ↔ c.2 < b.2 :=
      fun b c => hf.lt_iff_lt
    rw [nearestNeighbour_eq hi, nearestNeighbour_eq hi, ← foldl_keepLeast_map _ Prod.snd hkey]
    congr 2
    funext j
    split <;> rfl
  · simp [nearestNeighbour, hi]

theorem closestPair_map (hf : StrictMono f) (m : Merging α) :
    closestPair n (m.map f) = (closestPair n m).map (Prod.map id (Prod.map id f)) := by
  have hkey : ∀ b c : ℕ × ℕ × α, (Prod.map id (Prod.map id f) c).2.2 <
      (Prod.map id (Prod.map id f) b).2.2 ↔ c.2.2 < b.2.2 := fun b c => hf.lt_iff_lt
  rw [closestPair_eq, closestPair_eq, ← foldl_keepLeast_map _ (fun pair => pair.2.2) hkey]
  congr 2
  funext i
  change (if !m.active i then none
    else ((m.nn i).map (Prod.map id f)).map fun (j, δ) => (i, j, δ)) = _
  split
  · rfl
  · rw [Option.map_map, Option.map_map]
    rfl

theorem mergePair_map (hf : StrictMono f) (m : Merging α) (i j : ℕ) :
    mergePair n (m.map f) i j = (mergePair n m i j).map f := by
  have hdist : (mergePair n (m.map f) i j).dist = fun a b => f ((mergePair n m i j).dist a b) := by
    funext a b
    simp only [mergePair, Merging.map, apply_ite f, map_div₀, map_add, map_mul]
    rfl
  have hsize : (mergePair n (m.map f) i j).size = fun a => f ((mergePair n m i j).size a) := by
    funext a
    by_cases ha : a = i <;> simp [mergePair, Merging.map, ha]
  have hnn : (mergePair n (m.map f) i j).nn =
      fun a => ((mergePair n m i j).nn a).map (Prod.map id f) := by
    funext a
    change (if a == j then none
      else if (mergePair n m i j).active a && (a == i || (((m.nn a).map (Prod.map id f)).any
        fun (t, _) => t == i || t == j)) then
        nearestNeighbour n (mergePair n (m.map f) i j).dist (mergePair n m i j).active a
      else (m.nn a).map (Prod.map id f)) = _
    rw [hdist, nearestNeighbour_map hf, Option.any_map, ← apply_ite (Option.map (Prod.map id f))]
    by_cases haj : (a == j) = true
    · simp only [mergePair, haj, if_true, Option.map_none]
    · simp only [mergePair, haj, Bool.false_eq_true, if_false]
      rfl
  change Merging.mk (mergePair n (m.map f) i j).dist (mergePair n m i j).active
    (mergePair n (m.map f) i j).size (mergePair n m i j).members
    (mergePair n (m.map f) i j).nn = _
  rw [hdist, hsize, hnn]
  rfl

theorem mergeClosest_map (hf : StrictMono f) (maxDistance : α) (rounds : ℕ) (m : Merging α) :
    mergeClosest n (f maxDistance) rounds (m.map f) = (mergeClosest n maxDistance rounds m).map f := by
  induction rounds generalizing m with
  | zero => rfl
  | succ rounds ih =>
    rw [mergeClosest, mergeClosest, closestPair_map hf]
    rcases closestPair n m with _ | ⟨i, j, δ⟩
    · rfl
    · simp only [Option.map_some, Prod.map, id, hf.le_iff_le, mergePair_map hf, ih]
      split <;> rfl

/-- Clustering in a larger field is no different. -/
theorem clusterPoints_map (hf : StrictMono f) (dist : ℕ → ℕ → α) (maxDistance : α) :
    clusterPoints n (fun i j => f (dist i j)) (f maxDistance) = clusterPoints n dist maxDistance := by
  have hstart : start n (fun i j => f (dist i j)) = (start n dist).map f := by
    simp only [start, Merging.map, map_one, ← nearestNeighbour_map hf]
  rw [clusterPoints_eq, hstart, mergeClosest_map hf, clusterPoints_eq]
  rfl

end Fields

section Outcomes

variable {α : Type} [LinearOrder α] [Field α] [IsStrictOrderedRing α] {n i j : ℕ} {d : ℕ → ℕ → α}
  {m : Merging α} {maxDistance : α}

/-! ## What average linkage may end with -/

omit [IsStrictOrderedRing α] in
theorem Sound.mem_clusters (h : Sound n d m) {A : Finset ℕ} :
    A ∈ clusters n m ↔ ∃ a, m.active a = true ∧ cluster m a = A := by
  simp only [clusters, Finset.mem_image, Finset.mem_filter, Finset.mem_range]
  constructor
  · rintro ⟨a, ⟨-, ha⟩, hA⟩
    exact ⟨a, ha, hA⟩
  · rintro ⟨a, ha, hA⟩
    exact ⟨a, ⟨h.lt a ha, ha⟩, hA⟩

omit [IsStrictOrderedRing α] in
theorem Sound.cluster_inj (h : Sound n d m) {a b : ℕ} (ha : m.active a = true)
    (hb : m.active b = true) (heq : cluster m a = cluster m b) : a = b := by
  obtain ⟨x, hx⟩ := h.nonempty a ha
  exact h.eq_of_mem ha hb hx (heq ▸ hx)

/-- The active clusters after a merge. -/
theorem Sound.clusters_mergePair (h : Sound n d m) (hd : ∀ x y, d x y = d y x)
    (hi : m.active i = true) (hj : m.active j = true) (hij : i ≠ j) :
    clusters n (Refinement.mergePair n m i j) = merged (clusters n m) (cluster m i) (cluster m j) := by
  ext A
  rw [(h.mergePair hd hi hj hij).mem_clusters, merged, Finset.mem_insert, Finset.mem_erase,
    Finset.mem_erase, h.mem_clusters]
  constructor
  · rintro ⟨a, ha, rfl⟩
    obtain ⟨ha, haj⟩ := (active_mergePair a).mp ha
    by_cases hai : a = i
    · rw [hai, cluster_mergePair_self]
      exact .inl rfl
    · rw [cluster_mergePair_of_ne hai haj]
      exact .inr ⟨fun heq => haj (h.cluster_inj ha hj heq),
        fun heq => hai (h.cluster_inj ha hi heq), a, ha, rfl⟩
  · rintro (rfl | ⟨hAj, hAi, a, ha, rfl⟩)
    · exact ⟨i, (active_mergePair i).mpr ⟨hi, hij⟩, cluster_mergePair_self⟩
    · have hai : a ≠ i := fun heq => hAi (by rw [heq])
      have haj : a ≠ j := fun heq => hAj (by rw [heq])
      exact ⟨a, (active_mergePair a).mpr ⟨ha, haj⟩, cluster_mergePair_of_ne hai haj⟩

/-- A round of the loop is a step of average linkage. -/
theorem MergesClosest.merges {m' : Merging α} {d' : ℕ → ℕ → α}
    (hmerge : MergesClosest n maxDistance m m') (h : Sound n d m) (hd : ∀ x y, d x y = d y x)
    (hdist : ∀ a b, m.active a = true → m.active b = true → a ≠ b →
      m.dist a b = mean d' (cluster m a) (cluster m b)) :
    Merges d' maxDistance (clusters n m) (clusters n m') := by
  obtain ⟨i, j, hi, hj, hij, hle, hlt, rfl⟩ := hmerge
  refine ⟨cluster m i, cluster m j, ⟨h.mem_clusters.mpr ⟨i, hi, rfl⟩,
    h.mem_clusters.mpr ⟨j, hj, rfl⟩, fun heq => hij (h.cluster_inj hi hj heq), ?_⟩, ?_,
    h.clusters_mergePair hd hi hj hij⟩
  · intro A hA B hB hAB
    obtain ⟨a, ha, rfl⟩ := h.mem_clusters.mp hA
    obtain ⟨b, hb, rfl⟩ := h.mem_clusters.mp hB
    have hab : a ≠ b := fun heq => hAB (by rw [heq])
    rw [← hdist i j hi hj hij, ← hdist a b ha hb hab]
    exact hle a b ha hb hab
  · rwa [← hdist i j hi hj hij]

/-- The clusters that the loop ends with may come out of average linkage. -/
theorem yields_clusterPoints {d' : ℕ → ℕ → α} (hd : ∀ x y, d x y = d y x)
    (hd' : ∀ x < n, ∀ y < n, x ≠ y → d x y = d' x y) (maxDistance : α) :
    Yields d' maxDistance (Finset.range n)
      (clusters n (mergeClosest n maxDistance n (start n d))) := by
  have h := clusterPoints_averageLinkage_congr (n := n) hd hd' maxDistance
  have hsound := fun k => sound_mergeClosest (n := n) hd maxDistance k
  constructor
  · -- by induction on the rounds
    have hreaches : ∀ k, Relation.ReflTransGen (Merges d' maxDistance) (singletons (Finset.range n))
        (clusters n (mergeClosest n maxDistance k (start n d))) := by
      intro k
      induction k with
      | zero => rw [← clusters_start n d]; exact .refl
      | succ k ih =>
        rcases h.round k with hmerge | ⟨hend, -⟩
        · exact ih.tail (hmerge.merges (hsound k) hd (h.dist k))
        · rwa [hend]
    exact hreaches n
  · intro A hA B hB hAB
    obtain ⟨a, ha, rfl⟩ := (hsound n).mem_clusters.mp hA
    obtain ⟨b, hb, rfl⟩ := (hsound n).mem_clusters.mp hB
    have hab : a ≠ b := fun heq => hAB (by rw [heq])
    rw [← h.dist n a b ha hb hab]
    exact h.finished a b ha hb hab

end Outcomes

end Refinement

end MeetilyLocal
