import Mathlib.Algebra.BigOperators.Field
import Mathlib.Algebra.BigOperators.Group.Finset.Sigma
import Mathlib.Algebra.Order.Field.Basic
import Mathlib.Data.Finset.Lattice.Basic
import Mathlib.Logic.Relation
import Mathlib.Tactic.FieldSimp
import Mathlib.Tactic.Ring

/-!
# Average linkage

Plain agglomerative clustering: starting from single points, merge two clusters at the least mean
distance, as long as it is below a cutoff. A clustering is a finite set of finite sets of points,
and which of several closest pairs is merged is left open (`Merges`); what may come out is `Yields`.

The mean distance to a union is the weighted mean of the mean distances (`mean_union`), so it is
never below both (`le_mean_union`).
-/

namespace MeetilyLocal

namespace Linkage

universe u v w

variable {ι : Type u} {κ : Type v} {α : Type w}

/-! ## Scans for the least -/

/-- One step of a scan that keeps the first candidate with the least key. -/
def keepLeast [LinearOrder α] (candidate : ι → Option κ) (key : κ → α) (best : Option κ) (x : ι) :
    Option κ :=
  match candidate x, best with
  | none, best => best
  | some c, none => some c
  | some c, some b => if key c < key b then some c else some b

section Scans

variable [LinearOrder α] {candidate : ι → Option κ} {key : κ → α} {b c : κ} {best : Option κ}
  {x : ι} {xs : List ι}

theorem keepLeast_of_none (hx : candidate x = none) : keepLeast candidate key best x = best := by
  simp [keepLeast, hx]

theorem keepLeast_none (hx : candidate x = some c) :
    keepLeast candidate key none x = some c := by
  simp [keepLeast, hx]

theorem keepLeast_some (hx : candidate x = some c) :
    keepLeast candidate key (some b) x = if key c < key b then some c else some b := by
  simp [keepLeast, hx]

/-- What the scan found before `x` and after it. -/
theorem foldl_keepLeast_concat (xs : List ι) (x : ι) :
    (xs ++ [x]).foldl (keepLeast candidate key) none =
      keepLeast candidate key (xs.foldl (keepLeast candidate key) none) x := by
  rw [List.foldl_append, List.foldl_cons, List.foldl_nil]

/-- The scan finds nothing only where there is nothing. -/
theorem candidate_of_foldl_keepLeast (h : xs.foldl (keepLeast candidate key) none = none) :
    ∀ x ∈ xs, candidate x = none := by
  induction xs using List.reverseRecOn with
  | nil => simp
  | append_singleton xs x ih =>
    rw [foldl_keepLeast_concat] at h
    cases hx : candidate x with
    | none =>
      rw [keepLeast_of_none hx] at h
      intro y hy
      rcases List.mem_append.mp hy with hy | hy
      · exact ih h y hy
      · rw [List.mem_singleton.mp hy, hx]
    | some c =>
      cases hbest : xs.foldl (keepLeast candidate key) none with
      | none => simp [hbest, keepLeast_none hx] at h
      | some b =>
        rw [hbest, keepLeast_some hx] at h
        split at h <;> cases h

/-- What the scan finds is the least candidate. -/
theorem of_foldl_keepLeast (h : xs.foldl (keepLeast candidate key) none = some b) :
    (∃ x ∈ xs, candidate x = some b) ∧ ∀ x ∈ xs, ∀ c, candidate x = some c → key b ≤ key c := by
  induction xs using List.reverseRecOn generalizing b with
  | nil => cases h
  | append_singleton xs x ih =>
    rw [foldl_keepLeast_concat] at h
    suffices hlast : ((∃ y ∈ xs, candidate y = some b) ∨ candidate x = some b) ∧
        (∀ y ∈ xs, ∀ c, candidate y = some c → key b ≤ key c) ∧
          ∀ c, candidate x = some c → key b ≤ key c by
      obtain ⟨hfound, hle, hlelast⟩ := hlast
      refine ⟨?_, fun y hy => ?_⟩
      · rcases hfound with ⟨y, hy, hyb⟩ | hxb
        · exact ⟨y, List.mem_append_left _ hy, hyb⟩
        · exact ⟨x, by simp, hxb⟩
      · rcases List.mem_append.mp hy with hy | hy
        · exact hle y hy
        · rwa [List.mem_singleton.mp hy]
    cases hx : candidate x with
    | none =>
      rw [keepLeast_of_none hx] at h
      obtain ⟨hfound, hle⟩ := ih h
      exact ⟨.inl hfound, hle, nofun⟩
    | some c =>
      cases hbest : xs.foldl (keepLeast candidate key) none with
      | none =>
        rw [hbest, keepLeast_none hx] at h
        refine ⟨.inr h, fun y hy e he => ?_, fun e he => ?_⟩
        · rw [candidate_of_foldl_keepLeast hbest y hy] at he
          cases he
        · rw [← Option.some.inj h, ← Option.some.inj he]
      | some b' =>
        obtain ⟨hfound, hle⟩ := ih hbest
        rw [hbest, keepLeast_some hx] at h
        split at h
        next hlt =>
          -- less than all candidates before it
          obtain rfl := Option.some.inj h
          refine ⟨.inr rfl, fun y hy e he => hlt.le.trans (hle y hy e he), fun e he => ?_⟩
          rw [← Option.some.inj he]
        next hlt =>
          obtain rfl := Option.some.inj h
          refine ⟨.inl hfound, hle, fun e he => ?_⟩
          rw [← Option.some.inj he]
          exact not_lt.mp hlt

/-- Renaming the candidates renames what the scan finds, if it keeps the order of their keys. -/
theorem foldl_keepLeast_map {κ' : Type v} {β : Type w} [LinearOrder β] (g : κ → κ') (key' : κ' → β)
    (hkey : ∀ b c, key' (g c) < key' (g b) ↔ key c < key b) (xs : List ι) :
    xs.foldl (keepLeast (fun x => (candidate x).map g) key') none =
      (xs.foldl (keepLeast candidate key) none).map g := by
  induction xs using List.reverseRecOn with
  | nil => rfl
  | append_singleton xs x ih =>
    rw [foldl_keepLeast_concat, foldl_keepLeast_concat, ih]
    cases hx : candidate x with
    | none => simp [keepLeast, hx]
    | some c =>
      cases xs.foldl (keepLeast candidate key) none with
      | none => simp [keepLeast, hx]
      | some b => by_cases hlt : key c < key b <;> simp [keepLeast, hx, hkey, hlt]

end Scans

/-! ## The mean distance -/

section Mean

variable [Field α] {d : ι → ι → α} {A B C : Finset ι}

/-- The mean of the distances from the points of one cluster to those of another. -/
def mean (d : ι → ι → α) (A B : Finset ι) : α := (∑ x ∈ A, ∑ y ∈ B, d x y) / (A.card * B.card)

theorem mean_comm (hd : ∀ x y, d x y = d y x) : mean d A B = mean d B A := by
  rw [mean, mean, Finset.sum_comm, mul_comm (A.card : α)]
  simp only [fun x y => hd x y]

theorem mean_congr {d' : ι → ι → α} (h : ∀ x ∈ A, ∀ y ∈ B, d x y = d' x y) :
    mean d A B = mean d' A B := by
  rw [mean, mean]
  congr 1
  exact Finset.sum_congr rfl fun x hx => Finset.sum_congr rfl fun y hy => h x hx y hy

@[simp] theorem mean_singleton (x y : ι) : mean d {x} {y} = d x y := by
  simp [mean]

variable [LinearOrder α] [IsStrictOrderedRing α] [DecidableEq ι]

/-- The mean distance from a union. -/
theorem mean_union (hdisjoint : Disjoint A B) (hA : A.Nonempty) (hB : B.Nonempty) :
    mean d (A ∪ B) C = (A.card * mean d A C + B.card * mean d B C) / (A.card + B.card) := by
  have ha : (A.card : α) ≠ 0 := by exact_mod_cast hA.card_pos.ne'
  have hb : (B.card : α) ≠ 0 := by exact_mod_cast hB.card_pos.ne'
  have hleft : A.card * mean d A C = (∑ x ∈ A, ∑ y ∈ C, d x y) / C.card := by
    rw [mean, mul_div_assoc', mul_div_mul_left _ _ ha]
  have hright : B.card * mean d B C = (∑ x ∈ B, ∑ y ∈ C, d x y) / C.card := by
    rw [mean, mul_div_assoc', mul_div_mul_left _ _ hb]
  rw [hleft, hright, ← add_div, div_div, mean, Finset.sum_union hdisjoint,
    Finset.card_union_of_disjoint hdisjoint, Nat.cast_add, mul_comm (C.card : α)]

/-- A weighted mean is not below what both values are not below. -/
theorem le_weighted {m n a b x : α} (hm : 0 < m) (hn : 0 < n) (ha : x ≤ a) (hb : x ≤ b) :
    x ≤ (m * a + n * b) / (m + n) := by
  rw [le_div_iff₀ (add_pos hm hn)]
  calc x * (m + n) = m * x + n * x := by ring
    _ ≤ m * a + n * b :=
      add_le_add (mul_le_mul_of_nonneg_left ha hm.le) (mul_le_mul_of_nonneg_left hb hn.le)

end Mean

/-! ## Clusterings -/

section Clusterings

variable [Field α] [LinearOrder α] [DecidableEq ι] {d : ι → ι → α} {cutoff : α}
  {P Q : Finset (Finset ι)} {A B : Finset ι}

/-- Two clusters at the least mean distance. -/
structure Closest (d : ι → ι → α) (P : Finset (Finset ι)) (A B : Finset ι) : Prop where
  /-- the one is a cluster -/
  left : A ∈ P
  /-- the other is a cluster -/
  right : B ∈ P
  /-- they are two -/
  ne : A ≠ B
  /-- no two are closer -/
  le : ∀ C ∈ P, ∀ D ∈ P, C ≠ D → mean d A B ≤ mean d C D

/-- A clustering after two of its clusters are merged. -/
def merged (P : Finset (Finset ι)) (A B : Finset ι) : Finset (Finset ι) :=
  insert (A ∪ B) ((P.erase A).erase B)

/-- Two closest clusters that are closer than the cutoff are merged. -/
def Merges (d : ι → ι → α) (cutoff : α) (P Q : Finset (Finset ι)) : Prop :=
  ∃ A B, Closest d P A B ∧ mean d A B < cutoff ∧ Q = merged P A B

/-- No two clusters are closer than the cutoff. -/
def Separated (d : ι → ι → α) (cutoff : α) (P : Finset (Finset ι)) : Prop :=
  ∀ A ∈ P, ∀ B ∈ P, A ≠ B → cutoff ≤ mean d A B

/-- Single points. -/
def singletons (points : Finset ι) : Finset (Finset ι) := points.image fun x => {x}

/-- What average linkage may end with, whichever of several closest pairs it merges. -/
def Yields (d : ι → ι → α) (cutoff : α) (points : Finset ι) (P : Finset (Finset ι)) : Prop :=
  Relation.ReflTransGen (Merges d cutoff) (singletons points) P ∧ Separated d cutoff P

/-- Two points are in one cluster. -/
def Together (P : Finset (Finset ι)) (x y : ι) : Prop := ∃ A ∈ P, x ∈ A ∧ y ∈ A

/-- Where no two clusters are closer than the cutoff, there is nothing to merge. -/
theorem Separated.not_merges (h : Separated d cutoff P) : ¬Merges d cutoff P Q := by
  rintro ⟨A, B, hclosest, hlt, -⟩
  exact absurd (h A hclosest.left B hclosest.right hclosest.ne) (not_le.mpr hlt)

/-- If every step is determined, so is the outcome. -/
theorem Yields.unique {points : Finset ι}
    (hdetermined : ∀ P, Relation.ReflTransGen (Merges d cutoff) (singletons points) P →
      ∀ Q R, Merges d cutoff P Q → Merges d cutoff P R → Q = R)
    (hP : Yields d cutoff points P) (hQ : Yields d cutoff points Q) : P = Q := by
  obtain ⟨hreachesP, hseparatedP⟩ := hP
  obtain ⟨hreachesQ, hseparatedQ⟩ := hQ
  -- along the way to `P`, the way to `Q` goes through the same clusterings
  have hthrough : ∀ R, Relation.ReflTransGen (Merges d cutoff) (singletons points) R →
      Relation.ReflTransGen (Merges d cutoff) R Q ∨
        Relation.ReflTransGen (Merges d cutoff) Q R := by
    intro R hR
    induction hR with
    | refl => exact .inl hreachesQ
    | tail hreaches hstep ih =>
      rcases ih with ih | ih
      · rcases ih.cases_head with rfl | ⟨S, hstep', hrest⟩
        · exact .inr (.single hstep)
        · rw [hdetermined _ hreaches _ _ hstep hstep']
          exact .inl hrest
      · exact .inr (ih.tail hstep)
  rcases hthrough P hreachesP with h | h
  · rcases h.cases_head with heq | ⟨S, hstep, -⟩
    · exact heq
    · exact absurd hstep hseparatedP.not_merges
  · rcases h.cases_head with heq | ⟨S, hstep, -⟩
    · exact heq.symm
    · exact absurd hstep hseparatedQ.not_merges

/-- Of two clusters at most, all are merged. -/
theorem Merges.eq_of_card_le_two (h : Merges d cutoff P Q) (hcard : P.card ≤ 2) :
    Q = {P.sup id} := by
  obtain ⟨A, B, hclosest, -, rfl⟩ := h
  have hpair : {A, B} = P := by
    refine Finset.eq_of_subset_of_card_le ?_ (by rwa [Finset.card_pair hclosest.ne])
    exact Finset.insert_subset hclosest.left (Finset.singleton_subset_iff.mpr hclosest.right)
  rw [← hpair, merged, Finset.sup_insert, Finset.sup_singleton]
  have hrest : (({A, B} : Finset (Finset ι)).erase A).erase B = ∅ := by
    ext C
    simp only [Finset.mem_erase, Finset.mem_insert, Finset.mem_singleton, Finset.notMem_empty]
    tauto
  rw [hrest]
  rfl

/-- Two points are clustered in one way only. -/
theorem Yields.unique_of_card_le_two {points : Finset ι} (hcard : points.card ≤ 2)
    (hP : Yields d cutoff points P) (hQ : Yields d cutoff points Q) : P = Q := by
  refine hP.unique (fun R hR => ?_) hQ
  -- at most two clusters, from the first to the last
  have hle : R.card ≤ 2 := by
    induction hR with
    | refl => exact Finset.card_image_le.trans hcard
    | tail _ hstep ih =>
      rw [hstep.eq_of_card_le_two ih, Finset.card_singleton]
      omega
  intro S T hS hT
  rw [hS.eq_of_card_le_two hle, hT.eq_of_card_le_two hle]

end Clusterings

/-! ## Renaming the points -/

section Renaming

variable {P Q : Finset (Finset ι)} {A B : Finset ι}

theorem mean_map [Field α] {d : κ → κ → α} (e : ι ≃ κ) (A B : Finset ι) :
    mean d (A.map e.toEmbedding) (B.map e.toEmbedding) = mean (fun x y => d (e x) (e y)) A B := by
  simp [mean]

variable [DecidableEq κ]

/-- A clustering under other names of the points. -/
def rename (e : ι ≃ κ) (P : Finset (Finset ι)) : Finset (Finset κ) :=
  P.image fun A => A.map e.toEmbedding

theorem mem_rename (e : ι ≃ κ) : A.map e.toEmbedding ∈ rename e P ↔ A ∈ P := by
  simp only [rename, Finset.mem_image]
  refine ⟨?_, fun h => ⟨A, h, rfl⟩⟩
  rintro ⟨B, hB, heq⟩
  rwa [← Finset.map_injective _ heq]

theorem together_rename (e : ι ≃ κ) {x y : ι} :
    Together (rename e P) (e x) (e y) ↔ Together P x y := by
  constructor
  · rintro ⟨A', hA', hx, hy⟩
    obtain ⟨A, hA, rfl⟩ := Finset.mem_image.mp hA'
    exact ⟨A, hA, by simpa using hx, by simpa using hy⟩
  · rintro ⟨A, hA, hx, hy⟩
    exact ⟨A.map e.toEmbedding, (mem_rename e).mpr hA, by simpa using hx, by simpa using hy⟩

variable [DecidableEq ι]

theorem rename_merged (e : ι ≃ κ) :
    rename e (merged P A B) =
      merged (rename e P) (A.map e.toEmbedding) (B.map e.toEmbedding) := by
  have hinj : Function.Injective fun A : Finset ι => A.map e.toEmbedding :=
    Finset.map_injective _
  rw [rename, merged, Finset.image_insert, Finset.image_erase hinj, Finset.image_erase hinj,
    Finset.map_union]
  rfl

theorem rename_singletons (e : ι ≃ κ) (points : Finset ι) :
    rename e (singletons points) = singletons (points.map e.toEmbedding) := by
  rw [rename, singletons, singletons, Finset.map_eq_image, Finset.image_image, Finset.image_image]
  simp only [Function.comp_def, Finset.map_singleton]

variable [Field α] [LinearOrder α] {d : κ → κ → α} {cutoff : α}

theorem Merges.rename (e : ι ≃ κ) (h : Merges (fun x y => d (e x) (e y)) cutoff P Q) :
    Merges d cutoff (rename e P) (rename e Q) := by
  obtain ⟨A, B, hclosest, hlt, rfl⟩ := h
  refine ⟨A.map e.toEmbedding, B.map e.toEmbedding, ⟨(mem_rename e).mpr hclosest.left,
    (mem_rename e).mpr hclosest.right, fun h => hclosest.ne (Finset.map_injective _ h), ?_⟩, ?_,
    rename_merged e⟩
  · intro C' hC' D' hD' hne
    obtain ⟨C, hC, rfl⟩ := Finset.mem_image.mp hC'
    obtain ⟨D, hD, rfl⟩ := Finset.mem_image.mp hD'
    rw [mean_map, mean_map]
    exact hclosest.le C hC D hD fun h => hne (by rw [h])
  · rwa [mean_map]

/-- What average linkage may end with does not depend on the names of the points. -/
theorem Yields.rename (e : ι ≃ κ) {points : Finset ι}
    (h : Yields (fun x y => d (e x) (e y)) cutoff points P) :
    Yields d cutoff (points.map e.toEmbedding) (rename e P) := by
  obtain ⟨hreaches, hseparated⟩ := h
  refine ⟨?_, ?_⟩
  · rw [← rename_singletons]
    exact hreaches.lift (Linkage.rename e) fun _ _ h => Merges.rename e h
  · intro A' hA' B' hB' hne
    obtain ⟨A, hA, rfl⟩ := Finset.mem_image.mp hA'
    obtain ⟨B, hB, rfl⟩ := Finset.mem_image.mp hB'
    rw [mean_map]
    exact hseparated A hA B hB fun h => hne (by rw [h])

end Renaming

end Linkage

end MeetilyLocal
