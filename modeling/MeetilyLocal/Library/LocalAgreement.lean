import MeetilyLocal.Library.Words

/-!
# Committing what hypotheses agree on

A series of hypotheses, each a list, is made stable by committing only what two of them in a row agree
on: when they agree on more than is committed, that is committed instead (`Agreement.agree`).

The committed list grows in length. It need not grow at its end alone, since what the last two
hypotheses agree on is not compared with what is committed. `previews_pairwise_iff` says for which
series it does: for those where a longest agreement so far starts with the longest agreements before
it (`Steady`).
-/

namespace MeetilyLocal

universe u

variable {α : Type u}

/-- The last hypothesis, and what is committed. -/
structure Agreement (α : Type u) : Type u where
  /-- the previous hypothesis -/
  prev : List α
  /-- what two hypotheses in a row agreed on -/
  committed : List α
  deriving DecidableEq

namespace Agreement

/-- What is shown of a state: what is committed, if there is any. -/
def shown (state : Agreement α) : List (List α) :=
  if state.committed = [] then [] else [state.committed]

theorem mem_shown {state : Agreement α} {preview : List α} :
    preview ∈ shown state ↔ preview = state.committed ∧ state.committed ≠ [] := by
  rw [shown]
  split
  · simp [*]
  · simp [*]

/-- Before the first hypothesis. -/
def initial : Agreement α := ⟨[], []⟩

variable [DecidableEq α]

/-- A hypothesis arrives. -/
def agree (state : Agreement α) (cur : List α) : Agreement α :=
  let agreed := commonPrefixLen state.prev cur
  ⟨cur, if state.committed.length < agreed then cur.take agreed else state.committed⟩

/-- After a series of hypotheses. -/
def after (hypotheses : List (List α)) : Agreement α := hypotheses.foldl agree initial

/-- What is shown while the hypotheses arrive. -/
def previews (hypotheses : List (List α)) : List (List α) :=
  (List.range hypotheses.length).flatMap fun k => (after (hypotheses.take (k + 1))).shown

/-! ## The states -/

@[simp] theorem after_nil : after ([] : List (List α)) = initial := rfl

@[simp] theorem after_concat (hypotheses : List (List α)) (cur : List α) :
    after (hypotheses ++ [cur]) = (after hypotheses).agree cur := by
  simp [after]

@[simp] theorem previews_nil : previews ([] : List (List α)) = [] := rfl

/-- A hypothesis shows what is committed then. -/
theorem previews_concat (hypotheses : List (List α)) (cur : List α) :
    previews (hypotheses ++ [cur]) =
      previews hypotheses ++ (after (hypotheses ++ [cur])).shown := by
  have hbefore : ∀ k ∈ List.range hypotheses.length,
      (after ((hypotheses ++ [cur]).take (k + 1))).shown =
        (after (hypotheses.take (k + 1))).shown := by
    intro k hk
    rw [List.take_append_of_le_length (List.mem_range.mp hk)]
  rw [previews, List.length_append, List.length_singleton, List.range_succ, List.flatMap_append,
    List.flatMap_singleton, List.flatMap_congr hbefore,
    List.take_of_length_le (by simp), previews]

theorem mem_of_mem_committed {hypotheses : List (List α)} {x : α}
    (h : x ∈ (after hypotheses).committed) : ∃ hypothesis ∈ hypotheses, x ∈ hypothesis := by
  induction hypotheses using List.reverseRecOn with
  | nil => cases h
  | append_singleton hypotheses cur ih =>
    rw [after_concat, agree] at h
    split at h
    · exact ⟨cur, by simp, List.mem_of_mem_take h⟩
    · obtain ⟨hypothesis, hmem, hx⟩ := ih h
      exact ⟨hypothesis, by simp [hmem], hx⟩

/-- What is shown is of the hypotheses. -/
theorem mem_of_mem_previews {hypotheses : List (List α)} {preview : List α}
    (h : preview ∈ previews hypotheses) :
    preview ≠ [] ∧ ∀ x ∈ preview, ∃ hypothesis ∈ hypotheses, x ∈ hypothesis := by
  obtain ⟨k, -, hk⟩ := List.mem_flatMap.mp h
  obtain ⟨rfl, hne⟩ := mem_shown.mp hk
  refine ⟨hne, fun x hx => ?_⟩
  obtain ⟨hypothesis, hmem, hx⟩ := mem_of_mem_committed hx
  exact ⟨hypothesis, List.mem_of_mem_take hmem, hx⟩

/-! ## When the committed list grows at its end only -/

/-- What the `k`-th hypothesis agrees on with the one before it. -/
def agreed (hypotheses : List (List α)) (k : ℕ) : List α :=
  let cur := hypotheses.getD k []
  cur.take (commonPrefixLen (if k = 0 then [] else hypotheses.getD (k - 1) []) cur)

/-- The `k`-th hypothesis agrees on more with the one before it than any did before. -/
def Longest (hypotheses : List (List α)) (k : ℕ) : Prop :=
  ∀ i < k, (agreed hypotheses i).length < (agreed hypotheses k).length

/-- A longest agreement so far is about a hypothesis that starts with the longest agreements before
it. -/
def Steady (hypotheses : List (List α)) : Prop :=
  ∀ j k, j < k → k < hypotheses.length → Longest hypotheses j → Longest hypotheses k →
    agreed hypotheses j <+: hypotheses.getD k []

/-! ## What is committed after so many hypotheses -/

variable {hypotheses : List (List α)} {cur : List α} {k : ℕ}

/-- What is committed after the first `k` hypotheses. -/
def committedAfter (hypotheses : List (List α)) (k : ℕ) : List α :=
  (after (hypotheses.take k)).committed

theorem prev_after_take (h : k ≤ hypotheses.length) :
    (after (hypotheses.take k)).prev = if k = 0 then [] else hypotheses.getD (k - 1) [] := by
  cases k with
  | zero => rfl
  | succ k =>
    have hlt : k < hypotheses.length := h
    rw [List.take_add_one, List.getElem?_eq_getElem hlt, Option.toList_some, after_concat]
    simp [agree, hlt]

theorem length_agreed (hypotheses : List (List α)) (k : ℕ) :
    (agreed hypotheses k).length = commonPrefixLen
      (if k = 0 then [] else hypotheses.getD (k - 1) []) (hypotheses.getD k []) := by
  rw [agreed, List.length_take, min_eq_left (commonPrefixLen_le _ _)]

/-- **A step**: what was agreed on is committed if it is longer. -/
theorem committedAfter_succ (h : k < hypotheses.length) :
    committedAfter hypotheses (k + 1) =
      if (committedAfter hypotheses k).length < (agreed hypotheses k).length
      then agreed hypotheses k else committedAfter hypotheses k := by
  have hget : hypotheses.getD k [] = hypotheses[k] := by simp [h]
  rw [committedAfter, List.take_add_one, List.getElem?_eq_getElem h, Option.toList_some,
    after_concat, agree, prev_after_take h.le, ← hget, length_agreed]
  rfl

theorem length_committedAfter_le (h : k < hypotheses.length) :
    (committedAfter hypotheses k).length ≤ (committedAfter hypotheses (k + 1)).length := by
  rw [committedAfter_succ h]
  split
  · next hlt => exact hlt.le
  · exact le_rfl

/-- What is committed is a longest agreement so far, and no agreement is longer. -/
theorem committedAfter_longest (h : k ≤ hypotheses.length) :
    (∀ i < k, (agreed hypotheses i).length ≤ (committedAfter hypotheses k).length) ∧
      (committedAfter hypotheses k = [] ∨
        ∃ j < k, Longest hypotheses j ∧ committedAfter hypotheses k = agreed hypotheses j) := by
  induction k with
  | zero => exact ⟨by simp, .inl rfl⟩
  | succ k ih =>
    obtain ⟨hbound, hlongest⟩ := ih (by omega)
    rw [committedAfter_succ h]
    split
    next hlt =>
      refine ⟨fun i hi => ?_, .inr ⟨k, by omega, fun i hi => (hbound i hi).trans_lt hlt, rfl⟩⟩
      rcases Nat.lt_succ_iff_lt_or_eq.mp hi with hik | rfl
      · exact (hbound i hik).trans hlt.le
      · exact le_rfl
    next hge =>
      constructor
      · intro i hi
        rcases Nat.lt_succ_iff_lt_or_eq.mp hi with hik | rfl
        · exact hbound i hik
        · omega
      · rcases hlongest with hnil | ⟨j, hj, hrest⟩
        · exact .inl hnil
        · exact .inr ⟨j, by omega, hrest⟩

/-- A longest agreement is committed. -/
theorem committedAfter_of_longest (h : k < hypotheses.length) (hlongest : Longest hypotheses k) :
    committedAfter hypotheses (k + 1) = agreed hypotheses k := by
  rw [committedAfter_succ h]
  split
  next => rfl
  next hge =>
    -- nothing was agreed on, then or before
    rcases (committedAfter_longest h.le).2 with hnil | ⟨j, hj, -, hcommitted⟩
    · rw [hnil] at hge ⊢
      exact (List.length_eq_zero_iff.mp (by simpa using hge)).symm
    · rw [hcommitted] at hge
      exact absurd (hlongest j hj) hge

/-- What is committed grows at its end. -/
def Grows (hypotheses : List (List α)) : Prop :=
  ∀ k < hypotheses.length, committedAfter hypotheses k <+: committedAfter hypotheses (k + 1)

theorem Grows.isPrefix (h : Grows hypotheses) {j : ℕ} (hjk : j ≤ k) (hk : k ≤ hypotheses.length) :
    committedAfter hypotheses j <+: committedAfter hypotheses k := by
  induction k, hjk using Nat.le_induction with
  | base => exact List.prefix_rfl
  | succ k hjk ih => exact (ih (by omega)).trans (h k hk)

theorem grows_iff_steady : Grows hypotheses ↔ Steady hypotheses := by
  constructor
  · intro h j k hjk hk hj hlongest
    have hgrows := h.isPrefix (show j + 1 ≤ k + 1 by omega) hk
    rw [committedAfter_of_longest (hjk.trans hk) hj, committedAfter_of_longest hk hlongest]
      at hgrows
    exact hgrows.trans (List.take_prefix _ _)
  · intro h k hk
    rw [committedAfter_succ hk]
    split
    next hlt =>
      obtain ⟨hbound, hcommitted⟩ := committedAfter_longest hk.le
      rcases hcommitted with hnil | ⟨j, hj, hlongest, hcommitted⟩
      · rw [hnil]
        exact List.nil_prefix
      · rw [hcommitted] at hbound hlt ⊢
        exact List.prefix_of_prefix_length_le
          (h j k hj hk hlongest fun i hi => (hbound i hi).trans_lt hlt)
          (List.take_prefix _ _) hlt.le
    next => exact List.prefix_rfl

/-! ## What is shown -/

theorem previews_pairwise_iff_grows :
    (previews hypotheses).Pairwise (· <+: ·) ↔ Grows hypotheses := by
  rw [previews, List.pairwise_flatMap]
  constructor
  · rintro ⟨-, hpairwise⟩ k hk
    cases k with
    | zero => exact List.nil_prefix
    | succ k =>
      by_cases hnil : committedAfter hypotheses (k + 1) = []
      · rw [hnil]
        exact List.nil_prefix
      · have hnext : committedAfter hypotheses (k + 1 + 1) ≠ [] := by
          have hle := length_committedAfter_le hk
          exact List.ne_nil_of_length_pos ((List.length_pos_of_ne_nil hnil).trans_le hle)
        have hrel := List.pairwise_iff_getElem.mp hpairwise k (k + 1) (by simp; omega) (by simpa)
          (Nat.lt_succ_self k)
        rw [List.getElem_range, List.getElem_range] at hrel
        exact hrel _ (mem_shown.mpr ⟨rfl, hnil⟩) _ (mem_shown.mpr ⟨rfl, hnext⟩)
  · intro h
    refine ⟨fun k _ => ?_, ?_⟩
    · rw [shown]
      split <;> simp
    · refine List.pairwise_lt_range.imp_of_mem fun {j k} _ hk hjk p hp q hq => ?_
      rw [(mem_shown.mp hp).1, (mem_shown.mp hq).1]
      exact h.isPrefix (show j + 1 ≤ k + 1 by omega) (List.mem_range.mp hk)

/-- **What is shown grows at its end** if and only if the hypotheses are steady. -/
theorem previews_pairwise_iff :
    (previews hypotheses).Pairwise (· <+: ·) ↔ Steady hypotheses :=
  previews_pairwise_iff_grows.trans grows_iff_steady

end Agreement

end MeetilyLocal
