import MeetilyLocal.Summary.Processor

/-!
# The token budget of a chunk

A chunk is as long as the budget of tokens is at the density of the whole text. Where the text is
denser than that, for one because it changes to another script, a chunk counts more tokens than its
budget (`not_withinBudget_mixed`).

A stretch of the text is no denser than the whole if it stays within the budget (`EvenlyDense`). The
chunks are stretches, and where they overlap enough every stretch is a chunk, so that this is when the
budget is kept whatever the overlap (`withinBudget_iff`). A text in one dense script is an example
(`evenlyDense_of_weights`).
-/

namespace MeetilyLocal

namespace SummaryProcessor

open Cuts

variable {text : List Char} {size overlap chunkSizeTokens : ℕ}

/-! ## Counting a part of a text -/

theorem charWeight_nonneg (c : Char) : 0 ≤ charWeight c := by
  rw [charWeight]
  split
  · exact Binary64.round_nonneg (by norm_num)
  · exact zero_le_one

theorem addWeights_cons (estimate : ℚ) (c : Char) (s : List Char) :
    addWeights estimate (c :: s) = addWeights (Binary64.round (estimate + charWeight c)) s := rfl

theorem addWeights_append (estimate : ℚ) (s s' : List Char) :
    addWeights estimate (s ++ s') = addWeights (addWeights estimate s) s' := List.foldl_append

theorem addWeights_nonneg {estimate : ℚ} (h : 0 ≤ estimate) (s : List Char) :
    0 ≤ addWeights estimate s := by
  induction s generalizing estimate with
  | nil => exact h
  | cons c s ih => exact ih (Binary64.round_nonneg (add_nonneg h (charWeight_nonneg c)))

theorem addWeights_mono {estimate estimate' : ℚ} (h : 0 ≤ estimate) (hle : estimate ≤ estimate')
    (s : List Char) : addWeights estimate s ≤ addWeights estimate' s := by
  induction s generalizing estimate estimate' with
  | nil => exact hle
  | cons c s ih =>
    have hsum := add_nonneg h (charWeight_nonneg c)
    exact ih (Binary64.round_nonneg hsum) (Binary64.round_mono hsum (add_le_add_left hle _))

/-- The end of a text counts no more than the text. -/
theorem roughTokenCount_drop_le (s : List Char) (n : ℕ) :
    roughTokenCount (s.drop n) ≤ roughTokenCount s := by
  have hle : addWeights 0 (s.drop n) ≤ addWeights 0 s := by
    conv_rhs => rw [← List.take_append_drop n s, addWeights_append]
    exact addWeights_mono le_rfl (addWeights_nonneg le_rfl _) _
  exact Binary64.asUsize_mono (Int.ceil_mono hle)

/-! ## Every stretch is a chunk -/

/-- With the largest overlap a chunk starts at every character, up to the last one that is needed. -/
theorem Starts.mem_of_overlap {start : ℕ} {starts : List ℕ}
    (h : Starts text size overlap start starts) (hoverlap : size ≤ max overlap 1) :
    (∀ s, start ≤ s → s + size < text.length → s ∈ starts) ∧
      max start (text.length - size) ∈ starts := by
  induction h with
  | @last start hstart hend =>
    refine ⟨fun s hs hlt => by omega, ?_⟩
    rw [max_eq_left (by omega)]
    exact List.mem_singleton_self start
  | @next start starts hlt _ ih =>
    have hlength := length_piece_le hlt
    have hstep : max (start + (piece text size start).length - overlap) (start + 1) =
        start + 1 := max_eq_right (by omega)
    rw [hstep] at ih
    refine ⟨fun s hs hin => ?_, ?_⟩
    · rcases hs.eq_or_lt with rfl | hs
      · exact List.mem_cons_self
      · exact List.mem_cons_of_mem _ (ih.1 s hs hin)
    · have hlast := ih.2
      rw [max_eq_right (by omega)] at hlast
      rw [max_eq_right (by omega)]
      exact List.mem_cons_of_mem _ hlast

theorem Starts.mem_start {start : ℕ} {starts : List ℕ} (h : Starts text size overlap start starts) :
    start ∈ starts := by
  cases h with
  | last => exact List.mem_singleton_self start
  | next => exact List.mem_cons_self

/-! ## The budget -/

/-- No chunk counts more tokens than its budget, and one more for rounding. -/
def WithinBudget (text : List Char) (chunkSizeTokens overlapTokens : ℕ) : Prop :=
  ∃ chunks, chunkText text chunkSizeTokens overlapTokens = some chunks ∧
    ∀ chunk ∈ chunks, roughTokenCount chunk ≤ chunkSizeTokens + 1

/-- No stretch of the text of the length of a chunk is denser than the text, but for rounding. -/
structure EvenlyDense (text : List Char) (chunkSizeTokens : ℕ) : Prop where
  /-- wherever it starts, as far as its last sentence or word -/
  inside : ∀ start, start + chunkSizeChars text chunkSizeTokens < text.length →
    roughTokenCount (cutBack
      (slice text (start, start + chunkSizeChars text chunkSizeTokens))) ≤ chunkSizeTokens + 1
  /-- at the end of the text -/
  atEnd : roughTokenCount (text.drop (text.length - chunkSizeChars text chunkSizeTokens)) ≤
    chunkSizeTokens + 1

theorem EvenlyDense.piece_le (h : EvenlyDense text chunkSizeTokens) (start : ℕ) :
    roughTokenCount (piece text (chunkSizeChars text chunkSizeTokens) start) ≤
      chunkSizeTokens + 1 := by
  rw [piece]
  split
  · next hlt => exact h.inside start hlt
  · next hge =>
    -- it is the end of the last stretch
    have hdrop : text.drop start =
        (text.drop (text.length - chunkSizeChars text chunkSizeTokens)).drop
          (start - (text.length - chunkSizeChars text chunkSizeTokens)) := by
      rw [List.drop_drop]
      congr 1
      omega
    rw [hdrop]
    exact (roughTokenCount_drop_le _ _).trans h.atEnd

/-- **The budget is kept**, whatever the overlap, exactly by the texts that are evenly dense. -/
theorem withinBudget_iff (hpos : 0 < chunkSizeTokens) :
    (∀ overlapTokens, WithinBudget text chunkSizeTokens overlapTokens) ↔
      EvenlyDense text chunkSizeTokens := by
  by_cases htext : text = []
  · refine iff_of_true (fun overlapTokens => ⟨[], ?_, by simp⟩) ⟨by simp [htext], ?_⟩
    · rw [chunkText, if_pos (.inl htext)]
    · rw [htext, List.drop_nil]
      exact Nat.zero_le _
  refine ⟨fun h => ?_, fun h overlapTokens => ?_⟩
  · -- an overlap as large as a chunk
    obtain ⟨chunks, hchunks, hle⟩ := h chunkSizeTokens
    obtain ⟨starts, hstarted, hstarts⟩ := exists_chunkText htext hpos chunkSizeTokens
    obtain rfl := Option.some.inj (hchunks.symm.trans hstarted)
    obtain ⟨hinside, hlast⟩ := hstarts.mem_of_overlap le_rfl
    rw [Nat.zero_max] at hlast
    refine ⟨fun start hlt => ?_, ?_⟩
    · have hpiece := hle _ (List.mem_map_of_mem (hinside start (Nat.zero_le _) hlt))
      rwa [piece, if_pos hlt] at hpiece
    · have hpiece := hle _ (List.mem_map_of_mem hlast)
      rwa [piece, if_neg (by omega)] at hpiece
  · obtain ⟨starts, hchunks, -⟩ := exists_chunkText htext hpos overlapTokens
    exact ⟨_, hchunks, List.forall_mem_map.mpr fun start _ => h.piece_le start⟩

/-! ### Texts in one dense script -/

theorem addWeights_of_weights {s : List Char} (h : ∀ c ∈ s, charWeight c = 1) {n : ℕ}
    (hn : n + s.length < 2 ^ 53) : addWeights n s = (n + s.length : ℕ) := by
  induction s generalizing n with
  | nil => rfl
  | cons c s ih =>
    obtain ⟨hc, hs⟩ := List.forall_mem_cons.mp h
    rw [List.length_cons] at hn
    have hsum : Binary64.round (n + charWeight c) = (n + 1 : ℕ) := by
      rw [hc, ← Nat.cast_one, ← Nat.cast_add]
      exact Binary64.round_natCast (by omega)
    rw [addWeights_cons, hsum, ih hs (by omega), List.length_cons]
    congr 1
    omega

theorem roughTokenCount_of_weights {s : List Char} (h : ∀ c ∈ s, charWeight c = 1)
    (hs : s.length < 2 ^ 53) : roughTokenCount s = s.length := by
  have hsum := addWeights_of_weights h (n := 0) (by omega)
  rw [Nat.cast_zero, Nat.zero_add] at hsum
  rw [roughTokenCount, hsum, Int.ceil_natCast, Binary64.asUsize, Int.toNat_natCast]
  omega

/-- Such a text has one character for each token, and so have its chunks. -/
theorem chunkSizeChars_of_weights (h : ∀ c ∈ text, charWeight c = 1) (htext : text ≠ [])
    (hlength : text.length < 2 ^ 53) (hsize : chunkSizeTokens < 2 ^ 53) :
    chunkSizeChars text chunkSizeTokens = max chunkSizeTokens 1 := by
  have hpos := List.length_pos_of_ne_nil htext
  have hdensity : charsPerToken text = 1 := by
    rw [charsPerToken, roughTokenCount_of_weights h hlength, totalChars_eq, max_eq_left hpos,
      Binary64.round_natCast hlength, div_self (by exact_mod_cast hpos.ne'), ← Nat.cast_one]
    exact Binary64.round_natCast (by norm_num)
  rw [chunkSizeChars, hdensity, mul_one, Binary64.round_natCast hsize,
    Binary64.round_natCast hsize, Int.ceil_natCast, Binary64.asUsize, Int.toNat_natCast]
  omega

/-- **A text in one dense script** is evenly dense. -/
theorem evenlyDense_of_weights (h : ∀ c ∈ text, charWeight c = 1) (hlength : text.length < 2 ^ 53)
    (chunkSizeTokens : ℕ) : EvenlyDense text chunkSizeTokens := by
  have hcount : ∀ {s : List Char}, s <:+: text → roughTokenCount s = s.length := fun hs =>
    roughTokenCount_of_weights (fun c hc => h c (hs.subset hc)) (hs.length_le.trans_lt hlength)
  have hshort : ∀ {s : List Char}, s <:+: text → s.length ≤ chunkSizeChars text chunkSizeTokens →
      roughTokenCount s ≤ chunkSizeTokens + 1 := by
    intro s hs hle
    rw [hcount hs]
    by_cases htext : text = []
    · exact hs.length_le.trans (by simp [htext])
    · rcases lt_or_ge chunkSizeTokens text.length with hlt | hge
      · rw [chunkSizeChars_of_weights h htext hlength (hlt.trans hlength)] at hle
        omega
      · exact hs.length_le.trans (by omega)
  constructor
  · intro start hlt
    have hcut := (cutBack_spec (slice text (start, start + chunkSizeChars text chunkSizeTokens))).1
    refine hshort ?_ ?_
    · refine hcut.isInfix.trans ?_
      exact (List.take_prefix _ _).isInfix.trans (List.drop_suffix _ _).isInfix
    · refine hcut.length_le.trans ?_
      rw [length_slice hlt.le, Nat.add_sub_cancel_left]
  · refine hshort (List.drop_suffix _ _).isInfix ?_
    rw [List.length_drop]
    omega

/-! ### A text in two scripts -/

/-- Five dense characters in front of five that are not. -/
def mixed : List Char := "あああああaaaaa".toList

theorem withinBudget_iff_mixed :
    (∀ overlapTokens, WithinBudget mixed 3 overlapTokens) ↔ EvenlyDense mixed 3 :=
  withinBudget_iff (by decide)

/-- Its first chunk counts five tokens. -/
theorem not_withinBudget_mixed : ¬WithinBudget mixed 3 0 := by
  rintro ⟨chunks, hchunks, hle⟩
  obtain ⟨starts, hstarted, hstarts⟩ := exists_chunkText (by decide : mixed ≠ [])
    (by decide : 0 < 3) 0
  obtain rfl := Option.some.inj (hchunks.symm.trans hstarted)
  have hfirst := hle _ (List.mem_map_of_mem hstarts.mem_start)
  exact absurd hfirst (by decide +kernel)

end SummaryProcessor

end MeetilyLocal
