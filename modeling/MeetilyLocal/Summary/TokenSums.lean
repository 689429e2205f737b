import MeetilyLocal.Summary.TokenBudget

/-!
# The tokens of texts that are joined

An estimate of tokens is a sum in `f64`, rounded at each character, and then rounded up. Without the
rounding a text has the weight of its characters (`weight`), which joining adds up. The sum is off by at
most half of its last place for each character (`addWeights_le`, `le_addWeights`), so that as long as the
estimates are below 2^26, texts that are joined count no more than one by one, with two tokens for each
separator (`roughTokenCount_join_le`).
-/

namespace MeetilyLocal

namespace SummaryProcessor

/-! ## What the rounding of a sum changes -/

/-- The weight of a text. -/
def weight (s : List Char) : ℚ := (s.map charWeight).sum

/-- What one addition changes at most, to a sum that stays below `2 ^ m`. -/
def unit (m : ℕ) : ℚ := 2 ^ m / 2 ^ 54

theorem unit_nonneg (m : ℕ) : 0 ≤ unit m := by
  rw [unit]
  positivity

@[simp] theorem weight_nil : weight [] = 0 := rfl

@[simp] theorem weight_cons (c : Char) (s : List Char) : weight (c :: s) = charWeight c + weight s :=
  List.sum_cons

@[simp] theorem weight_append (s s' : List Char) : weight (s ++ s') = weight s + weight s' := by
  rw [weight, List.map_append, List.sum_append]
  rfl

/-- What an ASCII character weighs. -/
theorem round_ascii : Binary64.round (35 / 100) = 3152519739159347 / 9007199254740992 := by
  decide +kernel

theorem charWeight_bounds (c : Char) : 349 / 1000 ≤ charWeight c ∧ charWeight c ≤ 1 := by
  rw [charWeight]
  split
  · rw [round_ascii]
    norm_num
  · norm_num

theorem weight_bounds (s : List Char) :
    s.length * (349 / 1000 : ℚ) ≤ weight s ∧ weight s ≤ s.length := by
  induction s with
  | nil => simp
  | cons c s ih =>
    obtain ⟨hlow, hhigh⟩ := charWeight_bounds c
    rw [weight_cons, List.length_cons]
    push_cast
    constructor <;> linarith [ih.1, ih.2]

theorem addWeights_le {estimate : ℚ} (h : 0 ≤ estimate) {m : ℕ} {s : List Char}
    (hm : estimate + weight s + s.length * unit m < 2 ^ m) :
    addWeights estimate s ≤ estimate + weight s + s.length * unit m := by
  induction s generalizing estimate with
  | nil => simp [addWeights]
  | cons c s ih =>
    have hnonneg := add_nonneg h (charWeight_nonneg c)
    have hunit := unit_nonneg m
    have hrest : 0 ≤ weight s := le_trans (by positivity) (weight_bounds s).1
    have hlength : 0 ≤ s.length * unit m := by positivity
    rw [weight_cons, List.length_cons] at hm ⊢
    push_cast at hm ⊢
    have hround : Binary64.round (estimate + charWeight c) ≤ estimate + charWeight c + unit m := by
      have hnear := Binary64.abs_round_sub_le (q := estimate + charWeight c) (m := m) hnonneg
        (by linarith)
      rw [← unit, abs_le] at hnear
      linarith [hnear.2]
    have hstep := ih (Binary64.round_nonneg hnonneg) (by linarith)
    rw [addWeights_cons]
    linarith

theorem two_pow_le_round {m : ℕ} (hm : m ≤ 52) {q : ℚ} (h : 2 ^ m ≤ q) : 2 ^ m ≤ Binary64.round q := by
  have hpow : Binary64.round (2 ^ m : ℕ) = (2 ^ m : ℕ) :=
    Binary64.round_natCast (Nat.pow_lt_pow_right (by norm_num) (by omega))
  push_cast at hpow
  rw [← hpow]
  exact Binary64.round_mono (by positivity) h

/-- A sum that has reached a power of two stays there. -/
theorem two_pow_le_addWeights {m : ℕ} (hm : m ≤ 52) {estimate : ℚ} (h : 2 ^ m ≤ estimate)
    (s : List Char) : 2 ^ m ≤ addWeights estimate s := by
  induction s generalizing estimate with
  | nil => exact h
  | cons c s ih =>
    exact ih (two_pow_le_round hm (h.trans (le_add_of_nonneg_right (charWeight_nonneg c))))

theorem le_addWeights {estimate : ℚ} (h : 0 ≤ estimate) {m : ℕ} (hm : m ≤ 52) {s : List Char}
    (hlt : addWeights estimate s < 2 ^ m) :
    estimate + weight s ≤ addWeights estimate s + s.length * unit m := by
  induction s generalizing estimate with
  | nil => simp [addWeights]
  | cons c s ih =>
    have hnonneg := add_nonneg h (charWeight_nonneg c)
    rw [addWeights_cons] at hlt ⊢
    -- the sum is below the power before it is rounded, too
    have hsum : estimate + charWeight c < 2 ^ m := by
      by_contra hge
      have hround := two_pow_le_addWeights hm (two_pow_le_round hm (not_lt.mp hge)) s
      exact absurd hlt (not_lt.mpr hround)
    have hnear := Binary64.abs_round_sub_le hnonneg hsum
    rw [← unit, abs_le] at hnear
    have hstep := ih (Binary64.round_nonneg hnonneg) hlt
    rw [weight_cons, List.length_cons]
    push_cast
    linarith [hnear.1]

/-! ## Texts that are joined -/

/-- `SEPARATOR` -/
def separator : List Char := ['\n', '-', '-', '-', '\n']

/-- `join(SEPARATOR)` -/
def join (texts : List (List Char)) : List Char := separator.intercalate texts

/-- The tokens of a summary, with the separator. -/
def tokens (summary : List Char) : ℕ := roughTokenCount summary + roughTokenCount separator

theorem roughTokenCount_separator : roughTokenCount separator = 2 := by decide +kernel

theorem join_cons_cons (text text' : List Char) (texts : List (List Char)) :
    join (text :: text' :: texts) = text ++ separator ++ join (text' :: texts) := by
  simp [join, List.intercalate]

/-- Joined texts weigh what the texts do, each with a separator but for one. -/
theorem weight_join {texts : List (List Char)} (h : texts ≠ []) :
    weight (join texts) + weight separator =
      (texts.map fun text => weight text + weight separator).sum := by
  induction texts with
  | nil => exact absurd rfl h
  | cons text texts ih =>
    cases texts with
    | nil => simp [join, List.intercalate]
    | cons text' texts =>
      rw [List.map_cons, List.sum_cons, ← ih (List.cons_ne_nil _ _), join_cons_cons, weight_append,
        weight_append]
      ring

theorem length_join {texts : List (List Char)} (h : texts ≠ []) :
    (join texts).length + 5 = (texts.map List.length).sum + 5 * texts.length := by
  induction texts with
  | nil => exact absurd rfl h
  | cons text texts ih =>
    cases texts with
    | nil => simp [join, List.intercalate]
    | cons text' texts =>
      have hrest := ih (List.cons_ne_nil _ _)
      rw [join_cons_cons, List.length_append, List.length_append, List.map_cons, List.sum_cons,
        List.length_cons]
      have hseparator : separator.length = 5 := rfl
      omega

/-- An estimate below `2 ^ 26` is near the weight, and bounds how long the text is. -/
theorem weight_le_tokens {summary : List Char} (h : tokens summary < 2 ^ 26) :
    weight summary + 2 ≤ tokens summary + summary.length * unit 26 ∧
      summary.length * (348 / 1000 : ℚ) ≤ tokens summary := by
  have hcount : tokens summary = roughTokenCount summary + 2 := by
    rw [tokens, roughTokenCount_separator]
  have hceil : addWeights 0 summary ≤ roughTokenCount summary := by
    rw [roughTokenCount, Binary64.asUsize] at hcount ⊢
    have hmin : min ⌈addWeights 0 summary⌉.toNat (2 ^ 64 - 1) = ⌈addWeights 0 summary⌉.toNat := by
      omega
    rw [hmin]
    exact (Int.le_ceil _).trans (by exact_mod_cast Int.self_le_toNat _)
  have hlt : addWeights 0 summary < 2 ^ 26 := by
    refine hceil.trans_lt ?_
    exact_mod_cast (by omega : roughTokenCount summary < 2 ^ 26)
  have hweight := le_addWeights le_rfl (by norm_num : 26 ≤ 52) hlt
  have hlength := (weight_bounds summary).1
  have hunit : unit 26 ≤ 1 / 1000 := by norm_num [unit]
  have hunits := mul_le_mul_of_nonneg_left hunit (Nat.cast_nonneg (α := ℚ) summary.length)
  rw [hcount]
  push_cast
  constructor <;> linarith

theorem weights_le_tokens {summaries : List (List Char)} (h : (summaries.map tokens).sum < 2 ^ 26) :
    (summaries.map fun summary => weight summary + weight separator).sum +
        (2 - weight separator) * summaries.length ≤
      (summaries.map tokens).sum + (summaries.map List.length).sum * unit 26 ∧
    (summaries.map List.length).sum * (348 / 1000 : ℚ) ≤ (summaries.map tokens).sum := by
  induction summaries with
  | nil => simp
  | cons summary summaries ih =>
    simp only [List.map_cons, List.sum_cons, List.length_cons] at h ⊢
    obtain ⟨hweights, hlengths⟩ := ih (by omega)
    have hsummary : tokens summary < 2 ^ 26 := by omega
    obtain ⟨hweight, hlength⟩ := weight_le_tokens hsummary
    push_cast at hweights hlengths ⊢
    constructor <;> linarith

/-- **Texts that are joined** count no more than one by one, as long as that is below `2 ^ 26`. -/
theorem roughTokenCount_join_le {summaries : List (List Char)} (h : 2 ≤ summaries.length)
    (hsum : (summaries.map tokens).sum < 2 ^ 26) :
    roughTokenCount (join summaries) ≤ (summaries.map tokens).sum := by
  have hne : summaries ≠ [] := List.ne_nil_of_length_pos (by omega)
  obtain ⟨hweights, hlengths⟩ := weights_le_tokens hsum
  have hlength : ((join summaries).length + 5 : ℚ) =
      (summaries.map List.length).sum + 5 * summaries.length := by
    exact_mod_cast length_join hne
  have hseparator : weight separator = 5 * Binary64.round (35 / 100) := by
    simp [weight, separator, charWeight]
    ring
  have hunit : unit 26 = 1 / 2 ^ 28 := by norm_num [unit]
  have hcount : (2 : ℚ) ≤ summaries.length := by exact_mod_cast h
  have hbound : ((summaries.map tokens).sum : ℚ) < 2 ^ 26 := by exact_mod_cast hsum
  rw [← weight_join hne, hseparator, round_ascii, hunit] at hweights
  have hsmall : weight (join summaries) + (join summaries).length * unit 26 ≤
      (summaries.map tokens).sum := by
    rw [hunit]
    linarith
  have hadd := addWeights_le le_rfl (m := 26) (s := join summaries) (by linarith)
  have hceil : ⌈addWeights 0 (join summaries)⌉ ≤ ((summaries.map tokens).sum : ℤ) := by
    refine Int.ceil_le.mpr ?_
    rw [Int.cast_natCast]
    linarith
  rw [roughTokenCount, Binary64.asUsize]
  omega

end SummaryProcessor

end MeetilyLocal
