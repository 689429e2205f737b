import MeetilyLocal.Library.Binary
import MeetilyLocal.Library.Cuts
import Mathlib.Algebra.Order.Round
import Mathlib.Tactic.FieldSimp
import Mathlib.Tactic.Linarith
import Mathlib.Tactic.Positivity

/-!
# Resampling in chunks

The embedding of `chunked_resample_with_progress` (`audio/decoder.rs`), which resamples a recording in chunks
of a minute, each with a tenth of a second more than that, and fades from each one into the next over the
samples that both have. The resampler itself is given from outside, with how many samples it returns.

A minute is a whole number of samples at both rates. So in the samples of a chunk the next one starts after
`60 * toRate` of them, and the fade starts there or one sample later, whatever the rounding of the overlap
and of a short last chunk (`fadeLen_spec`). By induction over the chunks, each of them starts in the output
at most as many samples late as there are chunks before it (`Placed`), which bounds the length of the whole
(`chunkedResampleWithProgress_spec`).
-/

namespace MeetilyLocal

namespace AudioDecoder

open Cuts

/-! ## The code -/

/-- Samples of a recording. -/
abbrev Samples : Type := List Float32

/-- `overlap_input` -/
def overlapInput (fromRate : ℕ) : ℕ := fromRate / 10

/-- `overlap_output`, with the rounding of the `f64`s -/
def overlapOutput (fromRate toRate : ℕ) : ℕ :=
  Binary64.asUsize ⌊Binary64.round (overlapInput fromRate * Binary64.round (toRate / fromRate))⌋

/-- The loop over the boundaries of the chunks; none where it does not end after so many passes. -/
def chunkRanges (chunkSamples overlap n : ℕ) : ℕ → ℕ → Option (List (ℕ × ℕ))
  | 0, start => if start < n then none else some []
  | fuel + 1, start =>
    if start < n then
      (chunkRanges chunkSamples overlap n fuel (start + chunkSamples)).map
        ((start, min (start + chunkSamples + overlap) n) :: ·)
    else some []

/-- One sample of a cross-fade. -/
def blend (i fadeLen : ℕ) (a b : Float32) : Float32 :=
  let t := Float32.ofNat i / Float32.ofNat fadeLen
  a * (1.0 - t) + b * t

/-- The loop of a cross-fade, from a sample on; none where it reads out of range. -/
def fadeFrom (resampled : Samples) (outStart fadeLen i : ℕ) (output : Samples) : Option Samples :=
  if i < fadeLen then
    match output[outStart + i]?, resampled[i]? with
    | some a, some b =>
      fadeFrom resampled outStart fadeLen (i + 1) (output.set (outStart + i) (blend i fadeLen a b))
    | _, _ => none
  else some output
termination_by fadeLen - i

/-- `fade_len` -/
def fadeLen (overlap : ℕ) (output resampled : Samples) : ℕ :=
  min (min overlap resampled.length) output.length

/-- The merge of a chunk that is not the first one. -/
def crossFade (overlap : ℕ) (output resampled : Samples) : Option Samples :=
  let n := fadeLen overlap output resampled
  if 0 < n then
    match fadeFrom resampled (output.length - n) n 0 output with
    | none => none
    | some output =>
      if n < resampled.length then
        (slice? resampled n resampled.length).map (output ++ ·)
      else some output
  else some (output ++ resampled)

/-- The loop over the chunks that have been resampled. -/
def mergeFrom (overlap : ℕ) (proceeds : ℕ → Bool) :
    ℕ → Samples → List (Except String Samples) → Option (Except String Samples)
  | _, output, [] => some (.ok output)
  | _, _, .error message :: _ => some (.error message)
  | idx, output, .ok resampled :: results =>
    match if idx = 0 then some (output ++ resampled) else crossFade overlap output resampled with
    | none => none
    | some output =>
      if proceeds idx then mergeFrom overlap proceeds (idx + 1) output results
      else some (.error "Resampling cancelled")

/-- Resample large audio files in fixed-size chunks through the sinc resampler. `proceeds` is whether there
is no callback, or one that does not cancel after a chunk. -/
def chunkedResampleWithProgress (resample : Samples → UInt32 → UInt32 → Except String Samples)
    (proceeds : ℕ → Bool) (fuel : ℕ) (input : Samples) (fromRate toRate : UInt32) :
    Option (Except String Samples) :=
  if input = [] ∨ fromRate = toRate then some (.ok input)
  else do
    let ranges ← chunkRanges (fromRate.toNat * 60) (overlapInput fromRate.toNat) input.length fuel 0
    let chunks ← ranges.mapM fun range => slice? input range.1 range.2
    mergeFrom (overlapOutput fromRate.toNat toRate.toNat) proceeds 0 []
      (chunks.map fun chunk => resample chunk fromRate toRate)

/-! ## Numbers of samples -/

/-- A power of two just above a number. -/
theorem exists_two_pow {q : ℚ} (h : 0 ≤ q) : ∃ m : ℕ, q < 2 ^ m ∧ (2 : ℚ) ^ m ≤ 2 * q + 1 := by
  by_cases hsmall : q < 1
  · exact ⟨0, by simpa using hsmall, by simpa using h⟩
  · have hfloor : ⌊q⌋₊ ≠ 0 := (Nat.floor_pos.mpr (not_lt.mp hsmall)).ne'
    refine ⟨Nat.log 2 ⌊q⌋₊ + 1, ?_, ?_⟩
    · exact (Nat.lt_floor_add_one q).trans_le
        (by exact_mod_cast Nat.lt_pow_succ_log_self (by decide) ⌊q⌋₊)
    · have hpow : ((2 ^ Nat.log 2 ⌊q⌋₊ : ℕ) : ℚ) ≤ q :=
        (Nat.cast_le.mpr (Nat.pow_log_le_self 2 hfloor)).trans (Nat.floor_le h)
      rw [pow_succ]
      push_cast at hpow
      linarith

theorem overlap_mul_ratio_le {f : ℕ} (hf : 0 < f) (t : ℕ) :
    (overlapInput f : ℚ) * (t / f) ≤ t / 10 := by
  have hov : (overlapInput f : ℚ) ≤ f / 10 := Nat.cast_div_le
  have hfpos : (0 : ℚ) < f := by exact_mod_cast hf
  calc (overlapInput f : ℚ) * (t / f) ≤ f / 10 * (t / f) := by gcongr
    _ = t / 10 := by field_simp

/-- What the overlap is in the output, before it is rounded. -/
theorem abs_overlap_sub_le {f t : ℕ} (hf : 0 < f) (hf' : f < 2 ^ 32) (ht : t < 2 ^ 32) :
    |Binary64.round (overlapInput f * Binary64.round (t / f)) - overlapInput f * ((t : ℚ) / f)| ≤
      1 / 4 := by
  have hr : 0 ≤ (t : ℚ) / f := by positivity
  have hov : (overlapInput f : ℚ) ≤ f / 10 := Nat.cast_div_le
  have hfpos : (0 : ℚ) < f := by exact_mod_cast hf
  have hx := overlap_mul_ratio_le hf t
  have htlt : (t : ℚ) < 2 ^ 32 := by exact_mod_cast ht
  have hflt : (f : ℚ) < 2 ^ 32 := by exact_mod_cast hf'
  obtain ⟨m, hlt, hle⟩ := exists_two_pow hr
  have hratio := Binary64.abs_round_sub_le hr hlt
  have hRpos := Binary64.round_nonneg hr
  generalize Binary64.round ((t : ℚ) / f) = R at hratio hRpos ⊢
  -- the error of the ratio, and then that of the product
  have hfirst : |overlapInput f * R - overlapInput f * ((t : ℚ) / f)| ≤ 1 / 8 := by
    rw [← mul_sub, abs_mul, Nat.abs_cast]
    calc (overlapInput f : ℚ) * |R - t / f|
        ≤ overlapInput f * ((2 * (t / f) + 1) / 2 ^ 54) := by
          gcongr
          exact hratio.trans (by gcongr)
      _ = (2 * (overlapInput f * (t / f)) + overlapInput f) / 2 ^ 54 := by ring
      _ ≤ (2 * (t / 10) + f / 10) / 2 ^ 54 := by gcongr
      _ ≤ 1 / 8 := by
          rw [div_le_iff₀ (by positivity)]
          linarith
  have hsecond : |Binary64.round (overlapInput f * R) - overlapInput f * R| ≤ 1 / 8 := by
    have hlarge : overlapInput f * R < 2 ^ 33 := by
      have habs := (abs_le.mp hfirst).2
      linarith
    exact (Binary64.abs_round_sub_le (by positivity) hlarge).trans (by norm_num)
  calc |Binary64.round (overlapInput f * R) - overlapInput f * ((t : ℚ) / f)|
      ≤ |Binary64.round (overlapInput f * R) - overlapInput f * R| +
          |overlapInput f * R - overlapInput f * ((t : ℚ) / f)| := abs_sub_le _ _ _
    _ ≤ 1 / 4 := by linarith

/-- A number of samples, at the other rate. -/
def scaled (f t n : ℕ) : ℕ := (round ((n : ℚ) * (t / f))).toNat

theorem scaled_eq (f t n : ℕ) : (scaled f t n : ℤ) = round ((n : ℚ) * (t / f)) := by
  refine Int.toNat_of_nonneg ?_
  rw [round_eq]
  positivity

theorem scaled_mono (f t : ℕ) {m n : ℕ} (h : m ≤ n) : scaled f t m ≤ scaled f t n := by
  have hle : (scaled f t m : ℤ) ≤ scaled f t n := by
    rw [scaled_eq, scaled_eq, round_eq, round_eq]
    gcongr
  exact_mod_cast hle

/-- A minute is a whole number of samples at both rates. -/
theorem scaled_minute {f : ℕ} (hf : 0 < f) (t n : ℕ) :
    scaled f t (f * 60 + n) = 60 * t + scaled f t n := by
  have hfpos : (f : ℚ) ≠ 0 := by exact_mod_cast hf.ne'
  have hminute : ((f * 60 + n : ℕ) : ℚ) * (t / f) = (60 * t : ℕ) + n * (t / f) := by
    push_cast
    field_simp
  have hround : (scaled f t (f * 60 + n) : ℤ) = (60 * t + scaled f t n : ℕ) := by
    rw [scaled_eq, hminute, round_natCast_add, Nat.cast_add, scaled_eq]
  exact_mod_cast hround

theorem abs_scaled_sub_le (f t n : ℕ) : |(scaled f t n : ℚ) - n * (t / f)| ≤ 1 / 2 := by
  have hcast : (scaled f t n : ℚ) = (round ((n : ℚ) * (t / f)) : ℤ) := by
    rw [← scaled_eq, Int.cast_natCast]
  rw [hcast, abs_sub_comm]
  exact abs_sub_round _

/-- **The overlap in the output** is that of the input, or one sample less. -/
theorem overlapOutput_spec {f t : ℕ} (hf : 0 < f) (hf' : f < 2 ^ 32) (ht : t < 2 ^ 32) :
    overlapOutput f t ≤ scaled f t (overlapInput f) ∧
      scaled f t (overlapInput f) ≤ overlapOutput f t + 1 ∧ overlapOutput f t ≤ 60 * t := by
  have herror := abs_le.mp (abs_overlap_sub_le hf hf' ht)
  have hscaled := abs_le.mp (abs_scaled_sub_le f t (overlapInput f))
  have htlt : (t : ℚ) < 2 ^ 32 := by exact_mod_cast ht
  have hx : (overlapInput f : ℚ) * (t / f) ≤ t / 10 := overlap_mul_ratio_le hf t
  have hpos : 0 ≤ Binary64.round (overlapInput f * Binary64.round ((t : ℚ) / f)) := by
    refine Binary64.round_nonneg (mul_nonneg (Nat.cast_nonneg _) (Binary64.round_nonneg ?_))
    positivity
  have hout : overlapOutput f t =
      ⌊Binary64.round (overlapInput f * Binary64.round ((t : ℚ) / f))⌋₊ := by
    have hlt : ⌊Binary64.round (overlapInput f * Binary64.round ((t : ℚ) / f))⌋₊ < 2 ^ 33 := by
      rw [Nat.floor_lt hpos]
      push_cast
      linarith
    rw [overlapOutput, Binary64.asUsize, Int.floor_toNat]
    omega
  have hle := Nat.floor_le hpos
  have hlt := Nat.lt_floor_add_one (Binary64.round (overlapInput f * Binary64.round ((t : ℚ) / f)))
  rw [← hout] at hle hlt
  refine ⟨?_, ?_, ?_⟩
  · have h : (overlapOutput f t : ℚ) < (scaled f t (overlapInput f) + 1 : ℕ) := by
      push_cast
      linarith
    exact Nat.lt_succ_iff.mp (by exact_mod_cast h)
  · have h : (scaled f t (overlapInput f) : ℚ) < (overlapOutput f t + 2 : ℕ) := by
      push_cast
      linarith
    exact Nat.lt_succ_iff.mp (by exact_mod_cast h)
  · have h : (overlapOutput f t : ℚ) < (60 * t + 1 : ℕ) := by
      push_cast
      linarith
    exact Nat.lt_succ_iff.mp (by exact_mod_cast h)

/-! ## A cross-fade -/

/-- The loop changes as many samples as the cross-fade has. -/
theorem fadeFrom_eq {resampled output : Samples} {outStart n i : ℕ}
    (hout : outStart + n ≤ output.length) (hin : n ≤ resampled.length) (hi : i ≤ n) :
    ∃ faded, fadeFrom resampled outStart n i output =
      some (output.take (outStart + i) ++ faded ++ output.drop (outStart + n)) ∧
      faded.length = n - i := by
  fun_induction fadeFrom resampled outStart n i output with
  | case1 i output hlt a b ha hb ih =>
    have hk : outStart + i < output.length := by omega
    obtain ⟨faded, hfade, hlength⟩ := ih (by rwa [List.length_set]) hlt
    refine ⟨blend i n a b :: faded, ?_, by rw [List.length_cons, hlength]; omega⟩
    have htake : (output.set (outStart + i) (blend i n a b)).take (outStart + (i + 1)) =
        output.take (outStart + i) ++ [blend i n a b] := by
      rw [List.set_eq_take_append_cons_drop, if_pos hk, List.append_cons]
      exact List.take_left' (by simp; omega)
    have hdrop : (output.set (outStart + i) (blend i n a b)).drop (outStart + n) =
        output.drop (outStart + n) := List.drop_set_of_lt (by omega)
    rw [hfade, htake, hdrop]
    simp
  | case2 i output hlt hnone =>
    exact (hnone _ _ (List.getElem?_eq_getElem (by omega : outStart + i < output.length))
      (List.getElem?_eq_getElem (by omega : i < resampled.length))).elim
  | case3 i output hge =>
    obtain rfl : i = n := by omega
    exact ⟨[], by simp, by simp⟩

/-- **A cross-fade** replaces the end of the output, and goes on with the rest of the chunk. -/
theorem crossFade_eq (overlap : ℕ) (output resampled : Samples) : ∃ faded,
    crossFade overlap output resampled =
      some (output.take (output.length - fadeLen overlap output resampled) ++ faded ++
        resampled.drop (fadeLen overlap output resampled)) ∧
    faded.length = fadeLen overlap output resampled := by
  have hout : fadeLen overlap output resampled ≤ output.length := min_le_right _ _
  have hin : fadeLen overlap output resampled ≤ resampled.length :=
    (min_le_left _ _).trans (min_le_right _ _)
  rw [crossFade]
  generalize fadeLen overlap output resampled = n at hout hin ⊢
  by_cases hpos : 0 < n
  · have hend : output.length - n + n ≤ output.length := by omega
    obtain ⟨faded, hfade, hlength⟩ := fadeFrom_eq hend hin (Nat.zero_le n)
    rw [Nat.add_zero, Nat.sub_add_cancel hout, List.drop_length, List.append_nil] at hfade
    refine ⟨faded, ?_, hlength⟩
    rw [if_pos hpos, hfade]
    by_cases hmore : n < resampled.length
    · simp only [if_pos hmore, slice?_eq_some hin le_rfl, slice_length, Option.map_some]
    · simp only [if_neg hmore, List.drop_eq_nil_of_le (not_lt.mp hmore), List.append_nil]
  · obtain rfl : n = 0 := by omega
    exact ⟨[], by simp, rfl⟩

/-! ## What is merged -/

/-- The end of the output is faded into a chunk where both are of the same time. -/
structure Aligned (toRate fade : ℕ) (output prev : Samples) : Prop where
  /-- what is faded are the last samples of the chunk before it -/
  tail : output.drop (output.length - fade) = prev.drop (prev.length - fade)
  /-- from a minute after its start on, which is where the next chunk starts, or one sample later -/
  start : 60 * toRate + fade ≤ prev.length ∧ prev.length ≤ 60 * toRate + fade + 1

/-- The chunks that an output has been merged from. -/
inductive Merged (overlap toRate : ℕ) : List Samples → Samples → Prop
  | first (chunk : Samples) : Merged overlap toRate [chunk] chunk
  | next {chunks : List Samples} {prev output chunk merged : Samples} :
      Merged overlap toRate (chunks ++ [prev]) output →
      Aligned toRate (fadeLen overlap output chunk) output prev →
      crossFade overlap output chunk = some merged →
      Merged overlap toRate (chunks ++ [prev] ++ [chunk]) merged

/-- The output ends with a chunk that starts in it after `k` minutes, or at most `k` samples later. -/
def Placed (toRate k : ℕ) (output chunk : Samples) : Prop :=
  ∃ front m, output = front ++ chunk.drop m ∧ m ≤ chunk.length ∧ m ≤ 60 * toRate ∧
    60 * toRate * k + m ≤ front.length ∧ front.length ≤ 60 * toRate * k + k + m

theorem Placed.first (t : ℕ) (chunk : Samples) : Placed t 0 chunk chunk :=
  ⟨[], 0, rfl, Nat.zero_le _, Nat.zero_le _, by simp, by simp⟩

/-- **A cross-fade** has the samples of the overlap, or all but one of them. -/
theorem fadeLen_spec {f t start n : ℕ} (hf : 0 < f) (hf' : f < 2 ^ 32) (ht : t < 2 ^ 32)
    (output : Samples) {chunk : Samples}
    (hchunk : chunk.length = scaled f t (min (f * 60 + overlapInput f) (n - start)))
    (hout : scaled f t (min (overlapInput f) (n - start)) ≤ output.length) :
    fadeLen (overlapOutput f t) output chunk ≤ scaled f t (min (overlapInput f) (n - start)) ∧
    scaled f t (min (overlapInput f) (n - start)) ≤ fadeLen (overlapOutput f t) output chunk + 1 ∧
    fadeLen (overlapOutput f t) output chunk ≤ 60 * t := by
  obtain ⟨hle, hge, hminute⟩ := overlapOutput_spec hf hf' ht
  rw [fadeLen]
  rcases le_total (overlapInput f) (n - start) with hlong | hshort
  · -- the chunk is at least as long as the overlap
    rw [Nat.min_eq_left hlong] at hout ⊢
    have hmono : scaled f t (overlapInput f) ≤ chunk.length :=
      hchunk ▸ scaled_mono f t (le_min (Nat.le_add_left _ _) hlong)
    omega
  · -- the last chunk is all overlap
    rw [Nat.min_eq_right hshort] at hout ⊢
    rw [Nat.min_eq_right (by omega)] at hchunk
    have hmono := scaled_mono f t hshort
    omega

/-- What the merge of the next chunk preserves. -/
theorem Placed.next {f t start n k : ℕ} (hf : 0 < f) (hf' : f < 2 ^ 32) (ht : t < 2 ^ 32)
    {output prev chunk : Samples} (h : Placed t k output prev)
    (hprev : prev.length = scaled f t (f * 60 + min (overlapInput f) (n - start)))
    (hchunk : chunk.length = scaled f t (min (f * 60 + overlapInput f) (n - start))) :
    Aligned t (fadeLen (overlapOutput f t) output chunk) output prev ∧
      ∃ merged, crossFade (overlapOutput f t) output chunk = some merged ∧
        Placed t (k + 1) merged chunk := by
  obtain ⟨front, m, rfl, hm, hminute, hlow, hhigh⟩ := h
  rw [scaled_minute hf] at hprev
  have hlength : (front ++ prev.drop m).length = front.length + (prev.length - m) := by
    rw [List.length_append, List.length_drop]
  obtain ⟨hle, hge, hsmall⟩ := fadeLen_spec hf hf' ht (front ++ prev.drop m) hchunk (by omega)
  obtain ⟨faded, hcross, hfaded⟩ := crossFade_eq (overlapOutput f t) (front ++ prev.drop m) chunk
  have hin : fadeLen (overlapOutput f t) (front ++ prev.drop m) chunk ≤ chunk.length :=
    (min_le_left _ _).trans (min_le_right _ _)
  generalize fadeLen (overlapOutput f t) (front ++ prev.drop m) chunk = fade at *
  refine ⟨⟨?_, by omega⟩, _, hcross, _, fade, rfl, hin, hsmall, ?_, ?_⟩
  · have hend : m + (front.length + (prev.length - m) - fade - front.length) =
        prev.length - fade := by omega
    rw [hlength, List.drop_append, List.drop_eq_nil_of_le (by omega), List.nil_append,
      List.drop_drop, hend]
  · rw [List.length_append, List.length_take, hfaded, hlength, mul_add]
    omega
  · rw [List.length_append, List.length_take, hfaded, hlength, mul_add]
    omega

/-! ## The chunks -/

/-- The boundaries of the chunks from a start on. -/
inductive Strides (chunkSamples overlap n : ℕ) : ℕ → List (ℕ × ℕ) → Prop
  | done {start : ℕ} : n ≤ start → Strides chunkSamples overlap n start []
  | next {start : ℕ} {ranges : List (ℕ × ℕ)} : start < n →
      Strides chunkSamples overlap n (start + chunkSamples) ranges →
      Strides chunkSamples overlap n start
        ((start, min (start + chunkSamples + overlap) n) :: ranges)

theorem exists_strides {chunkSamples overlap n fuel start : ℕ} (hpos : 0 < chunkSamples)
    (hfuel : n ≤ fuel + start) : ∃ ranges,
    chunkRanges chunkSamples overlap n fuel start = some ranges ∧
      Strides chunkSamples overlap n start ranges := by
  induction fuel generalizing start with
  | zero => exact ⟨[], by rw [chunkRanges, if_neg (by omega)], .done (by omega)⟩
  | succ fuel ih =>
    rw [chunkRanges]
    split
    · next hlt =>
      have hfuel' : n ≤ fuel + (start + chunkSamples) := by omega
      obtain ⟨ranges, hranges, hstrides⟩ := ih hfuel'
      exact ⟨_, by rw [hranges]; rfl, .next hlt hstrides⟩
    · next hge => exact ⟨[], rfl, .done (not_lt.mp hge)⟩

namespace Strides

variable {chunkSamples overlap n start : ℕ} {ranges : List (ℕ × ℕ)}

theorem covers {a : ℕ} (h : Strides chunkSamples overlap n start ranges) (hstart : start ≤ a)
    (ha : a ≤ n) : Covers a n ranges := by
  induction h generalizing a with
  | done hdone => exact le_antisymm ha (hdone.trans hstart)
  | @next start ranges hlt hrest ih =>
    refine ⟨hstart, ?_⟩
    rcases le_total n (start + chunkSamples) with hlast | hmore
    · rw [Nat.min_eq_right (by omega)]
      cases hrest with
      | done => rfl
      | next hlt' => exact absurd hlt' (not_lt.mpr hlast)
    · exact ih (le_min (Nat.le_add_right _ _) hmore) (min_le_right _ _)

theorem mem_bounds {range : ℕ × ℕ} (h : Strides chunkSamples overlap n start ranges)
    (hrange : range ∈ ranges) : range.1 ≤ range.2 ∧ range.2 ≤ n := by
  induction h with
  | done => cases hrange
  | next hlt _ ih =>
    rcases List.mem_cons.mp hrange with rfl | hmem
    · exact ⟨le_min (by omega) hlt.le, min_le_right _ _⟩
    · exact ih hmem

end Strides

/-! ## The run -/

/-- The output has the samples of the input at the other rate, but for one for each chunk. -/
def Keeps (f t n count : ℕ) (output : Samples) : Prop :=
  |(output.length : ℚ) - n * (t / f)| ≤ count

/-- What the output has when the last chunk is merged. -/
theorem Placed.keeps {f t k n : ℕ} (hf : 0 < f) {output chunk : Samples}
    (h : Placed t k output chunk) (hlast : f * 60 * k ≤ n)
    (hchunk : chunk.length = scaled f t (n - f * 60 * k)) : Keeps f t n (k + 1) output := by
  obtain ⟨front, m, rfl, hm, -, hlow, hhigh⟩ := h
  have hrest := abs_le.mp (abs_scaled_sub_le f t (n - f * 60 * k))
  have hfpos : (f : ℚ) ≠ 0 := by exact_mod_cast hf.ne'
  have hminutes : (n : ℚ) * (t / f) = 60 * t * k + ((n - f * 60 * k : ℕ) : ℚ) * (t / f) := by
    rw [Nat.cast_sub hlast]
    push_cast
    field_simp
    ring
  have hlength : ((front ++ chunk.drop m).length : ℚ) = front.length - m + chunk.length := by
    rw [List.length_append, List.length_drop, Nat.cast_add, Nat.cast_sub hm]
    ring
  have hlow' : (60 * t * k + m : ℚ) ≤ front.length := by exact_mod_cast hlow
  have hhigh' : (front.length : ℚ) ≤ 60 * t * k + k + m := by exact_mod_cast hhigh
  rw [Keeps, hlength, hminutes, hchunk, abs_le]
  push_cast
  constructor <;> linarith

/-- **The loop** merges all the chunks, unless it is cancelled. -/
theorem mergeFrom_spec {f t n : ℕ} (hf : 0 < f) (hf' : f < 2 ^ 32) (ht : t < 2 ^ 32)
    (proceeds : ℕ → Bool) {start k : ℕ} {ranges : List (ℕ × ℕ)} {chunks more : List Samples}
    {output prev : Samples} (hstrides : Strides (f * 60) (overlapInput f) n start ranges)
    (hstart : start = f * 60 * (k + 1)) (hlast : f * 60 * k < n)
    (hprev : prev.length = scaled f t (min (f * 60 + overlapInput f) (n - f * 60 * k)))
    (hmore : List.Forall₂ (fun range chunk => chunk.length = scaled f t (range.2 - range.1))
      ranges more)
    (hmerged : Merged (overlapOutput f t) t (chunks ++ [prev]) output)
    (hplaced : Placed t k output prev) :
    ∃ result, mergeFrom (overlapOutput f t) proceeds (k + 1) output (more.map .ok) = some result ∧
      (∀ merged, result = .ok merged →
        Merged (overlapOutput f t) t (chunks ++ [prev] ++ more) merged ∧
          Keeps f t n (k + 1 + more.length) merged) ∧
      ((∀ idx, proceeds idx = true) → ∃ merged, result = .ok merged) := by
  induction hstrides generalizing k chunks more output prev with
  | @done start hdone =>
    cases hmore
    refine ⟨.ok output, rfl, fun merged h => ?_, fun _ => ⟨output, rfl⟩⟩
    obtain rfl := Except.ok.inj h
    rw [List.append_nil]
    refine ⟨hmerged, hplaced.keeps hf hlast.le ?_⟩
    rw [hprev, Nat.min_eq_right (by rw [mul_add] at hstart; omega)]
  | @next start ranges hlt _ ih =>
    cases hmore with
    | @cons _ chunk _ more hchunk hrest =>
      have hsplit : start = f * 60 * k + f * 60 := by rw [hstart, mul_add, mul_one]
      have hoverlap : min (f * 60 + overlapInput f) (n - f * 60 * k) =
          f * 60 + min (overlapInput f) (n - start) := by omega
      have hsize : min (start + f * 60 + overlapInput f) n - start =
          min (f * 60 + overlapInput f) (n - start) := by omega
      rw [hoverlap] at hprev
      rw [hsize] at hchunk
      obtain ⟨haligned, merged, hcross, hnext⟩ := hplaced.next hf hf' ht hprev hchunk
      rw [List.map_cons, mergeFrom, if_neg (Nat.succ_ne_zero k), hcross]
      by_cases hproceeds : proceeds (k + 1) = true
      · simp only [if_pos hproceeds]
        have hstart' : start + f * 60 = f * 60 * (k + 1 + 1) := by
          rw [hstart]
          ring
        obtain ⟨result, hresult, hspec, hok⟩ := ih hstart' (hstart ▸ hlt) (by rw [hchunk, hstart])
          hrest (hmerged.next haligned hcross) hnext
        refine ⟨result, hresult, fun out hout => ?_, hok⟩
        obtain ⟨hall, hkeeps⟩ := hspec out hout
        have hcount : k + 1 + (chunk :: more).length = k + 1 + 1 + more.length := by
          rw [List.length_cons]
          omega
        rw [List.append_cons, hcount]
        exact ⟨hall, hkeeps⟩
      · simp only [if_neg hproceeds]
        refine ⟨_, rfl, fun merged h => ?_, fun hall => absurd (hall (k + 1)) hproceeds⟩
        cases h

/-- The merge of all the chunks. -/
theorem merge_spec {f t n : ℕ} (hf : 0 < f) (hf' : f < 2 ^ 32) (ht : t < 2 ^ 32)
    (proceeds : ℕ → Bool) {ranges : List (ℕ × ℕ)} {chunks : List Samples}
    (hstrides : Strides (f * 60) (overlapInput f) n 0 ranges) (hpos : 0 < n)
    (hchunks : List.Forall₂ (fun range chunk => chunk.length = scaled f t (range.2 - range.1))
      ranges chunks) :
    ∃ result, mergeFrom (overlapOutput f t) proceeds 0 [] (chunks.map .ok) = some result ∧
      (∀ merged, result = .ok merged →
        Merged (overlapOutput f t) t chunks merged ∧ Keeps f t n chunks.length merged) ∧
      ((∀ idx, proceeds idx = true) → ∃ merged, result = .ok merged) := by
  cases hstrides with
  | done hdone => omega
  | @next _ ranges hlt hrest =>
    cases hchunks with
    | @cons _ chunk _ more hchunk hmore =>
      have hsize : chunk.length = scaled f t (min (f * 60 + overlapInput f) (n - f * 60 * 0)) := by
        rw [hchunk, Nat.zero_add, Nat.sub_zero, mul_zero, Nat.sub_zero]
      have hstart : 0 + f * 60 = f * 60 * (0 + 1) := by ring
      have hmerged : Merged (overlapOutput f t) t ([] ++ [chunk]) chunk := .first chunk
      rw [List.map_cons, mergeFrom, if_pos rfl, List.nil_append]
      by_cases hproceeds : proceeds 0 = true
      · obtain ⟨result, hresult, hspec, hok⟩ := mergeFrom_spec hf hf' ht proceeds hrest hstart
          (by rwa [mul_zero]) hsize hmore hmerged (.first t chunk)
        simp only [if_pos hproceeds]
        refine ⟨result, hresult, fun merged h => ?_, hok⟩
        obtain ⟨hall, hkeeps⟩ := hspec merged h
        rw [List.length_cons, add_comm, ← Nat.zero_add 1]
        exact ⟨hall, hkeeps⟩
      · simp only [if_neg hproceeds]
        refine ⟨_, rfl, fun merged h => ?_, fun hall => absurd (hall 0) hproceeds⟩
        cases h

/-- The resampler returns as many samples as there are at the other rate. -/
def MapsSamples (resample : Samples → UInt32 → UInt32 → Except String Samples)
    (fromRate toRate : UInt32) : Prop :=
  ∀ chunk, ∃ out, resample chunk fromRate toRate = .ok out ∧
    (out.length : ℤ) = round ((chunk.length : ℚ) * (toRate.toNat / fromRate.toNat))

/-- The output of a recording, and what it is made of. -/
structure KeepsTimeline (resample : Samples → UInt32 → UInt32 → Except String Samples)
    (input : Samples) (fromRate toRate : UInt32) (ranges : List (ℕ × ℕ)) (chunks : List Samples)
    (output : Samples) : Prop where
  /-- the chunks have all samples of the input -/
  covers : Covers 0 input.length ranges
  /-- each is resampled -/
  resampled : List.Forall₂
    (fun range chunk => resample (slice input range) fromRate toRate = .ok chunk) ranges chunks
  /-- they are merged where they are aligned -/
  merged : Merged (overlapOutput fromRate.toNat toRate.toNat) toRate.toNat chunks output
  /-- the output has no more than one sample for each of them too many or too few -/
  length : Keeps fromRate.toNat toRate.toNat input.length chunks.length output

/-- The chunks, resampled. -/
theorem exists_resampled {resample : Samples → UInt32 → UInt32 → Except String Samples}
    {fromRate toRate : UInt32} (hresample : MapsSamples resample fromRate toRate) {input : Samples}
    {ranges : List (ℕ × ℕ)} (h : ∀ range ∈ ranges, range.1 ≤ range.2 ∧ range.2 ≤ input.length) :
    ∃ chunks : List Samples,
      (ranges.map (slice input)).map (fun chunk => resample chunk fromRate toRate) =
        chunks.map .ok ∧
      List.Forall₂ (fun range chunk => resample (slice input range) fromRate toRate = .ok chunk)
        ranges chunks ∧
      List.Forall₂ (fun range (chunk : Samples) =>
        chunk.length = scaled fromRate.toNat toRate.toNat (range.2 - range.1)) ranges chunks := by
  induction ranges with
  | nil => exact ⟨[], rfl, .nil, .nil⟩
  | cons range ranges ih =>
    obtain ⟨⟨-, hin⟩, hrest⟩ := List.forall_mem_cons.mp h
    obtain ⟨chunks, hmap, hall, hlengths⟩ := ih hrest
    obtain ⟨chunk, hchunk, hlength⟩ := hresample (slice input range)
    have hsize : (slice input range).length = range.2 - range.1 := length_slice hin
    rw [hsize, ← scaled_eq] at hlength
    refine ⟨chunk :: chunks, ?_, .cons hchunk hall, .cons (by exact_mod_cast hlength) hlengths⟩
    rw [List.map_cons, List.map_cons, List.map_cons, hchunk, hmap]

/-- **Resampling in chunks** ends and reads nothing out of range; its output is the input where there is
nothing to resample, and otherwise keeps the timeline. A rate of zero, which the loop over the chunks does
not leave, has no ratio. -/
theorem chunkedResampleWithProgress_spec
    {resample : Samples → UInt32 → UInt32 → Except String Samples}
    {fromRate toRate : UInt32} (hrate : 0 < fromRate)
    (hresample : MapsSamples resample fromRate toRate) (proceeds : ℕ → Bool) {fuel : ℕ}
    {input : Samples} (hfuel : input.length ≤ fuel) :
    ∃ result, chunkedResampleWithProgress resample proceeds fuel input fromRate toRate = some result ∧
      (∀ output, result = .ok output →
        ((input = [] ∨ fromRate = toRate) ∧ output = input ∧
          Keeps fromRate.toNat toRate.toNat input.length 0 output) ∨
        ∃ ranges chunks, KeepsTimeline resample input fromRate toRate ranges chunks output) ∧
      ((∀ idx, proceeds idx = true) → ∃ output, result = .ok output) := by
  have hf : 0 < fromRate.toNat := UInt32.lt_iff_toNat_lt.mp hrate
  rw [chunkedResampleWithProgress]
  by_cases hnothing : input = [] ∨ fromRate = toRate
  · rw [if_pos hnothing]
    refine ⟨_, rfl, fun output h => .inl ?_, fun _ => ⟨input, rfl⟩⟩
    obtain rfl := Except.ok.inj h
    refine ⟨hnothing, rfl, ?_⟩
    rcases hnothing with rfl | rfl
    · simp [Keeps]
    · have hne : (fromRate.toNat : ℚ) ≠ 0 := by exact_mod_cast hf.ne'
      simp [Keeps, div_self hne]
  · rw [if_neg hnothing]
    have hne : input ≠ [] := fun h => hnothing (.inl h)
    have hpos : 0 < input.length := List.length_pos_iff.mpr hne
    obtain ⟨ranges, hranges, hstrides⟩ : ∃ ranges,
        chunkRanges (fromRate.toNat * 60) (overlapInput fromRate.toNat) input.length fuel 0 =
          some ranges ∧
          Strides (fromRate.toNat * 60) (overlapInput fromRate.toNat) input.length 0 ranges :=
      exists_strides (by omega) hfuel
    have hbounds : ∀ range ∈ ranges, range.1 ≤ range.2 ∧ range.2 ≤ input.length :=
      fun _ hmem => hstrides.mem_bounds hmem
    rw [hranges, Option.bind_eq_bind, Option.bind_some, mapM_slice? hbounds]
    obtain ⟨chunks, hmap, hall, hlengths⟩ := exists_resampled hresample hbounds
    obtain ⟨result, hresult, hspec, hok⟩ := merge_spec hf fromRate.toNat_lt toRate.toNat_lt proceeds
      hstrides hpos hlengths
    rw [Option.bind_eq_bind, Option.bind_some, hmap]
    refine ⟨result, hresult, fun output hout => .inr ⟨ranges, chunks, ?_⟩, hok⟩
    obtain ⟨hmerged, hkeeps⟩ := hspec output hout
    exact ⟨hstrides.covers le_rfl (Nat.zero_le _), hall, hmerged, hkeeps⟩

/-- What a resampler makes of silence. -/
def resampleSilence (chunk : Samples) (fromRate toRate : UInt32) : Except String Samples :=
  .ok (List.replicate (scaled fromRate.toNat toRate.toNat chunk.length) 0)

theorem mapsSamples_resampleSilence (fromRate toRate : UInt32) :
    MapsSamples resampleSilence fromRate toRate :=
  fun chunk => ⟨_, rfl, by rw [List.length_replicate, scaled_eq]⟩

theorem chunkedResampleWithProgress_silence : ∃ output ranges chunks,
    chunkedResampleWithProgress resampleSilence (fun _ => true) 4320000 (List.replicate 4320000 0)
      48000 16000 = some (.ok output) ∧
    KeepsTimeline resampleSilence (List.replicate 4320000 0) 48000 16000 ranges chunks output := by
  have hlength : (List.replicate 4320000 (0 : Float32)).length ≤ 4320000 :=
    List.length_replicate.le
  obtain ⟨result, hresult, hspec, hok⟩ := chunkedResampleWithProgress_spec (by decide)
    (mapsSamples_resampleSilence 48000 16000) (fun _ => true) hlength
  obtain ⟨output, rfl⟩ := hok fun _ => rfl
  rcases hspec output rfl with ⟨hempty | hsame, -⟩ | ⟨ranges, chunks, hkeeps⟩
  · rw [List.replicate_eq_nil_iff] at hempty
    omega
  · exact absurd hsame (by decide)
  · exact ⟨output, ranges, chunks, hresult, hkeeps⟩

end AudioDecoder

end MeetilyLocal
