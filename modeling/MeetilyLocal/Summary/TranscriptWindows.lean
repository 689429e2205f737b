import MeetilyLocal.Library.Cuts
import MeetilyLocal.Library.TextPositions

/-!
# Windows of a transcript

The embedding of `window_segments` (`summary/transcript_action_items.rs`), which groups the segments of a
transcript into windows for the model, each of them within a budget of characters, with a few segments of
overlap.

The windows leave out no segment and each starts after the one before it (`Passes.covers`,
`Passes.isChain_starts`). But a segment is counted before the budget is looked at, so that a window
exceeds it by its last segment unless that one happens to fill it (`not_windows_overfull`); exactly where
no pass steps over the budget are the windows within it (`windows_iff`).
-/

namespace MeetilyLocal

namespace TranscriptActionItems

open Cuts Utf8

variable {T : Type}

/-- A transcript segment reduced to what extraction needs. -/
structure Segment (T : Type) : Type where
  text : List Char
  start : Option T
  stop : Option T
  speaker : List Char

/-- Character budget per window. -/
def windowChars : ℕ := 8000

/-- Segments carried from the end of one window into the start of the next. -/
def windowOverlapSegments : ℕ := 3

/-- What a segment counts, with the overhead of its line. -/
def chars (segment : Segment T) : ℕ := len segment.text + 16

/-- How many of the segments that are left a window takes, after so many characters. -/
def windowLength (budget : ℕ) : ℕ → List (Segment T) → ℕ
  | _, [] => 0
  | count, segment :: segments =>
    if budget ≤ count + chars segment then 1
    else windowLength budget (count + chars segment) segments + 1

/-- Where the window that starts at a segment ends. -/
def windowStop (budget : ℕ) (segments : List (Segment T)) (start : ℕ) : ℕ :=
  start + windowLength budget 0 (segments.drop start)

/-- The loop from a segment on; none where it panics. -/
def windowsFrom (budget overlap : ℕ) (segments : List (Segment T)) (start : ℕ) :
    Option (List (List (Segment T))) :=
  if start < segments.length then
    match slice? segments start (windowStop budget segments start) with
    | none => none
    | some window =>
      if segments.length ≤ windowStop budget segments start then some [window]
      else
        (windowsFrom budget overlap segments
          (max (windowStop budget segments start - overlap) (start + 1))).map (window :: ·)
  else some []
termination_by segments.length - start

/-- Group segments into overlapping, character-bounded windows. -/
def windowSegments (budget overlap : ℕ) (segments : List (Segment T)) :
    Option (List (List (Segment T))) :=
  windowsFrom budget overlap segments 0

/-! ## One window -/

variable {budget overlap : ℕ} {segments : List (Segment T)}

/-- What segments count together. -/
def size (segments : List (Segment T)) : ℕ := (segments.map chars).sum

theorem size_cons (segment : Segment T) (segments : List (Segment T)) :
    size (segment :: segments) = chars segment + size segments := List.sum_cons

theorem size_take_mono (segments : List (Segment T)) {m n : ℕ} (h : m ≤ n) :
    size (segments.take m) ≤ size (segments.take n) := by
  obtain ⟨more, hmore⟩ := List.take_prefix_take_left (l := segments) h
  rw [← hmore, size, size, List.map_append, List.sum_append]
  exact Nat.le_add_right _ _

/-- A window takes segments up to the first one that fills the budget. -/
theorem windowLength_spec (budget count : ℕ) (h : segments ≠ []) :
    0 < windowLength budget count segments ∧
    windowLength budget count segments ≤ segments.length ∧
    (∀ m < windowLength budget count segments, 0 < m →
      count + size (segments.take m) < budget) ∧
    (windowLength budget count segments < segments.length →
      budget ≤ count + size (segments.take (windowLength budget count segments))) := by
  induction segments generalizing count with
  | nil => exact absurd rfl h
  | cons segment segments ih =>
    rw [windowLength]
    split
    · next hfull =>
      refine ⟨Nat.one_pos, by simp, fun m hm hpos => by omega, fun _ => ?_⟩
      simpa [size_cons, size] using hfull
    · next hroom =>
      by_cases hrest : segments = []
      · subst hrest
        refine ⟨Nat.one_pos, le_rfl, fun m hm hpos => ?_, fun hlt => absurd hlt (lt_irrefl _)⟩
        rw [windowLength] at hm
        omega
      · obtain ⟨hpos, hle, hbelow, hfull⟩ := ih (count + chars segment) hrest
        refine ⟨by omega, by simpa using hle, fun m hm hm' => ?_, fun hlt => ?_⟩
        · obtain ⟨m, rfl⟩ : ∃ k, m = k + 1 := ⟨m - 1, by omega⟩
          rw [List.take_succ_cons, size_cons, ← Nat.add_assoc]
          rcases Nat.eq_zero_or_pos m with rfl | hm
          · simpa [size] using hroom
          · exact hbelow m (by omega) hm
        · rw [List.take_succ_cons, size_cons, ← Nat.add_assoc]
          exact hfull (by simpa using hlt)

theorem windowStop_spec (budget : ℕ) {start : ℕ} (hstart : start < segments.length) :
    start < windowStop budget segments start ∧ windowStop budget segments start ≤ segments.length := by
  have hne : segments.drop start ≠ [] := List.ne_nil_of_length_pos (by rw [List.length_drop]; omega)
  obtain ⟨hpos, hle, -⟩ := windowLength_spec budget 0 hne
  rw [List.length_drop] at hle
  rw [windowStop]
  omega

/-- A window of one segment, or one within the budget. -/
def Fits (budget : ℕ) (segments : List (Segment T)) (range : ℕ × ℕ) : Prop :=
  range.2 = range.1 + 1 ∨ size (slice segments range) ≤ budget

/-- The segments from a start on do not step over the budget, but for the first one. -/
def FillsBudget (budget : ℕ) (segments : List (Segment T)) (start : ℕ) : Prop :=
  ∀ stop, start < stop → stop < segments.length → size (slice segments (start, stop)) < budget →
    size (slice segments (start, stop + 1)) ≤ budget

theorem fits_iff {start : ℕ} (hstart : start < segments.length) :
    Fits budget segments (start, windowStop budget segments start) ↔
      FillsBudget budget segments start := by
  have hne : segments.drop start ≠ [] := List.ne_nil_of_length_pos (by rw [List.length_drop]; omega)
  obtain ⟨hpos, hle, hbelow, hfull⟩ := windowLength_spec budget 0 hne
  rw [List.length_drop] at hle hfull
  simp only [Nat.zero_add] at hbelow hfull
  simp only [Fits, FillsBudget, windowStop, slice, Nat.add_sub_cancel_left]
  generalize windowLength budget 0 (segments.drop start) = n at hpos hle hbelow hfull
  refine ⟨fun hfits stop hlow hhigh hunder => ?_, fun hfills => ?_⟩
  · obtain ⟨m, rfl⟩ := Nat.exists_eq_add_of_lt hlow
    have hbehind : start + m + 1 - start = m + 1 := by omega
    have hnext : start + m + 1 + 1 - start = m + 2 := by omega
    rw [hbehind] at hunder
    rw [hnext]
    -- the window goes on behind it
    have hlt : m + 1 < n := by
      by_contra hge
      have hreached := hfull (by omega)
      have hmono := size_take_mono (segments.drop start) (not_lt.mp hge)
      omega
    rcases hfits with hone | hwithin
    · omega
    · exact (size_take_mono _ hlt).trans hwithin
  · by_cases hone : n = 1
    · exact .inl (by rw [hone])
    · obtain ⟨m, rfl⟩ : ∃ m, n = m + 2 := ⟨n - 2, by omega⟩
      have hunder := hbelow (m + 1) (by omega) (by omega)
      have hlast := hfills (start + (m + 1)) (by omega) (by omega)
        (by rwa [Nat.add_sub_cancel_left])
      rw [Nat.add_assoc, Nat.add_sub_cancel_left] at hlast
      exact .inr hlast

/-! ## The loop -/

/-- The windows of the loop, from a segment on. -/
inductive Passes (budget overlap : ℕ) (segments : List (Segment T)) : ℕ → List (ℕ × ℕ) → Prop
  | done {start : ℕ} : segments.length ≤ start → Passes budget overlap segments start []
  | last {start : ℕ} : start < segments.length →
      segments.length ≤ windowStop budget segments start →
      Passes budget overlap segments start [(start, windowStop budget segments start)]
  | next {start : ℕ} {ranges : List (ℕ × ℕ)} : start < segments.length →
      windowStop budget segments start < segments.length →
      Passes budget overlap segments (max (windowStop budget segments start - overlap) (start + 1))
        ranges →
      Passes budget overlap segments start ((start, windowStop budget segments start) :: ranges)

theorem exists_passes (budget overlap : ℕ) (segments : List (Segment T)) (start : ℕ) :
    ∃ ranges, windowsFrom budget overlap segments start = some (ranges.map (slice segments)) ∧
      Passes budget overlap segments start ranges := by
  fun_induction windowsFrom budget overlap segments start with
  | case1 start hstart hnone =>
    obtain ⟨hlt, hle⟩ := windowStop_spec budget hstart
    rw [slice?_eq_some hlt.le hle] at hnone
    cases hnone
  | case2 start hstart window hwindow hlast =>
    obtain ⟨hlt, hle⟩ := windowStop_spec budget hstart
    rw [slice?_eq_some hlt.le hle] at hwindow
    obtain rfl := Option.some.inj hwindow
    exact ⟨[_], rfl, .last hstart hlast⟩
  | case3 start hstart window hwindow hmore ih =>
    obtain ⟨hlt, hle⟩ := windowStop_spec budget hstart
    rw [slice?_eq_some hlt.le hle] at hwindow
    obtain rfl := Option.some.inj hwindow
    obtain ⟨ranges, hranges, hpasses⟩ := ih
    exact ⟨_ :: ranges, by rw [hranges]; rfl, .next hstart (not_le.mp hmore) hpasses⟩
  | case4 start hdone => exact ⟨[], rfl, .done (not_lt.mp hdone)⟩

namespace Passes

variable {start : ℕ} {ranges : List (ℕ × ℕ)}

theorem covers {a : ℕ} (h : Passes budget overlap segments start ranges) (ha : start ≤ a)
    (hle : a ≤ segments.length) : Covers a segments.length ranges := by
  induction h generalizing a with
  | done hdone => exact le_antisymm hle (hdone.trans ha)
  | @last start hstart hlast => exact ⟨ha, le_antisymm (windowStop_spec budget hstart).2 hlast⟩
  | @next start ranges hstart hmore _ ih =>
    exact ⟨ha, ih (max_le (Nat.sub_le _ _) (windowStop_spec budget hstart).1) hmore.le⟩

theorem le_start {range : ℕ × ℕ} (h : Passes budget overlap segments start ranges)
    (hrange : range ∈ ranges) : start ≤ range.1 ∧ range.1 < segments.length ∧
      range.2 = windowStop budget segments range.1 := by
  induction h with
  | done => cases hrange
  | last hstart =>
    obtain rfl := List.mem_singleton.mp hrange
    exact ⟨le_rfl, hstart, rfl⟩
  | next hstart _ _ ih =>
    rcases List.mem_cons.mp hrange with rfl | hmem
    · exact ⟨le_rfl, hstart, rfl⟩
    · obtain ⟨hle, hlt, heq⟩ := ih hmem
      exact ⟨by omega, hlt, heq⟩

theorem isChain_starts (h : Passes budget overlap segments start ranges) :
    ranges.IsChain fun range next => range.1 < next.1 := by
  induction h with
  | done => exact .nil
  | last => exact .singleton _
  | next _ _ hpasses ih =>
    refine List.isChain_cons.mpr ⟨fun next hnext => ?_, ih⟩
    have hle := (hpasses.le_start (List.mem_of_head? hnext)).1
    omega

end Passes

/-- What the windows of a transcript are. -/
structure Windows (budget : ℕ) (segments : List (Segment T)) (ranges : List (ℕ × ℕ)) : Prop where
  /-- each has segments, and only such as there are -/
  bounds : ∀ range ∈ ranges, range.1 < range.2 ∧ range.2 ≤ segments.length
  /-- each starts after the one before it -/
  starts : ranges.IsChain fun range next => range.1 < next.1
  /-- each segment is in one of them -/
  complete : ∀ i < segments.length, ∃ range ∈ ranges, range.1 ≤ i ∧ i < range.2
  /-- each is within the budget, or a single segment -/
  fits : ∀ range ∈ ranges, Fits budget segments range

/-- **The windows** are those of the loop, and all is as it should be with them exactly if the segments
from the start of each one on do not step over the budget. -/
theorem windows_iff (budget overlap : ℕ) (segments : List (Segment T)) : ∃ ranges,
    windowSegments budget overlap segments = some (ranges.map (slice segments)) ∧
    Passes budget overlap segments 0 ranges ∧
    (Windows budget segments ranges ↔ ∀ range ∈ ranges, FillsBudget budget segments range.1) := by
  obtain ⟨ranges, hranges, hpasses⟩ := exists_passes budget overlap segments 0
  refine ⟨ranges, hranges, hpasses, fun hwindows range hrange => ?_, fun hfills => ⟨?_, ?_, ?_, ?_⟩⟩
  · obtain ⟨-, hlt, heq⟩ := hpasses.le_start hrange
    have hfits := hwindows.fits range hrange
    rw [← Prod.mk.eta (p := range), heq] at hfits
    exact (fits_iff hlt).mp hfits
  · intro range hrange
    obtain ⟨-, hlt, heq⟩ := hpasses.le_start hrange
    rw [heq]
    exact windowStop_spec budget hlt
  · exact hpasses.isChain_starts
  · intro i hi
    exact (hpasses.covers le_rfl (Nat.zero_le _)).exists_mem (Nat.zero_le i) hi
  · intro range hrange
    obtain ⟨-, hlt, heq⟩ := hpasses.le_start hrange
    rw [← Prod.mk.eta (p := range), heq]
    exact (fits_iff hlt).mpr (hfills range hrange)

/-! ### A window that is too large -/

/-- A segment of so many letters. -/
def letters (n : ℕ) : Segment ℕ := ⟨List.replicate n 'a', none, none, []⟩

theorem len_replicate (n : ℕ) : len (List.replicate n 'a') = n := by
  induction n with
  | zero => rfl
  | succ n ih =>
    have hsize : ('a' : Char).utf8Size = 1 := by decide
    rw [List.replicate_succ, len_cons, hsize, ih, Nat.add_comm]

theorem chars_letters (n : ℕ) : chars (letters n) = n + 16 := by
  rw [chars, letters, len_replicate]

/-- A segment that is just within the budget, and a short one. -/
def overfull : List (Segment ℕ) := [letters 7983, letters 1]

/-- They share a window. -/
theorem not_windows_overfull : ¬∃ ranges,
    windowSegments windowChars windowOverlapSegments overfull =
      some (ranges.map (slice overfull)) ∧
    Passes windowChars windowOverlapSegments overfull 0 ranges ∧
    Windows windowChars overfull ranges := by
  rintro ⟨ranges, -, hpasses, hwindows⟩
  have hstop : windowStop windowChars overfull 0 = 2 := by
    simp [windowStop, overfull, windowLength, chars_letters, windowChars]
  cases hpasses with
  | done hdone => exact absurd hdone (by decide)
  | last _ _ =>
    have hfits := hwindows.fits _ (List.mem_singleton_self _)
    rw [hstop] at hfits
    rcases hfits with hone | hwithin
    · exact absurd hone (by decide)
    · simp [slice, overfull, size, chars_letters, windowChars] at hwithin
  | next _ hmore _ =>
    rw [hstop] at hmore
    exact absurd hmore (by decide)

end TranscriptActionItems

end MeetilyLocal
