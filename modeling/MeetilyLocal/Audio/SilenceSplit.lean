import Mathlib.Tactic.FieldSimp
import Mathlib.Tactic.Ring
import MeetilyLocal.Audio.Vad
import MeetilyLocal.Library.Cuts

/-!
# Splitting long speech at silences

The embedding of `split_segment_at_silence` and of its use in `run_batch_transcription`
(`audio/common.rs`). A segment that is too long is cut near each target where a window of 100 ms is
quietest, or a second after the target where none is quiet.

How loud a window is enters as a function of where it is and of its samples; the code's own is `rms`.
A slice out of bounds is none, where the code panics, and so is a loop that does not advance.
-/

namespace MeetilyLocal

namespace SilenceSplit

open Cuts Vad

/-- The rate of the samples, 16 kHz -/
def sampleRate : ℕ := 16000

/-- The 100ms window for energy measurement -/
def energyWindow : ℕ := sampleRate / 10

/-- Search 3 seconds around the target split point -/
def searchRadius : ℕ := sampleRate * 3

/-- RMS threshold below which a window is silent -/
def silenceRmsThreshold : Float32 := 0.02

/-- Overlap to use when no silence boundary is found -/
def fallbackOverlap : ℕ := sampleRate

/-- `f32::MAX` -/
def maxRms : Float32 := 3.4028234663852886e38

/-- The energy of a window, as the code measures it. -/
def rms (window : List Float32) : Float32 :=
  ((window.map fun s => s * s).foldl (· + ·) 0 / Float32.ofNat energyWindow).sqrt

/-- Where the search for a split point is: the best one so far, and how loud it is there. -/
structure Best : Type where
  /-- best_split -/
  split : ℕ
  /-- best_rms -/
  rms : Float32

/-- How loud a window is, of where it starts and of its samples. -/
abbrev Energy : Type := ℕ → List Float32 → Float32

/-- A window is taken if it is quieter. -/
def Best.compare (best : Best) (window : Best) : Best :=
  if window.rms < best.rms then window else best

variable {T : Type} [Instant T]

/-! ## The code -/

/-- Find the lowest-energy window that starts at `idx` or later, in steps of 10 ms. -/
def quietest (energy : Energy) (samples : List Float32) (searchEnd : ℕ) (idx : ℕ) (best : Best) :
    Option Best :=
  if idx + energyWindow ≤ searchEnd then
    match slice? samples idx (idx + energyWindow) with
    | none => none
    | some window =>
      -- a split is at the center of a quiet window
      quietest energy samples searchEnd (idx + sampleRate / 100)
        (best.compare ⟨idx + energyWindow / 2, energy idx window⟩)
  else some best
termination_by searchEnd - idx
decreasing_by
  simp only [energyWindow, sampleRate] at *
  omega

/-- The split point of a piece that starts at `pos`. -/
def bestSplit (energy : Energy) (samples : List Float32) (maxSamples pos : ℕ) : Option Best :=
  let target := pos + maxSamples
  let searchStart := max (target - searchRadius) (pos + sampleRate)
  let searchEnd := min (target + searchRadius) (samples.length - energyWindow)
  let best := ⟨min target samples.length, maxRms⟩
  if searchStart + energyWindow ≤ searchEnd then
    quietest energy samples searchEnd searchStart best
  else some best

/-- The actual end of a piece, with overlap if there is no silence. -/
def chunkEnd (total : ℕ) (best : Best) : ℕ :=
  if silenceRmsThreshold < best.rms then min (best.split + fallbackOverlap) total else best.split

/-! ## What a search finds -/

theorem Best.compare_cases (best window : Best) :
    best.compare window = window ∨ best.compare window = best := by
  rw [compare]
  exact ite_eq_or_eq ..

/-- **A search** keeps what it has, or ends in the middle of one of its windows. -/
theorem quietest_cases {energy : Energy} {samples : List Float32} {searchEnd idx : ℕ}
    {best found : Best} (h : quietest energy samples searchEnd idx best = some found) :
    found = best ∨ ∃ i, idx ≤ i ∧ i + energyWindow ≤ searchEnd ∧
      found.split = i + energyWindow / 2 := by
  fun_induction quietest energy samples searchEnd idx best with
  | case1 idx best hin hslice => cases h
  | case2 idx best hin window hslice ih =>
    rcases ih h with hkept | ⟨i, hle, hend, hsplit⟩
    · rcases best.compare_cases ⟨idx + energyWindow / 2, energy idx window⟩ with heq | heq
      · exact .inr ⟨idx, le_rfl, hin, by rw [hkept, heq]⟩
      · exact .inl (hkept.trans heq)
    · exact .inr ⟨i, by omega, hend, hsplit⟩
  | case3 idx best hin => exact .inl (Option.some.inj h).symm

/-- It finds its windows in the samples. -/
theorem exists_quietest (energy : Energy) {samples : List Float32} {searchEnd : ℕ} (idx : ℕ)
    (best : Best) (h : searchEnd ≤ samples.length) :
    ∃ found, quietest energy samples searchEnd idx best = some found := by
  fun_induction quietest energy samples searchEnd idx best with
  | case1 idx best hin hslice =>
    rw [slice?_eq_some (by omega) (by omega)] at hslice
    cases hslice
  | case2 idx best hin window hslice ih => exact ih
  | case3 idx best hin => exact ⟨best, rfl⟩

/-- A split point is at the target, or in the middle of a window around it. -/
theorem bestSplit_cases {energy : Energy} {samples : List Float32} {maxSamples pos : ℕ}
    {best : Best} (h : bestSplit energy samples maxSamples pos = some best) :
    best = ⟨min (pos + maxSamples) samples.length, maxRms⟩ ∨
      pos + sampleRate < best.split ∧ best.split < pos + maxSamples + searchRadius ∧
        best.split < samples.length := by
  simp only [bestSplit] at h
  split at h
  · rcases quietest_cases h with hkept | ⟨i, hle, hend, hsplit⟩
    · exact .inl hkept
    · simp only [energyWindow, sampleRate, searchRadius] at *
      omega
  · exact .inl (Option.some.inj h).symm

theorem exists_bestSplit (energy : Energy) (samples : List Float32) (maxSamples pos : ℕ) :
    ∃ best, bestSplit energy samples maxSamples pos = some best := by
  simp only [bestSplit]
  split
  · exact exists_quietest energy _ _ (by omega)
  · exact ⟨_, rfl⟩

theorem silenceRmsThreshold_lt_maxRms : silenceRmsThreshold < maxRms := by decide +kernel

/-- **A piece is not empty**, whatever the energies are. -/
theorem lt_chunkEnd {energy : Energy} {samples : List Float32} {maxSamples pos : ℕ} {best : Best}
    (hpos : pos < samples.length) (h : bestSplit energy samples maxSamples pos = some best) :
    pos < chunkEnd samples.length best := by
  rw [chunkEnd]
  rcases bestSplit_cases h with rfl | ⟨hlow, -, hin⟩
  · rw [if_pos silenceRmsThreshold_lt_maxRms]
    simp only [fallbackOverlap, sampleRate]
    omega
  · split <;> omega

theorem chunkEnd_le_length {energy : Energy} {samples : List Float32} {maxSamples pos : ℕ}
    {best : Best} (h : bestSplit energy samples maxSamples pos = some best) :
    chunkEnd samples.length best ≤ samples.length := by
  rw [chunkEnd]
  rcases bestSplit_cases h with rfl | ⟨-, -, hin⟩
  · split <;> simp
  · split <;> omega

/-- A piece is at most four seconds longer than it is meant to be. -/
theorem chunkEnd_le {energy : Energy} {samples : List Float32} {maxSamples pos : ℕ} {best : Best}
    (h : bestSplit energy samples maxSamples pos = some best) :
    chunkEnd samples.length best ≤ pos + maxSamples + searchRadius + fallbackOverlap := by
  rw [chunkEnd]
  rcases bestSplit_cases h with rfl | ⟨-, hhigh, -⟩
  · split
    · simp only [searchRadius, fallbackOverlap]
      omega
    · simp only [searchRadius, fallbackOverlap]
      omega
  · split <;> omega

/-! ## The pieces -/

/-- The time of a position in a segment. -/
def timeAt (segment : SpeechSegment T) (position : ℕ) : T :=
  let msPerSample := (segment.endTimestampMs - segment.startTimestampMs) /
    Instant.ofNat segment.samples.length
  segment.startTimestampMs + Instant.ofNat position * msPerSample

/-- The chunk that starts at `pos`, and where it ends, which is where the next one starts: also when
it is longer for the overlap. -/
def nextChunk (energy : Energy) (segment : SpeechSegment T) (maxSamples pos : ℕ) :
    Option (SpeechSegment T × ℕ) :=
  if segment.samples.length - pos ≤ maxSamples then
    -- last chunk: take everything remaining
    some (⟨segment.samples.drop pos, timeAt segment pos, segment.endTimestampMs,
      segment.confidence, segment.source⟩, segment.samples.length)
  else do
    let best ← bestSplit energy segment.samples maxSamples pos
    let chunkEnd := chunkEnd segment.samples.length best
    let chunkSamples ← slice? segment.samples pos chunkEnd
    return (⟨chunkSamples, timeAt segment pos, timeAt segment chunkEnd, segment.confidence,
      segment.source⟩, chunkEnd)

/-- `split_segment_at_silence`, for any way to measure a window. -/
def splitSegmentAtSilence (energy : Energy) (segment : SpeechSegment T) (maxSamples : ℕ) :
    Option (List (SpeechSegment T)) :=
  if segment.samples.length ≤ maxSamples then some [segment]
  else walk (nextChunk energy segment maxSamples) segment.samples.length 0

/-- The longest segment that is not split, 25 seconds at 16 kHz -/
def maxSegmentSamples : ℕ := 25 * 16000

/-- The segments `run_batch_transcription` goes through. -/
def processableSegments (energy : Energy) :
    List (SpeechSegment T) → Option (List (SpeechSegment T))
  | [] => some []
  | segment :: segments => do
    let subSegments ← if maxSegmentSamples < segment.samples.length then
        splitSegmentAtSilence energy segment maxSegmentSamples
      else some [segment]
    let rest ← processableSegments energy segments
    return subSegments ++ rest

/-! ## Nothing is lost

In exact arithmetic each piece is a stretch of the segment (`stretch`), and the stretches are those of
a cut of it; what the pieces are together is then what a cut is. -/

/-- What a segment has at the positions of a range. -/
def stretch (segment : SpeechSegment ℚ) (range : ℕ × ℕ) : SpeechSegment ℚ :=
  ⟨slice segment.samples range, timeAt segment range.1, timeAt segment range.2, segment.confidence,
    segment.source⟩

@[simp] theorem timeAt_zero (segment : SpeechSegment ℚ) :
    timeAt segment 0 = segment.startTimestampMs := by
  simp [timeAt]

theorem timeAt_length {segment : SpeechSegment ℚ} (h : segment.samples.length ≠ 0) :
    timeAt segment segment.samples.length = segment.endTimestampMs := by
  have hne : (segment.samples.length : ℚ) ≠ 0 := by exact_mod_cast h
  simp only [timeAt, Instant.ofNat_rat]
  field_simp
  ring

theorem timeAt_lt_timeAt {segment : SpeechSegment ℚ} {p q : ℕ}
    (hspan : segment.startTimestampMs < segment.endTimestampMs)
    (hlength : segment.samples.length ≠ 0) (h : p < q) : timeAt segment p < timeAt segment q := by
  have hpos : (0 : ℚ) < segment.samples.length := by
    exact_mod_cast Nat.pos_of_ne_zero hlength
  have hrate : 0 < (segment.endTimestampMs - segment.startTimestampMs) /
      segment.samples.length := div_pos (by linarith) hpos
  have hcast : (p : ℚ) < q := by exact_mod_cast h
  simp only [timeAt, Instant.ofNat_rat]
  have := mul_lt_mul_of_pos_right hcast hrate
  linarith

/-- **A chunk is a stretch of the segment**, whatever the energies are: not an empty one, and at most
four seconds longer than it is meant to be. -/
theorem exists_nextChunk (energy : Energy) (segment : SpeechSegment ℚ) (maxSamples : ℕ) {pos : ℕ}
    (hpos : pos < segment.samples.length) :
    ∃ pos', nextChunk energy segment maxSamples pos = some (stretch segment (pos, pos'), pos') ∧
      pos < pos' ∧ pos' ≤ segment.samples.length ∧
      pos' - pos ≤ maxSamples + searchRadius + fallbackOverlap := by
  rw [nextChunk]
  split
  next hlast =>
    refine ⟨segment.samples.length, ?_, hpos, le_rfl, by omega⟩
    rw [stretch, slice_length, timeAt_length (by omega)]
  next hmore =>
    obtain ⟨best, hbest⟩ := exists_bestSplit energy segment.samples maxSamples pos
    have hlt := lt_chunkEnd hpos hbest
    have hin := chunkEnd_le_length hbest
    have hbound := chunkEnd_le hbest
    refine ⟨chunkEnd segment.samples.length best, ?_, hlt, hin, by omega⟩
    simp only [hbest, slice?_eq_some hlt.le hin, Option.bind_eq_bind, Option.bind_some,
      Option.pure_def, stretch]

/-- What the pieces of a segment are together: the segment. -/
structure Pieces (segment : SpeechSegment ℚ) (pieces : List (SpeechSegment ℚ)) : Prop where
  /-- no piece is empty -/
  nonempty : ∀ piece ∈ pieces, piece.samples ≠ []
  /-- their samples are the segment's -/
  flatten_samples : (pieces.map SpeechSegment.samples).flatten = segment.samples
  /-- each begins when the one before it ends, the first when the segment begins, and the last ends
  when it ends -/
  contiguous : Contiguous segment.startTimestampMs segment.endTimestampMs
    (pieces.map fun piece => (piece.startTimestampMs, piece.endTimestampMs))
  /-- each ends after it has begun, if the segment does -/
  increasing : segment.startTimestampMs < segment.endTimestampMs →
    ∀ piece ∈ pieces, piece.startTimestampMs < piece.endTimestampMs
  /-- each is from where the segment is from -/
  source : ∀ piece ∈ pieces,
    piece.source = segment.source ∧ piece.confidence = segment.confidence

/-- The stretches of a cut are the segment. -/
theorem pieces_map_stretch {segment : SpeechSegment ℚ} {ranges : List (ℕ × ℕ)}
    (hcontiguous : Contiguous 0 segment.samples.length ranges)
    (hlt : ∀ range ∈ ranges, range.1 < range.2)
    (hin : ∀ range ∈ ranges, range.2 ≤ segment.samples.length)
    (hlength : segment.samples.length ≠ 0) : Pieces segment (ranges.map (stretch segment)) where
  nonempty := by
    intro piece hpiece
    obtain ⟨range, hrange, rfl⟩ := List.mem_map.mp hpiece
    have hlt := hlt range hrange
    refine List.ne_nil_of_length_pos ?_
    rw [stretch, length_slice (hin range hrange)]
    omega
  flatten_samples := by
    have hflatten : (ranges.map (slice segment.samples)).flatten = _ :=
      hcontiguous.flatten_slices fun range hrange => (hlt range hrange).le
    rw [slice_zero_length] at hflatten
    rw [List.map_map]
    exact hflatten
  contiguous := by
    have hmap := hcontiguous.map (f := timeAt segment)
    rw [timeAt_zero, timeAt_length hlength] at hmap
    rw [List.map_map]
    exact hmap
  increasing := by
    intro hspan piece hpiece
    obtain ⟨range, hrange, rfl⟩ := List.mem_map.mp hpiece
    exact timeAt_lt_timeAt hspan hlength (hlt range hrange)
  source := by
    intro piece hpiece
    obtain ⟨range, hrange, rfl⟩ := List.mem_map.mp hpiece
    exact ⟨rfl, rfl⟩

/-- A segment that is too long is split into pieces that are the whole of it, and none of which is much
too long. -/
theorem exists_pieces (energy : Energy) {segment : SpeechSegment ℚ} {maxSamples : ℕ}
    (hlong : maxSamples < segment.samples.length) :
    ∃ pieces, splitSegmentAtSilence energy segment maxSamples = some pieces ∧
      Pieces segment pieces ∧
      ∀ piece ∈ pieces, piece.samples.length ≤ maxSamples + searchRadius + fallbackOverlap := by
  obtain ⟨ranges, hwalk, hcontiguous, hranges⟩ :=
    exists_walk (stretch segment)
      (fun range => range.2 - range.1 ≤ maxSamples + searchRadius + fallbackOverlap)
      (fun pos hpos => exists_nextChunk energy segment maxSamples hpos)
      (Nat.zero_le segment.samples.length)
  refine ⟨ranges.map (stretch segment), ?_, pieces_map_stretch hcontiguous
    (fun range hrange => (hranges range hrange).1)
    (fun range hrange => (hranges range hrange).2.1) (by omega), ?_⟩
  · rw [splitSegmentAtSilence, if_neg (by omega), hwalk]
  · intro piece hpiece
    obtain ⟨range, hrange, rfl⟩ := List.mem_map.mp hpiece
    obtain ⟨hlt, hin, hshort⟩ := hranges range hrange
    rw [stretch, length_slice hin]
    exact hshort

/-- Half a minute is more than a piece can have. -/
theorem longest_lt_halfMinute :
    maxSegmentSamples + searchRadius + fallbackOverlap < 30 * sampleRate := by decide

/-- **Splitting long speech loses nothing**: a segment longer than the 25 seconds of
`run_batch_transcription` is split into pieces that are the whole of it, each shorter than the 30
seconds of a window of Whisper, whatever the energies of its windows are. -/
theorem splitSegmentAtSilence_pieces (energy : Energy) (segment : SpeechSegment ℚ)
    (hlong : maxSegmentSamples < segment.samples.length) :
    ∃ pieces, splitSegmentAtSilence energy segment maxSegmentSamples = some pieces ∧
      Pieces segment pieces ∧ ∀ piece ∈ pieces, piece.samples.length < 30 * sampleRate := by
  obtain ⟨pieces, hsplit, hpieces, hlength⟩ := exists_pieces energy hlong
  exact ⟨pieces, hsplit, hpieces,
    fun piece hpiece => (hlength piece hpiece).trans_lt longest_lt_halfMinute⟩

/-- Half a minute of silence is split without a loss. -/
theorem splitSegmentAtSilence_pieces_halfMinute :
    let segment : SpeechSegment ℚ := ofDetected .microphone 0 (List.replicate 480000 0)
    ∃ pieces, splitSegmentAtSilence (fun _ => rms) segment maxSegmentSamples = some pieces ∧
      Pieces segment pieces ∧ ∀ piece ∈ pieces, piece.samples.length < 30 * sampleRate :=
  splitSegmentAtSilence_pieces _ _ (by
    rw [ofDetected, List.length_replicate]
    decide)

/-- **A batch** transcribes the samples it is given, in stretches that Whisper takes. -/
theorem exists_processableSegments (energy : Energy) (segments : List (SpeechSegment ℚ)) :
    ∃ pieces, processableSegments energy segments = some pieces ∧
      pieces.flatMap SpeechSegment.samples = segments.flatMap SpeechSegment.samples ∧
      ∀ piece ∈ pieces, piece.samples.length < 30 * sampleRate := by
  induction segments with
  | nil => exact ⟨[], rfl, rfl, by simp⟩
  | cons segment segments ih =>
    obtain ⟨rest, hrest, hsamples, hshort⟩ := ih
    by_cases hlong : maxSegmentSamples < segment.samples.length
    · obtain ⟨pieces, hsplit, hpieces, hlength⟩ := exists_pieces energy hlong
      refine ⟨pieces ++ rest, ?_, ?_, ?_⟩
      · simp only [processableSegments, if_pos hlong, hsplit, hrest, Option.bind_eq_bind,
          Option.bind_some, Option.pure_def]
      · rw [List.flatMap_append, List.flatMap_cons, hsamples, List.flatMap_def,
          hpieces.flatten_samples]
      · intro piece hpiece
        rcases List.mem_append.mp hpiece with hmem | hmem
        · exact (hlength piece hmem).trans_lt longest_lt_halfMinute
        · exact hshort piece hmem
    · refine ⟨segment :: rest, ?_, ?_, ?_⟩
      · simp only [processableSegments, if_neg hlong, hrest, Option.bind_eq_bind,
          Option.bind_some, Option.pure_def, List.singleton_append]
      · rw [List.flatMap_cons, List.flatMap_cons, hsamples]
      · refine List.forall_mem_cons.mpr ⟨?_, hshort⟩
        simp only [maxSegmentSamples, sampleRate] at hlong ⊢
        omega

end SilenceSplit

end MeetilyLocal
