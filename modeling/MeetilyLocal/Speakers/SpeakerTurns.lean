import MeetilyLocal.Audio.Vad
import MeetilyLocal.Library.Cuts
import MeetilyLocal.Speakers.Diarizer
import Mathlib.Data.List.ReduceOption

/-!
# Speaker turns

The embedding of `Diarizer::speaker_turns` with `window_bounds` and `turns_from_embeddings`
(`speaker_diarization/mod.rs`), and of `split_chunk_by_speaker` (`audio/transcription/worker.rs`). The
windows of a chunk are embedded one by one; the chunk is cut between two windows whose embeddings
are not similar, and each turn is transcribed by itself.

What panics is none: an index or a slice out of bounds, and a loop that does not end.
-/

namespace MeetilyLocal

open Cuts EmbeddingMath

/-- One speaker-turn sub-range of a segment, in samples. -/
structure SpeakerTurn : Type where
  /-- where it starts -/
  start : ℕ
  /-- where it ends -/
  stop : ℕ
  /-- the normalized average of its windows' embeddings, if one has any -/
  embedding : Option (List Float32)
  deriving DecidableEq

/-- The samples of a turn. -/
def SpeakerTurn.range (turn : SpeakerTurn) : ℕ × ℕ := (turn.start, turn.stop)

namespace SpeakerTurns

/-- Cosine similarity below which two adjacent windows are treated as a speaker change. -/
def turnSplitSimilarity : Float32 := 0.50

/-- The analysis window, 1s at 16 kHz. -/
def win : ℕ := 16000

/-- A split is not attempted below 2s. -/
def minTotal : ℕ := 2 * win

/-! ## Windows -/

/-- A remainder is folded into the last window. -/
def foldRemainder (bounds : List (ℕ × ℕ)) (s n : ℕ) : List (ℕ × ℕ) :=
  match bounds.getLast? with
  | some last => bounds.dropLast ++ [(last.1, n)]
  | none => [(s, n)]

/-- The loop of `window_bounds`, with the bounds so far. -/
def windowBoundsFrom (n win s : ℕ) (bounds : List (ℕ × ℕ)) : Option (List (ℕ × ℕ)) :=
  if s < n then
    let e := min (s + win) n
    if e - s < win / 2 then some (foldRemainder bounds s n)
    else if s < e then windowBoundsFrom n win e (bounds ++ [(s, e)])
    else none
  else some bounds
termination_by n - s

/-- Consecutive analysis windows over `n` samples. -/
def windowBounds (n win : ℕ) : Option (List (ℕ × ℕ)) := windowBoundsFrom n win 0 []

/-! ## Turns -/

/-- Whether the speaker changes between two windows; one that was not embedded is no boundary. -/
def changed (minSimilarity : Float32) : Option (List Float32) → Option (List Float32) → Bool
  | some a, some b => dot a b < minSimilarity
  | _, _ => false

/-- The embedding of a turn, of those its windows have. -/
def turnEmbedding (windows : List (List Float32)) : Option (Option (List Float32)) :=
  if windows.isEmpty then some none else (averageAndNormalize windows).map some

/-- The turn of the windows `first` to `last`. -/
def makeTurn (bounds : List (ℕ × ℕ)) (embeddings : List (Option (List Float32)))
    (first last : ℕ) : Option SpeakerTurn := do
  let windows ← slice? embeddings first (last + 1)
  let firstBound ← bounds[first]?
  let lastBound ← bounds[last]?
  let embedding ← turnEmbedding windows.reduceOption
  return ⟨firstBound.1, lastBound.2, embedding⟩

/-- `count` more rounds of the loop over the windows, from window `i` on: the turns so far, and the
window the current one starts with. -/
def scanTurns (bounds : List (ℕ × ℕ)) (embeddings : List (Option (List Float32)))
    (minSimilarity : Float32) : ℕ → ℕ → List SpeakerTurn → ℕ → Option (List SpeakerTurn × ℕ)
  | 0, _, turns, start => some (turns, start)
  | count + 1, i, turns, start => do
    let before ← embeddings[i - 1]?
    let here ← embeddings[i]?
    if changed minSimilarity before here then
      let turn ← makeTurn bounds embeddings start (i - 1)
      scanTurns bounds embeddings minSimilarity count (i + 1) (turns ++ [turn]) i
    else scanTurns bounds embeddings minSimilarity count (i + 1) turns start

/-- Group windows into speaker-turn ranges. -/
def turnsFromEmbeddings (bounds : List (ℕ × ℕ)) (embeddings : List (Option (List Float32)))
    (minSimilarity : Float32) : Option (List SpeakerTurn) :=
  if bounds.isEmpty then some []
  else do
    let (turns, start) ← scanTurns bounds embeddings minSimilarity (bounds.length - 1) 1 [] 0
    let last ← makeTurn bounds embeddings start (bounds.length - 1)
    return turns ++ [last]

end SpeakerTurns

open SpeakerTurns

/-- Split a speech segment into turns. -/
def Diarizer.speakerTurns (d : Diarizer) (samples : List Float32) : Option (List SpeakerTurn) := do
  let n := samples.length
  if n < minTotal then return [⟨0, n, none⟩]
  let bounds ← windowBounds n win
  if bounds.length < 2 then return [⟨0, n, none⟩]
  let embeddings ← bounds.mapM fun bound => do
    let window ← slice? samples bound.1 bound.2
    return ((d.embedder window).map l2Normalize).toOption
  turnsFromEmbeddings bounds embeddings turnSplitSimilarity

/-! ## Chunks -/

/-- A stretch of audio on its way to the transcription. -/
structure AudioChunk (T : Type) : Type where
  /-- its samples -/
  data : List Float32
  /-- samples per second -/
  sampleRate : UInt32
  /-- where it starts, in seconds from the start of the recording -/
  timestamp : T
  /-- its number -/
  chunkId : UInt64
  /-- which stream it is from -/
  deviceType : DeviceType

/-- A chunk queued for transcription, with the speaker embedding of its samples if there is one. -/
structure PendingChunk (T : Type) : Type where
  /-- the chunk -/
  chunk : AudioChunk T
  /-- the embedding -/
  embedding : Option (List Float32)

variable {T : Type} [Instant T]

/-- The part of a chunk that is a turn. -/
def turnChunk (chunk : AudioChunk T) (turn : SpeakerTurn) : Option (PendingChunk T) := do
  let data ← slice? chunk.data turn.start turn.stop
  let offset := Instant.ofNat turn.start / Instant.ofNat chunk.sampleRate.toNat
  return ⟨⟨data, chunk.sampleRate, chunk.timestamp + offset, chunk.chunkId, chunk.deviceType⟩,
    turn.embedding⟩

/-- Split a segment into speaker-turn sub-chunks. Without a diarizer it passes through, and so it does
where the turns are not found, for a panic there ends only the blocking task. -/
def splitChunkBySpeaker (diarizer : Option Diarizer) (chunk : AudioChunk T) :
    Option (List (PendingChunk T)) :=
  match diarizer with
  | none => some [⟨chunk, none⟩]
  | some diarizer =>
    match diarizer.speakerTurns chunk.data with
    | none => some [⟨chunk, none⟩]
    | some turns =>
      if turns.length ≤ 1 then some [⟨chunk, turns.head?.bind SpeakerTurn.embedding⟩]
      else turns.mapM (turnChunk chunk)

namespace SpeakerTurns

/-! ## The windows are a cut -/

/-- Ranges that lead from 0 to `n`, none of them empty. -/
structure Tiles (n : ℕ) (ranges : List (ℕ × ℕ)) : Prop where
  /-- each starts where the one before it ends -/
  contiguous : Contiguous 0 n ranges
  /-- none is empty -/
  lt : ∀ range ∈ ranges, range.1 < range.2

theorem Tiles.snoc {s n : ℕ} {ranges : List (ℕ × ℕ)} (h : Tiles s ranges) (hlt : s < n) :
    Tiles n (ranges ++ [(s, n)]) where
  contiguous := h.contiguous.append ⟨rfl, rfl⟩
  lt := by
    intro range hrange
    rcases List.mem_append.mp hrange with hmem | hmem
    · exact h.lt range hmem
    · rw [List.mem_singleton.mp hmem]
      exact hlt

theorem Tiles.mem_lt {n : ℕ} {ranges : List (ℕ × ℕ)} (h : Tiles n ranges) {range : ℕ × ℕ}
    (hrange : range ∈ ranges) : range.1 < range.2 ∧ range.2 ≤ n :=
  ⟨h.lt range hrange,
    (h.contiguous.mem_bounds (fun range hrange => (h.lt range hrange).le) hrange).2⟩

theorem Tiles.ne_nil {n : ℕ} {ranges : List (ℕ × ℕ)} (h : Tiles n ranges) (hn : 0 < n) :
    ranges ≠ [] := by
  rintro rfl
  have : 0 = n := h.contiguous
  omega

theorem Tiles.foldRemainder {s n : ℕ} {bounds : List (ℕ × ℕ)} (h : Tiles s bounds) (hlt : s < n) :
    Tiles n (foldRemainder bounds s n) := by
  rw [SpeakerTurns.foldRemainder]
  cases hlast : bounds.getLast? with
  | none =>
    obtain rfl := List.getLast?_eq_none_iff.mp hlast
    obtain rfl : 0 = s := h.contiguous
    exact h.snoc hlt
  | some last =>
    have hbounds : bounds = bounds.dropLast ++ [last] :=
      (List.dropLast_append_getLast? last hlast).symm
    have hcontiguous := h.contiguous
    rw [hbounds] at hcontiguous
    obtain ⟨m, hinit, hfirst, hend⟩ := hcontiguous.of_append
    obtain rfl : last.2 = s := hend
    obtain rfl : last.1 = m := hfirst
    have hlast_lt := h.lt last (List.mem_of_getLast? hlast)
    exact Tiles.snoc ⟨hinit, fun range hrange => h.lt range (List.dropLast_subset _ hrange)⟩
      (hlast_lt.trans hlt)

/-- **`window_bounds`** covers all of the samples, whatever the size of a window is. -/
theorem exists_windowBounds (n : ℕ) {win : ℕ} (hwin : 0 < win) :
    ∃ bounds, windowBounds n win = some bounds ∧ Tiles n bounds := by
  suffices hfrom : ∀ s bounds, s ≤ n → Tiles s bounds →
      ∃ all, windowBoundsFrom n win s bounds = some all ∧ Tiles n all from
    hfrom 0 [] (Nat.zero_le n) ⟨rfl, by simp⟩
  intro s bounds hle htiles
  fun_induction windowBoundsFrom n win s bounds with
  | case1 s bounds hlt e hshort => exact ⟨_, rfl, htiles.foldRemainder hlt⟩
  | case2 s bounds hlt e hlong hadvance ih => exact ih (by omega) (htiles.snoc hadvance)
  | case3 s bounds hlt e hlong hstuck => omega
  | case4 s bounds hge =>
    obtain rfl : s = n := by omega
    exact ⟨bounds, rfl, htiles⟩

/-! ## The turns are a cut of the windows -/

/-- Whether the speaker changes at a window. -/
def ChangesAt (embeddings : List (Option (List Float32))) (minSimilarity : Float32) (i : ℕ) : Prop :=
  changed minSimilarity (embeddings.getD (i - 1) none) (embeddings.getD i none) = true

/-- A turn is made of the windows of a range. -/
def MadeOf (bounds : List (ℕ × ℕ)) (embeddings : List (Option (List Float32)))
    (range : ℕ × ℕ) (turn : SpeakerTurn) : Prop :=
  makeTurn bounds embeddings range.1 (range.2 - 1) = some turn

/-- The windows before the `i`-th were scanned: the turns so far are those of `ranges`, and the current
one starts with the window `start`. -/
structure Scanned (bounds : List (ℕ × ℕ)) (embeddings : List (Option (List Float32)))
    (minSimilarity : Float32) (i : ℕ) (turns : List SpeakerTurn) (start : ℕ)
    (ranges : List (ℕ × ℕ)) : Prop where
  /-- the ranges are of the windows before the current turn -/
  tiles : Tiles start ranges
  /-- the turns are those of the ranges -/
  made : List.Forall₂ (MadeOf bounds embeddings) ranges turns
  /-- the current turn has a window -/
  start_lt : start < i
  /-- a turn starts where the speaker changes -/
  cut : ∀ j, 0 < j → j < i →
    (ChangesAt embeddings minSimilarity j ↔ j = start ∨ ∃ range ∈ ranges, range.1 = j)

section Scanning

variable {bounds : List (ℕ × ℕ)} {embeddings : List (Option (List Float32))}
  {minSimilarity : Float32} {i start : ℕ} {turns : List SpeakerTurn} {ranges : List (ℕ × ℕ)}

/-- The current turn goes on. -/
theorem Scanned.keep (h : Scanned bounds embeddings minSimilarity i turns start ranges)
    (hsame : ¬ChangesAt embeddings minSimilarity i) :
    Scanned bounds embeddings minSimilarity (i + 1) turns start ranges where
  tiles := h.tiles
  made := h.made
  start_lt := by have := h.start_lt; omega
  cut := by
    intro j hj hji
    rcases Nat.lt_succ_iff_lt_or_eq.mp hji with hlt | rfl
    · exact h.cut j hj hlt
    · refine iff_of_false hsame ?_
      rintro (rfl | ⟨range, hrange, rfl⟩)
      · exact absurd h.start_lt (lt_irrefl _)
      · -- the ranges end where the current turn starts
        have hlt := h.tiles.mem_lt hrange
        have := h.start_lt
        omega

/-- The current turn ends, and the next one starts. -/
theorem Scanned.next (h : Scanned bounds embeddings minSimilarity i turns start ranges)
    (hchanges : ChangesAt embeddings minSimilarity i) {turn : SpeakerTurn}
    (hturn : makeTurn bounds embeddings start (i - 1) = some turn) :
    Scanned bounds embeddings minSimilarity (i + 1) (turns ++ [turn]) i
      (ranges ++ [(start, i)]) where
  tiles := h.tiles.snoc h.start_lt
  made := List.rel_append h.made (.cons hturn .nil)
  start_lt := Nat.lt_succ_self i
  cut := by
    intro j hj hji
    rcases Nat.lt_succ_iff_lt_or_eq.mp hji with hlt | rfl
    · rw [h.cut j hj hlt]
      have hne : j ≠ i := hlt.ne
      simp only [List.mem_append, List.mem_singleton, or_and_right, exists_or, exists_eq_left,
        hne, false_or, eq_comm (a := start)]
      exact or_comm
    · exact iff_of_true hchanges (.inl rfl)

/-- **What a scan finds** of the windows that are left. -/
theorem Scanned.scanTurns (h : Scanned bounds embeddings minSimilarity i turns start ranges)
    {count : ℕ} {found : List SpeakerTurn × ℕ}
    (hscan : scanTurns bounds embeddings minSimilarity count i turns start = some found) :
    ∃ ranges, Scanned bounds embeddings minSimilarity (i + count) found.1 found.2 ranges := by
  induction count generalizing i turns start ranges with
  | zero =>
    rw [← Option.some.inj hscan]
    exact ⟨ranges, h⟩
  | succ count ih =>
    simp only [SpeakerTurns.scanTurns, Option.bind_eq_bind, Option.bind_eq_some_iff] at hscan
    obtain ⟨before, hbefore, here, hhere, hscan⟩ := hscan
    have hchanges : ChangesAt embeddings minSimilarity i ↔
        changed minSimilarity before here = true := by
      rw [ChangesAt, List.getD_eq_getElem?_getD, List.getD_eq_getElem?_getD, hbefore, hhere,
        Option.getD_some, Option.getD_some]
    rw [← Nat.succ_add_eq_add_succ]
    split at hscan
    next hchanged =>
      obtain ⟨turn, hturn, hscan⟩ := Option.bind_eq_some_iff.mp hscan
      exact ih (h.next (hchanges.mpr hchanged) hturn) hscan
    next hsame => exact ih (h.keep (mt hchanges.mp hsame)) hscan

/-- **`turns_from_embeddings`** gives the turns of a cut of the windows, at those where the speaker
changes. -/
theorem exists_ranges (hbounds : bounds ≠ [])
    (h : turnsFromEmbeddings bounds embeddings minSimilarity = some turns) :
    ∃ ranges, Tiles bounds.length ranges ∧
      List.Forall₂ (MadeOf bounds embeddings) ranges turns ∧
      ∀ j, 0 < j → j < bounds.length →
        (ChangesAt embeddings minSimilarity j ↔ ∃ range ∈ ranges, range.1 = j) := by
  have hlength : 0 < bounds.length := List.length_pos_of_ne_nil hbounds
  rw [turnsFromEmbeddings, if_neg (by simpa using hbounds)] at h
  simp only [Option.bind_eq_bind, Option.bind_eq_some_iff, Option.pure_def] at h
  obtain ⟨⟨scanned, start⟩, hscan, last, hlast, hturns⟩ := h
  have hnone : Scanned bounds embeddings minSimilarity 1 [] 0 [] :=
    ⟨⟨rfl, by simp⟩, .nil, Nat.one_pos, fun j hj hj1 => by omega⟩
  obtain ⟨ranges, hscanned⟩ := hnone.scanTurns hscan
  rw [Nat.add_sub_cancel' hlength] at hscanned
  obtain rfl := Option.some.inj hturns
  refine ⟨ranges ++ [(start, bounds.length)], hscanned.tiles.snoc hscanned.start_lt,
    List.rel_append hscanned.made (.cons hlast .nil), fun j hj hjlt => ?_⟩
  rw [hscanned.cut j hj hjlt]
  simp only [List.mem_append, List.mem_singleton, or_and_right, exists_or, exists_eq_left,
    eq_comm (a := start)]
  exact or_comm

end Scanning

/-! ## Embeddings of one size -/

theorem exists_turnEmbedding {dim : ℕ} {windows : List (List Float32)}
    (h : ∀ e ∈ windows, e.length = dim) : ∃ embedding, turnEmbedding windows = some embedding := by
  rw [turnEmbedding]
  split
  · exact ⟨none, rfl⟩
  · obtain ⟨average, haverage⟩ := exists_averageAndNormalize h
    exact ⟨some average, by rw [haverage]; rfl⟩

section Fits

variable {bounds : List (ℕ × ℕ)} {embeddings : List (Option (List Float32))} {dim : ℕ}

/-- An embedding, or the lack of one, for each window, and all of one size. -/
structure Fits (dim : ℕ) (bounds : List (ℕ × ℕ)) (embeddings : List (Option (List Float32))) :
    Prop where
  /-- for each window -/
  length_eq : embeddings.length = bounds.length
  /-- all of one size -/
  dim_eq : ∀ e, some e ∈ embeddings → e.length = dim

theorem Fits.exists_makeTurn (h : Fits dim bounds embeddings) {first last : ℕ}
    (hle : first ≤ last) (hlast : last < bounds.length) :
    ∃ turn, makeTurn bounds embeddings first last = some turn := by
  have hin : last + 1 ≤ embeddings.length := by rw [h.length_eq]; exact hlast
  have hdim : ∀ e ∈ (slice embeddings (first, last + 1)).reduceOption, e.length = dim := by
    intro e he
    rw [List.reduceOption_mem_iff] at he
    exact h.dim_eq e (List.mem_of_mem_drop (List.mem_of_mem_take he))
  obtain ⟨embedding, hembedding⟩ := exists_turnEmbedding hdim
  refine ⟨⟨bounds[first].1, bounds[last].2, embedding⟩, ?_⟩
  simp only [makeTurn, slice?_eq_some (Nat.le_succ_of_le hle) hin,
    List.getElem?_eq_getElem (hle.trans_lt hlast), List.getElem?_eq_getElem hlast, hembedding,
    Option.bind_eq_bind, Option.bind_some, Option.pure_def]

theorem Fits.exists_scanTurns (h : Fits dim bounds embeddings) (minSimilarity : Float32)
    {count i start : ℕ} (turns : List SpeakerTurn) (hstart : start < i)
    (hin : i + count ≤ bounds.length) :
    ∃ turns' start', scanTurns bounds embeddings minSimilarity count i turns start =
      some (turns', start') ∧ start' < i + count := by
  induction count generalizing i turns start with
  | zero => exact ⟨turns, start, rfl, hstart⟩
  | succ count ih =>
    have hlength := h.length_eq
    simp only [scanTurns, List.getElem?_eq_getElem (show i - 1 < embeddings.length by omega),
      List.getElem?_eq_getElem (show i < embeddings.length by omega), Option.bind_eq_bind,
      Option.bind_some]
    rw [show i + (count + 1) = i + 1 + count by omega]
    split
    · obtain ⟨turn, hturn⟩ := h.exists_makeTurn (show start ≤ i - 1 by omega)
        (show i - 1 < bounds.length by omega)
      rw [hturn, Option.bind_some]
      exact ih (turns ++ [turn]) (Nat.lt_succ_self i) (by omega)
    · exact ih turns (by omega) (by omega)

/-- `turns_from_embeddings` runs nowhere out of bounds. -/
theorem Fits.exists_turns (h : Fits dim bounds embeddings) (minSimilarity : Float32) :
    ∃ turns, turnsFromEmbeddings bounds embeddings minSimilarity = some turns := by
  rw [turnsFromEmbeddings]
  split
  next => exact ⟨[], rfl⟩
  next hne =>
    have hlength : 0 < bounds.length := List.length_pos_of_ne_nil (by simpa using hne)
    obtain ⟨turns, start, hscan, hstart⟩ :=
      h.exists_scanTurns minSimilarity [] Nat.zero_lt_one
        (show 1 + (bounds.length - 1) ≤ bounds.length by omega)
    obtain ⟨last, hlast⟩ := h.exists_makeTurn (show start ≤ bounds.length - 1 by omega)
      (show bounds.length - 1 < bounds.length by omega)
    refine ⟨turns ++ [last], ?_⟩
    simp only [hscan, hlast, Option.bind_eq_bind, Option.bind_some, Option.pure_def]

end Fits

/-! ## The turns are a cut of the chunk -/

section Partition

variable {n : ℕ} {bounds : List (ℕ × ℕ)} {embeddings : List (Option (List Float32))}
  {minSimilarity : Float32} {turns : List SpeakerTurn}

/-- A turn is from where its first window starts to where its last one ends. -/
theorem MadeOf.range_eq {range : ℕ × ℕ} {turn : SpeakerTurn}
    (h : MadeOf bounds embeddings range turn) (hbounds : Contiguous 0 n bounds)
    (hlt : range.1 < range.2) (hle : range.2 ≤ bounds.length) :
    turn.range = (position n bounds range.1, position n bounds range.2) := by
  have hlast : range.2 - 1 + 1 = range.2 := by omega
  simp only [MadeOf, makeTurn, Option.bind_eq_bind, Option.bind_eq_some_iff, Option.pure_def,
    hbounds.getElem?_eq (hlt.trans_le hle),
    hbounds.getElem?_eq (show range.2 - 1 < bounds.length by omega), hlast,
    Option.some.injEq] at h
  obtain ⟨-, -, -, rfl, -, rfl, -, -, rfl⟩ := h
  rfl

theorem map_range_eq (hbounds : Contiguous 0 n bounds) {ranges : List (ℕ × ℕ)}
    (hmade : List.Forall₂ (MadeOf bounds embeddings) ranges turns)
    (hranges : ∀ range ∈ ranges, range.1 < range.2 ∧ range.2 ≤ bounds.length) :
    turns.map SpeakerTurn.range =
      ranges.map fun range => (position n bounds range.1, position n bounds range.2) := by
  induction hmade with
  | nil => rfl
  | cons hturn hmade ih =>
    obtain ⟨⟨hlt, hle⟩, hrest⟩ := List.forall_mem_cons.mp hranges
    rw [List.map_cons, List.map_cons, hturn.range_eq hbounds hlt hle, ih hrest]

/-- **The turns of a chunk are a cut of it**, between the windows where the speaker changes. -/
theorem partition_of_turns (hn : 0 < n) (hbounds : Tiles n bounds)
    (h : turnsFromEmbeddings bounds embeddings minSimilarity = some turns) :
    Tiles n (turns.map SpeakerTurn.range) ∧
      ∀ i bound, 0 < i → bounds[i]? = some bound →
        ((∃ turn ∈ turns, turn.start = bound.1) ↔ ChangesAt embeddings minSimilarity i) := by
  obtain ⟨ranges, htiles, hmade, hcut⟩ := exists_ranges (hbounds.ne_nil hn) h
  have hranges : ∀ range ∈ ranges, range.1 < range.2 ∧ range.2 ≤ bounds.length :=
    fun range hrange => htiles.mem_lt hrange
  have hmap := map_range_eq hbounds.contiguous hmade hranges
  have hpos : ∀ i j, i < j → j ≤ bounds.length → position n bounds i < position n bounds j :=
    fun i j hij hj => hbounds.contiguous.position_lt hbounds.lt hij hj
  constructor
  · constructor
    · have hcontiguous := htiles.contiguous.map (f := position n bounds)
      rw [hbounds.contiguous.position_zero, position_length, ← hmap] at hcontiguous
      exact hcontiguous
    · rw [hmap]
      intro range hrange
      obtain ⟨windows, hwindows, rfl⟩ := List.mem_map.mp hrange
      exact hpos _ _ (hranges windows hwindows).1 (hranges windows hwindows).2
  · intro i bound hi hbound
    have hlt : i < bounds.length := (List.getElem?_eq_some_iff.mp hbound).1
    rw [hbounds.contiguous.getElem?_eq hlt] at hbound
    obtain rfl := Option.some.inj hbound
    rw [hcut i hi hlt]
    have hstarts : (∃ turn ∈ turns, turn.start = position n bounds i) ↔
        ∃ range ∈ turns.map SpeakerTurn.range, range.1 = position n bounds i := by
      simp [SpeakerTurn.range]
    rw [hstarts, hmap]
    simp only [List.mem_map, exists_exists_and_eq_and]
    refine exists_congr fun range => and_congr_right fun hrange => ?_
    -- a position is that of one window
    constructor
    · intro heq
      have hle : range.1 ≤ bounds.length := by have := hranges range hrange; omega
      rcases lt_trichotomy range.1 i with hrange_lt | hsame | hrange_gt
      · exact absurd heq (hpos _ _ hrange_lt hlt.le).ne
      · exact hsame
      · exact absurd heq (hpos _ _ hrange_gt hle).ne'
    · rintro rfl
      rfl

end Partition

/-! ## The pieces of a chunk -/

/-- What `speaker_turns` finds is one turn, or a cut of the samples. -/
theorem tiles_of_speakerTurns {d : Diarizer} {samples : List Float32} {turns : List SpeakerTurn}
    (h : d.speakerTurns samples = some turns) :
    turns.length ≤ 1 ∨ Tiles samples.length (turns.map SpeakerTurn.range) := by
  simp only [Diarizer.speakerTurns] at h
  split at h
  next hshort =>
    obtain rfl := Option.some.inj h
    exact .inl le_rfl
  next hlong =>
    have hpos : 0 < samples.length := by
      simp only [minTotal, win] at hlong
      omega
    obtain ⟨bounds, hbounds, htiles⟩ := exists_windowBounds samples.length (show 0 < win by decide)
    rw [hbounds, Option.bind_eq_bind, Option.bind_some] at h
    split at h
    next hfew =>
      obtain rfl := Option.some.inj h
      exact .inl le_rfl
    next hmany =>
      obtain ⟨embeddings, -, hturns⟩ := Option.bind_eq_some_iff.mp h
      exact .inr (partition_of_turns hpos htiles hturns).1

/-- The piece of a turn that is within the chunk. -/
def pieceOf (chunk : AudioChunk ℚ) (turn : SpeakerTurn) : PendingChunk ℚ :=
  ⟨⟨slice chunk.data turn.range, chunk.sampleRate,
    chunk.timestamp + turn.start / chunk.sampleRate.toNat, chunk.chunkId, chunk.deviceType⟩,
    turn.embedding⟩

theorem mapM_turnChunk {chunk : AudioChunk ℚ} {turns : List SpeakerTurn}
    (h : ∀ turn ∈ turns, turn.start ≤ turn.stop ∧ turn.stop ≤ chunk.data.length) :
    turns.mapM (turnChunk chunk) = some (turns.map (pieceOf chunk)) := by
  refine mapM_of_some fun turn hturn => ?_
  obtain ⟨hle, hin⟩ := h turn hturn
  simp only [turnChunk, slice?_eq_some hle hin]
  rfl

/-- What the pieces of a chunk are together: the chunk. -/
structure PiecesOf (chunk : AudioChunk ℚ) (pieces : List (PendingChunk ℚ)) : Prop where
  /-- their samples are the chunk's -/
  flatMap_data : (pieces.flatMap fun piece => piece.chunk.data) = chunk.data
  /-- each starts when the samples before it have been played -/
  timestamp : ∀ before piece after, pieces = before ++ piece :: after →
    piece.chunk.timestamp = chunk.timestamp +
      (before.flatMap fun piece => piece.chunk.data).length / chunk.sampleRate.toNat
  /-- the rest is the chunk's -/
  same : ∀ piece ∈ pieces, piece.chunk.sampleRate = chunk.sampleRate ∧
    piece.chunk.chunkId = chunk.chunkId ∧ piece.chunk.deviceType = chunk.deviceType

theorem PiecesOf.single (chunk : AudioChunk ℚ) (embedding : Option (List Float32)) :
    PiecesOf chunk [⟨chunk, embedding⟩] where
  flatMap_data := by simp
  timestamp := by
    intro before piece after h
    have hnil : before = [] ∧ piece = ⟨chunk, embedding⟩ := by
      rcases before with _ | ⟨first, before⟩
      · simp_all
      · simp at h
    rw [hnil.1, hnil.2]
    simp
  same := by simp

/-- The samples of the pieces of a cut. -/
theorem flatMap_pieceOf {chunk : AudioChunk ℚ} {a b : ℕ} {turns : List SpeakerTurn}
    (h : Contiguous a b (turns.map SpeakerTurn.range))
    (hle : ∀ range ∈ turns.map SpeakerTurn.range, range.1 ≤ range.2) :
    ((turns.map (pieceOf chunk)).flatMap fun piece => piece.chunk.data) =
      slice chunk.data (a, b) := by
  rw [← h.flatten_slices hle, List.flatMap_def, List.map_map, List.map_map]
  rfl

theorem PiecesOf.of_tiles {chunk : AudioChunk ℚ} {turns : List SpeakerTurn}
    (h : Tiles chunk.data.length (turns.map SpeakerTurn.range)) :
    PiecesOf chunk (turns.map (pieceOf chunk)) where
  flatMap_data := by
    rw [flatMap_pieceOf h.contiguous fun range hrange => (h.lt range hrange).le,
      slice_zero_length]
  timestamp := by
    intro before piece after hsplit
    obtain ⟨turnsBefore, rest, rfl, rfl, hrest⟩ := List.map_eq_append_iff.mp hsplit
    obtain ⟨turn, turnsAfter, rfl, rfl, rfl⟩ := List.map_eq_cons_iff.mp hrest
    have hcontiguous := h.contiguous
    rw [List.map_append, List.map_cons] at hcontiguous
    obtain ⟨m, hbefore, hstart, -⟩ := hcontiguous.of_append
    obtain rfl : turn.start = m := hstart
    obtain ⟨hlt, hin⟩ : turn.start < turn.stop ∧ turn.stop ≤ chunk.data.length :=
      h.mem_lt (List.mem_map_of_mem (show turn ∈ turnsBefore ++ turn :: turnsAfter by simp))
    have hle : ∀ range ∈ turnsBefore.map SpeakerTurn.range, range.1 ≤ range.2 :=
      fun range hrange => (h.lt range (by
        rw [List.map_append]
        exact List.mem_append_left _ hrange)).le
    rw [flatMap_pieceOf hbefore hle, length_slice (hlt.le.trans hin), Nat.sub_zero]
    rfl
  same := by
    intro piece hpiece
    obtain ⟨turn, -, rfl⟩ := List.mem_map.mp hpiece
    exact ⟨rfl, rfl, rfl⟩

/-- **A split loses nothing**, with whatever diarizer and also if that one fails. -/
theorem exists_pieces (diarizer : Option Diarizer) (chunk : AudioChunk ℚ) :
    ∃ pieces, splitChunkBySpeaker diarizer chunk = some pieces ∧ PiecesOf chunk pieces := by
  rcases diarizer with _ | diarizer
  · exact ⟨_, rfl, .single chunk none⟩
  rcases hturns : diarizer.speakerTurns chunk.data with _ | turns
  · exact ⟨[⟨chunk, none⟩], by simp only [splitChunkBySpeaker, hturns], .single chunk none⟩
  by_cases hone : turns.length ≤ 1
  · refine ⟨[⟨chunk, turns.head?.bind SpeakerTurn.embedding⟩], ?_, .single chunk _⟩
    simp only [splitChunkBySpeaker, hturns, if_pos hone]
  · have htiles := (tiles_of_speakerTurns hturns).resolve_left hone
    refine ⟨turns.map (pieceOf chunk), ?_, .of_tiles htiles⟩
    simp only [splitChunkBySpeaker, hturns, if_neg hone]
    refine mapM_turnChunk fun turn hturn => ?_
    have hrange := htiles.mem_lt (List.mem_map_of_mem hturn)
    exact ⟨hrange.1.le, hrange.2⟩

/-- **Speaker turns partition a chunk.** Of a chunk that has samples, and whatever its windows and
their embeddings are, the turns start at 0, each at the end of the one before it, and end where the
chunk does; none is empty. There is a turn that starts with a window if and only if the speaker
changes from the window before it. What is made of the turns of a chunk is the chunk again. -/
theorem turns_partition {n win : ℕ} (hn : 0 < n) (hwin : 0 < win)
    (embeddings : List (Option (List Float32))) (minSimilarity : Float32)
    (diarizer : Option Diarizer) (chunk : AudioChunk ℚ) :
    (∃ bounds, windowBounds n win = some bounds ∧
      (∀ dim, Fits dim bounds embeddings →
        ∃ turns, turnsFromEmbeddings bounds embeddings minSimilarity = some turns) ∧
      ∀ turns, turnsFromEmbeddings bounds embeddings minSimilarity = some turns →
        turns ≠ [] ∧ Tiles n (turns.map SpeakerTurn.range) ∧
          ∀ i bound, 0 < i → bounds[i]? = some bound →
            ((∃ turn ∈ turns, turn.start = bound.1) ↔ ChangesAt embeddings minSimilarity i)) ∧
    ∃ pieces, splitChunkBySpeaker diarizer chunk = some pieces ∧ PiecesOf chunk pieces := by
  obtain ⟨bounds, hbounds, htiles⟩ := exists_windowBounds n hwin
  refine ⟨⟨bounds, hbounds, fun dim hfits => hfits.exists_turns minSimilarity,
    fun turns hturns => ?_⟩, exists_pieces diarizer chunk⟩
  obtain ⟨hpartition, hcut⟩ := partition_of_turns hn htiles hturns
  refine ⟨?_, hpartition, hcut⟩
  rintro rfl
  exact hpartition.ne_nil hn rfl

/-- The two windows of two seconds are two turns where the speaker changes between them. -/
theorem turns_partition_twoSeconds :
    (∃ bounds, windowBounds 32000 win = some bounds ∧
      (∀ dim, Fits dim bounds [some [1, 0], some [0, 1]] →
        ∃ turns, turnsFromEmbeddings bounds [some [1, 0], some [0, 1]] turnSplitSimilarity =
          some turns) ∧
      ∀ turns, turnsFromEmbeddings bounds [some [1, 0], some [0, 1]] turnSplitSimilarity =
          some turns →
        turns ≠ [] ∧ Tiles 32000 (turns.map SpeakerTurn.range) ∧
          ∀ i bound, 0 < i → bounds[i]? = some bound →
            ((∃ turn ∈ turns, turn.start = bound.1) ↔
              ChangesAt [some [1, 0], some [0, 1]] turnSplitSimilarity i)) ∧
    ∃ pieces, splitChunkBySpeaker none ⟨[0], 16000, 0, 0, .system⟩ = some pieces ∧
      PiecesOf ⟨[0], 16000, 0, 0, .system⟩ pieces :=
  turns_partition (by decide) (by decide) _ _ _ _

/-! ## One voice in two turns -/

/-- The embeddings of four windows of a voice that drifts away, and is at once as it was. -/
def driftingVoice : List (Option (List Float32)) :=
  [some [1, 0], some [0.6, 0.8], some [-0.28, 0.96], some [1, 0]]

/-- The ids that the clusters of a session give to two voices, one after the other. -/
def clusterIds (first second : List Float32) : ℕ × ℕ :=
  let (firstId, clusterer) := (OnlineSpeakerClusterer.new defaultClusterThreshold).assign first
  (firstId, (clusterer.assign second).1)

theorem windowBounds_fourSeconds : windowBounds 64000 win =
    some [(0, 16000), (16000, 32000), (32000, 48000), (48000, 64000)] := by
  simp [windowBounds, windowBoundsFrom, win]

/-- **Adjacent turns can be of one speaker**: the voice in the first turn is at its end not what it was
on the whole, and the second turn is of the same cluster. An empty chunk has no window and no turn. -/
theorem turns_of_one_speaker :
    (∃ bounds first second a b, windowBounds 64000 win = some bounds ∧
      turnsFromEmbeddings bounds driftingVoice turnSplitSimilarity = some [first, second] ∧
      first.embedding = some a ∧ second.embedding = some b ∧
      (clusterIds a b).1 = (clusterIds a b).2) ∧
    windowBounds 0 win = some [] ∧ turnsFromEmbeddings [] [] turnSplitSimilarity = some [] := by
  refine ⟨⟨_, ⟨0, 48000, some [0.6, 0.79999995]⟩, ⟨48000, 64000, some [1, 0]⟩, _, _,
    windowBounds_fourSeconds, ?_, rfl, rfl, ?_⟩, ?_, rfl⟩
  · decide +kernel
  · decide +kernel
  · simp [windowBounds, windowBoundsFrom]

end SpeakerTurns

end MeetilyLocal
