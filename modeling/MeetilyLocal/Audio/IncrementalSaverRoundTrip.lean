import Mathlib.Data.List.SplitLengths
import MeetilyLocal.Audio.IncrementalSaverFaults

/-!
# From checkpoints back to the recording

Without disk errors the checkpoints are the recording cut into pieces, and feeding them back in
index order gives its whole frames, however the files are read (`feedFiles_eq`). But the files
are taken in the order of their *names*, padded to three digits. Up to a thousand checkpoints
that is index order; the next one, `audio_chunk_1000`, sorts before `audio_chunk_101`.

The headline is `roundTrips_iff`: recordings of given chunk lengths survive, whatever their
samples, exactly when they make at most a thousand checkpoints.
-/

namespace MeetilyLocal

/-! ## Feeding files to the encoder -/

/-- The bytes cut to a whole number of frames. -/
def wholeFrames (frame : ℕ) (bytes : List UInt8) : List UInt8 :=
  bytes.take (bytes.length - bytes.length % frame)

/-- What was fed so far is cut into whole frames and a carry shorter than a frame. -/
structure Feeding (frame : ℕ) (bytes : List UInt8) (state : List UInt8 × List UInt8) : Prop where
  /-- nothing is lost -/
  append_eq : state.1 ++ state.2 = bytes
  /-- only whole frames were written -/
  whole : frame ∣ state.1.length
  /-- less than a frame is carried -/
  carry_lt : state.2.length < frame

theorem feeding_nil {frame : ℕ} (h : 0 < frame) : Feeding frame [] ([], []) :=
  ⟨rfl, dvd_zero _, h⟩

theorem Feeding.feedRead {frame : ℕ} {bytes written carry : List UInt8}
    (h : Feeding frame bytes (written, carry)) (read : List UInt8) :
    Feeding frame (bytes ++ read) (feedRead frame written carry read) := by
  have hframe : 0 < frame := Nat.zero_lt_of_lt h.carry_lt
  have hmod := Nat.mod_lt (carry ++ read).length hframe
  have hle := Nat.mod_le (carry ++ read).length frame
  refine ⟨?_, ?_, ?_⟩
  · rw [MeetilyLocal.feedRead, List.append_assoc, List.take_append_drop, ← List.append_assoc,
      h.append_eq]
  · rw [MeetilyLocal.feedRead, List.length_append, List.length_take,
      min_eq_left (Nat.sub_le _ _)]
    exact Nat.dvd_add h.whole (Nat.dvd_sub_mod _)
  · rw [MeetilyLocal.feedRead, List.length_drop]
    omega

theorem Feeding.feedReads {frame : ℕ} {bytes : List UInt8} {state : List UInt8 × List UInt8}
    (h : Feeding frame bytes state) (reads : List (List UInt8)) :
    Feeding frame (bytes ++ reads.flatten) (feedReads frame state reads) := by
  induction reads generalizing bytes state with
  | nil => simpa [MeetilyLocal.feedReads] using h
  | cons read reads ih =>
    obtain ⟨written, carry⟩ := state
    rw [List.flatten_cons, ← List.append_assoc]
    exact ih (h.feedRead read)

/-- At the end, the whole frames were written. -/
theorem Feeding.written_eq {frame : ℕ} {bytes : List UInt8} {state : List UInt8 × List UInt8}
    (h : Feeding frame bytes state) : state.1 = wholeFrames frame bytes := by
  have hlen : bytes.length = state.1.length + state.2.length := by
    rw [← h.append_eq, List.length_append]
  have hmod : bytes.length % frame = state.2.length := by
    obtain ⟨k, hk⟩ := h.whole
    rw [hlen, hk, Nat.mul_add_mod, Nat.mod_eq_of_lt h.carry_lt]
  rw [wholeFrames, hmod, hlen, Nat.add_sub_cancel, ← h.append_eq, List.take_left]

/-- `reads` is what reading a file with the given bytes returns. -/
structure ReadsAs (file : FileReads) (bytes : List UInt8) : Prop where
  /-- the end of the file is reached -/
  error : file.error = none
  /-- the reads return its bytes -/
  flatten : file.reads.flatten = bytes
  /-- a read that returns nothing would be the end of the file -/
  nonempty : ∀ read ∈ file.reads, read ≠ []

/-- **Feeding.** However the files are read, what is written are the whole frames of their
concatenation. -/
theorem feedFiles_eq {frame : ℕ} {bytes : List UInt8} {state : List UInt8 × List UInt8}
    (h : Feeding frame bytes state) {files : List FileReads} {contents : List (List UInt8)}
    (hfiles : List.Forall₂ ReadsAs files contents) :
    feedFiles frame state files = (wholeFrames frame (bytes ++ contents.flatten), none) := by
  induction hfiles generalizing bytes state with
  | nil =>
    obtain ⟨written, carry⟩ := state
    rw [feedFiles, List.flatten_nil, List.append_nil, ← h.written_eq]
  | @cons file content files contents hfile _ ih =>
    rw [feedFiles, hfile.error]
    have hnext := h.feedReads file.reads
    rw [hfile.flatten] at hnext
    rw [List.flatten_cons, ← List.append_assoc]
    exact ih hnext

/-! ## The checkpoints of a recording -/

/-- Up to a thousand, checkpoint names are ordered as their numbers. -/
theorem checkpointName_lt {m n : ℕ} (h : m < n) (hn : n < 1000) :
    checkpointName m < checkpointName n := by
  have hdigits := Decimal.padded_lt_padded (by norm_num) h (show n < 10 ^ 3 from hn)
  have hlen : (Decimal.padded 3 m).length = (Decimal.padded 3 n).length := by
    rw [Decimal.length_padded (by norm_num) (show m < 10 ^ 3 from h.trans hn),
      Decimal.length_padded (by norm_num) (show n < 10 ^ 3 from hn)]
  rw [checkpointName, checkpointName, checkpointStem, checkpointStem, List.append_assoc,
    List.append_assoc]
  exact List.append_left_lt (Decimal.append_lt_append hlen hdigits _ _)

theorem pairwise_checkpointName {n : ℕ} (hn : n ≤ 1000) :
    ((List.range n).map checkpointName).Pairwise (· < ·) := by
  refine List.pairwise_map.mpr (List.pairwise_lt_range.imp_of_mem fun _ hj hlt => ?_)
  exact checkpointName_lt hlt (lt_of_lt_of_le (List.mem_range.mp hj) hn)

/-- The thousand-and-first checkpoint sorts before the hundred-and-second. -/
theorem checkpointName_1000_lt : checkpointName 1000 < checkpointName 101 := by decide

/-- The lengths of the checkpoints that chunks of the given lengths make, with `pending` samples
in the buffer: a checkpoint is saved once the buffer reaches the interval, and the rest at the
end. Nothing is saved when there are no samples. -/
def checkpointLengths (interval : ℕ) : ℕ → List ℕ → List ℕ
  | pending, [] => if pending = 0 then [] else [pending]
  | pending, n :: lengths =>
    if interval ≤ pending + n then
      (if pending + n = 0 then [] else [pending + n]) ++ checkpointLengths interval 0 lengths
    else checkpointLengths interval (pending + n) lengths

/-- No checkpoint is empty. -/
theorem pos_of_mem_checkpointLengths {interval pending len : ℕ} {lengths : List ℕ}
    (h : len ∈ checkpointLengths interval pending lengths) : 0 < len := by
  induction lengths generalizing pending with
  | nil =>
    rw [checkpointLengths] at h
    split_ifs at h with hzero
    · exact absurd h List.not_mem_nil
    · rw [List.mem_singleton.mp h]
      exact Nat.pos_of_ne_zero hzero
  | cons n lengths ih =>
    rw [checkpointLengths] at h
    split_ifs at h with hfull hzero
    · exact ih h
    · rcases List.mem_append.mp h with h | h
      · rw [List.mem_singleton.mp h]
        exact Nat.pos_of_ne_zero hzero
      · exact ih h
    · exact ih h

/-- Every checkpoint but the last one reaches the interval. -/
theorem interval_le_checkpointLengths {interval pending i len : ℕ} {lengths : List ℕ}
    (hi : (checkpointLengths interval pending lengths)[i]? = some len)
    (hlast : i + 1 < (checkpointLengths interval pending lengths).length) : interval ≤ len := by
  induction lengths generalizing pending i with
  | nil =>
    rw [checkpointLengths] at hlast
    split_ifs at hlast <;> simp at hlast
  | cons n lengths ih =>
    rw [checkpointLengths] at hi hlast
    split_ifs at hi hlast with hfull hzero
    · exact ih hi hlast
    · cases i with
      | zero =>
        obtain rfl : pending + n = len := by simpa using hi
        exact hfull
      | succ i => exact ih (by simpa using hi) (by simpa using hlast)
    · exact ih hi hlast

namespace IncrementalAudioSaver

variable {parts : List (List Sample)} {saver : IncrementalAudioSaver} {dir : Directory}

/-- `parts` with the buffer as one more part, unless it is empty. -/
def withPart (parts : List (List Sample)) (samples : List Sample) : List (List Sample) :=
  parts ++ if samples = [] then [] else [samples]

theorem flatten_withPart (parts : List (List Sample)) (samples : List Sample) :
    (withPart parts samples).flatten = parts.flatten ++ samples := by
  rw [withPart]
  split_ifs with h <;> simp [h]

theorem map_length_withPart (parts : List (List Sample)) (samples : List Sample) :
    (withPart parts samples).map List.length = parts.map List.length ++
      if samples.length = 0 then [] else [samples.length] := by
  rw [withPart]
  by_cases h : samples = []
  · simp [h]
  · simp [h]

/-- Without disk errors, saving and clearing makes the buffer a checkpoint. -/
theorem saveAndClear_ok (h : Holds parts saver dir) :
    Holds (withPart parts saver.checkpointBuffer.flatten)
        (saver.saveAndClear dir SaveOutcome.ok).2.1 (saver.saveAndClear dir SaveOutcome.ok).2.2 ∧
      (saver.saveAndClear dir SaveOutcome.ok).2.1.checkpointBuffer = [] ∧
      (saver.saveAndClear dir SaveOutcome.ok).2.1.checkpointIntervalSamples =
        saver.checkpointIntervalSamples ∧
      (saver.saveAndClear dir SaveOutcome.ok).2.1.channels = saver.channels := by
  have hok : (saver.saveCheckpoint dir SaveOutcome.ok).1 = .ok () := by
    rw [saveCheckpoint]
    cases saver.checkpointBuffer.flatten.isEmpty <;> rfl
  rcases saver.saveCheckpoint_cases dir SaveOutcome.ok with
    ⟨message, dir', hsave, -⟩ | ⟨hempty, hsave⟩ | ⟨hfull, dir', hsave, hnew, hsame⟩
  · rw [hsave] at hok
    exact absurd hok (by simp)
  · rw [saveAndClear, hsave, withPart, if_pos hempty, List.append_nil]
    exact ⟨h.withBuffer [], rfl, rfl, rfl⟩
  · rw [saveAndClear, hsave, withPart, if_neg hfull]
    exact ⟨(h.snoc hnew hsame).withBuffer [], rfl, rfl, rfl⟩

/-- A whole recording without disk errors: the chunks one after the other, and the last save of
`finalize`. -/
def recordChunks (state : IncrementalAudioSaver × Directory) (chunks : List (List Sample)) :
    IncrementalAudioSaver × Directory :=
  let state := addChunks state (chunks.map fun chunk => (chunk, SaveOutcome.ok))
  (state.1.finalizeSave state.2 SaveOutcome.ok).2

/-- The checkpoints of a recording are its samples, in pieces of the lengths that the chunk
lengths determine. -/
theorem recordChunks_holds {saver : IncrementalAudioSaver} {dir : Directory}
    (h : Holds parts saver dir) (chunks : List (List Sample)) :
    ∃ parts', Holds parts' (recordChunks (saver, dir) chunks).1
        (recordChunks (saver, dir) chunks).2 ∧
      parts'.flatten = parts.flatten ++ saver.checkpointBuffer.flatten ++ chunks.flatten ∧
      parts'.map List.length = parts.map List.length ++
        checkpointLengths saver.checkpointIntervalSamples saver.checkpointBuffer.flatten.length
          (chunks.map List.length) ∧
      (recordChunks (saver, dir) chunks).1.channels = saver.channels := by
  induction chunks generalizing parts saver dir with
  | nil =>
    obtain ⟨hsaved, -, -, hchannels⟩ := saveAndClear_ok h
    by_cases hempty : saver.checkpointBuffer = []
    · have hskip : recordChunks (saver, dir) [] = (saver, dir) := by
        simp [recordChunks, addChunks, finalizeSave, hempty]
      rw [hskip]
      exact ⟨parts, h, by simp [hempty], by simp [hempty, checkpointLengths], rfl⟩
    · have hrecord : recordChunks (saver, dir) [] =
          (saver.saveAndClear dir SaveOutcome.ok).2 := by
        simp [recordChunks, addChunks, finalizeSave, hempty]
      rw [hrecord]
      refine ⟨_, hsaved, ?_, ?_, hchannels⟩
      · rw [flatten_withPart, List.flatten_nil, List.append_nil]
      · rw [map_length_withPart, List.map_nil, checkpointLengths]
  | cons chunk chunks ih =>
    have hgrown := h.withBuffer (saver.checkpointBuffer ++ [chunk])
    have hflat : (saver.checkpointBuffer ++ [chunk]).flatten =
        saver.checkpointBuffer.flatten ++ chunk := by simp
    have hsum : ((saver.checkpointBuffer ++ [chunk]).map List.length).sum =
        saver.checkpointBuffer.flatten.length + chunk.length := by
      rw [← List.length_flatten, hflat, List.length_append]
    have hstep : recordChunks (saver, dir) (chunk :: chunks) =
        recordChunks (saver.addChunk dir chunk SaveOutcome.ok).2 chunks := rfl
    rw [hstep, addChunk, hsum, List.map_cons, checkpointLengths]
    by_cases hfull : saver.checkpointIntervalSamples ≤
        saver.checkpointBuffer.flatten.length + chunk.length
    · obtain ⟨hsaved, hbuffer, hinterval, hchannels⟩ := saveAndClear_ok hgrown
      obtain ⟨parts', hparts', hflatten, hlengths, hchannels'⟩ := ih hsaved
      rw [if_pos hfull, if_pos hfull]
      refine ⟨parts', hparts', ?_, ?_, hchannels'.trans hchannels⟩
      · rw [hflatten, flatten_withPart, hbuffer, hflat]
        simp
      · rw [hlengths, map_length_withPart, hbuffer, hinterval, hflat, List.length_append,
          List.append_assoc]
        rfl
    · obtain ⟨parts', hparts', hflatten, hlengths, hchannels'⟩ := ih hgrown
      rw [if_neg hfull, if_neg hfull]
      refine ⟨parts', hparts', ?_, ?_, hchannels'⟩
      · rw [hflatten, hflat]
        simp
      · rw [hlengths, hflat, List.length_append]

/-! ## Finalizing -/

/-- The checkpoints directory and its files are read without errors, in some order and in some
pieces, and ffmpeg succeeds. -/
structure Succeeds (dir : Directory) (outcome : FinalizeOutcome) : Prop where
  /-- the directory is listed -/
  readDir : ∃ listing, outcome.readDir = .ok listing ∧ dir.Lists listing
  /-- each file is read to its end -/
  read : ∀ file bytes, dir file = some bytes → ReadsAs (outcome.read file) bytes
  /-- ffmpeg reports success -/
  exit : outcome.exit = .ok ()
  /-- and the encoded file is there -/
  output : outcome.outputExists = true

/-- **Round trip.** However the directory is listed and its files are read, what the encoder
gets are the whole frames of the samples received. -/
def RoundTrips (meetingFolder : String) (sampleRate channels : ℕ) (chunks : List (List Sample)) :
    Prop :=
  let state := recordChunks (fresh meetingFolder sampleRate channels) chunks
  ∀ outcome, Succeeds state.2 outcome →
    (state.1.finalizeMerge (meetingFolder ++ "/audio.mp4") outcome).1 =
      wholeFrames (frameBytes channels) (castSlice chunks.flatten)

theorem frameBytes_pos (channels : ℕ) : 0 < frameBytes channels := by
  rw [frameBytes]
  omega

/-- The bytes of a file, as far as it exists. -/
def contentOf (dir : Directory) (file : FileName) : List UInt8 := (dir file).getD []

theorem Holds.contentOf_eq (h : Holds parts saver dir) {i : ℕ} {part : List Sample}
    (hi : parts[i]? = some part) : contentOf dir (checkpointName i) = castSlice part := by
  rw [contentOf, h.file i part hi, Option.getD_some]

/-- What finalizing feeds to the encoder: the files in the order of the sorted listing. -/
theorem Holds.finalizeMerge_eq (h : Holds parts saver dir) {outcome : FinalizeOutcome}
    (hok : Succeeds dir outcome) (output : String) :
    ∃ files, files.Perm ((List.range parts.length).map checkpointName) ∧
      files.Pairwise (fun a b => a ≤ b) ∧
      (parts.length ≤ 1000 → files = (List.range parts.length).map checkpointName) ∧
      (saver.finalizeMerge output outcome).1 =
        wholeFrames (frameBytes saver.channels) (files.flatMap (contentOf dir)) := by
  obtain ⟨listing, hread, hlist⟩ := hok.readDir
  have hperm := h.listing_perm hlist
  rw [h.count] at hperm
  have hsorted : (listCheckpointFiles listing checkpointExtension).Pairwise fun a b => a ≤ b :=
    Directory.pairwise_mergeSort _
  have hfiles : (listCheckpointFiles listing checkpointExtension).Perm
      ((List.range parts.length).map checkpointName) := (List.mergeSort_perm _ _).trans hperm
  refine ⟨listCheckpointFiles listing checkpointExtension, hfiles, hsorted, fun hle => ?_, ?_⟩
  · exact Directory.mergeSort_eq hperm (pairwise_checkpointName hle)
  · generalize hgen : listCheckpointFiles listing checkpointExtension = files at hfiles
    have hreads : List.Forall₂ ReadsAs (files.map outcome.read) (files.map (contentOf dir)) := by
      rw [List.forall₂_map_left_iff, List.forall₂_map_right_iff, List.forall₂_same]
      intro file hfile
      obtain ⟨i, hi, rfl⟩ := List.mem_map.mp (hfiles.subset hfile)
      have hpart := List.getElem?_eq_getElem (List.mem_range.mp hi)
      rw [h.contentOf_eq hpart]
      exact hok.read _ _ (h.file i _ hpart)
    have hfeed := feedFiles_eq (feeding_nil (frameBytes_pos saver.channels)) hreads
    rw [List.nil_append, ← List.flatMap_def] at hfeed
    rcases List.eq_nil_or_concat parts with rfl | ⟨init, last, rfl⟩
    · -- nothing was saved, nothing is fed
      obtain rfl : files = [] := by simpa using hfiles
      rw [finalizeMerge, h.count]
      rfl
    · have hcount : saver.checkpointCount ≠ 0 := by
        rw [h.count]
        simp
      have hne : files ≠ [] := by
        rintro rfl
        have := hfiles.length_eq
        simp at this
      have hinputs : (files.map outcome.read).isEmpty = false := by simpa using hne
      have hempty : files.isEmpty = false := by simpa using hne
      simp only [finalizeMerge, if_neg hcount, encodeCheckpoints, hread, hgen, hempty,
        Bool.false_eq_true, if_false, encodePcmFilesToAac, hinputs, hfeed, hok.exit]

theorem castSlice_append (xs ys : List Sample) :
    castSlice (xs ++ ys) = castSlice xs ++ castSlice ys := List.flatMap_append

theorem castSlice_flatten (parts : List (List Sample)) :
    castSlice parts.flatten = parts.flatMap castSlice := by
  induction parts with
  | nil => rfl
  | cons part parts ih => rw [List.flatten_cons, castSlice_append, ih, List.flatMap_cons]

/-- The first files in index order hold the first parts in order. -/
theorem Holds.flatMap_contentOf (h : Holds parts saver dir) {k : ℕ} (hk : k ≤ parts.length) :
    ((List.range k).map checkpointName).flatMap (contentOf dir) =
      castSlice (parts.take k).flatten := by
  have hpart : ∀ i ∈ List.range k, contentOf dir (checkpointName i) =
      castSlice ((parts[i]?).getD []) := by
    intro i hi
    have hget := List.getElem?_eq_getElem (lt_of_lt_of_le (List.mem_range.mp hi) hk)
    rw [h.contentOf_eq hget, hget, Option.getD_some]
  rw [List.flatMap_map, List.flatMap_congr hpart, castSlice_flatten, ← map_range_getD hk,
    List.flatMap_map]

/-- The checkpoints of a recording from the start. -/
theorem recordChunks_fresh (meetingFolder : String) (sampleRate channels : ℕ)
    (chunks : List (List Sample)) :
    let state := recordChunks (fresh meetingFolder sampleRate channels) chunks
    ∃ parts, Holds parts state.1 state.2 ∧ parts.flatten = chunks.flatten ∧
      parts.map List.length =
        checkpointLengths (sampleRate * 30 * channels) 0 (chunks.map List.length) ∧
      state.1.channels = channels := by
  obtain ⟨parts, hparts, hflatten, hlengths, hchannels⟩ :=
    recordChunks_holds (holds_fresh meetingFolder sampleRate channels) chunks
  exact ⟨parts, hparts, hflatten, hlengths, hchannels⟩

/-- **At most a thousand checkpoints survive.** -/
theorem roundTrips_of_le {meetingFolder : String} {sampleRate channels : ℕ}
    {chunks : List (List Sample)}
    (hle : (checkpointLengths (sampleRate * 30 * channels) 0
      (chunks.map List.length)).length ≤ 1000) :
    RoundTrips meetingFolder sampleRate channels chunks := by
  obtain ⟨parts, hparts, hflatten, hlengths, hchannels⟩ :=
    recordChunks_fresh meetingFolder sampleRate channels chunks
  intro outcome hok
  obtain ⟨files, -, -, hfiles, hfed⟩ := hparts.finalizeMerge_eq hok (meetingFolder ++ "/audio.mp4")
  have hcount : parts.length ≤ 1000 := by
    rw [← List.length_map List.length, hlengths]
    exact hle
  rw [hfed, hfiles hcount, hparts.flatMap_contentOf (le_refl _), List.take_length, hflatten,
    hchannels]

/-! ## More than a thousand checkpoints -/

/-- Silent checkpoints of the given lengths, but for one: its first sample is not zero. -/
def markedParts (lengths : List ℕ) (marked : ℕ) : List (List Sample) :=
  (lengths.map fun n => List.replicate n 0).modify marked fun part => 1 :: part.drop 1

/-- Silence takes no byte but zero. -/
theorem castSlice_replicate (n : ℕ) : castSlice (List.replicate n 0) = List.replicate (4 * n) 0 := by
  induction n with
  | zero => rfl
  | succ n ih =>
    rw [List.replicate_succ, castSlice, List.flatMap_cons, ← castSlice, ih, Nat.mul_succ,
      Nat.add_comm (4 * n), List.replicate_add]
    rfl

theorem length_castSlice (samples : List Sample) :
    (castSlice samples).length = 4 * samples.length := by
  induction samples with
  | nil => rfl
  | cons s samples ih =>
    rw [castSlice, List.flatMap_cons, ← castSlice, List.length_append, ih, List.length_cons]
    show 4 + 4 * samples.length = _
    omega

theorem getElem?_markedParts_of_ne {lengths : List ℕ} {marked i : ℕ} (h : i ≠ marked) :
    (markedParts lengths marked)[i]? = (lengths[i]?).map fun n => List.replicate n 0 := by
  rw [markedParts, List.getElem?_modify_ne _ _ (Ne.symm h), List.getElem?_map]

theorem getElem?_markedParts_self {lengths : List ℕ} {marked n : ℕ}
    (h : lengths[marked]? = some n) :
    (markedParts lengths marked)[marked]? = some (1 :: List.replicate (n - 1) 0) := by
  rw [markedParts, List.getElem?_modify_eq, List.getElem?_map, h]
  simp

theorem map_length_markedParts {lengths : List ℕ} (hpos : ∀ n ∈ lengths, 0 < n) (marked : ℕ) :
    (markedParts lengths marked).map List.length = lengths := by
  apply List.ext_getElem?
  intro i
  rw [List.getElem?_map]
  by_cases h : i = marked
  · subst h
    rcases hn : lengths[i]? with _ | n
    · simp [markedParts, hn]
    · have := hpos n (List.mem_of_getElem? hn)
      rw [getElem?_markedParts_self hn, Option.map_some, List.length_cons, List.length_replicate,
        Nat.sub_add_cancel this]
  · rw [getElem?_markedParts_of_ne h]
    cases lengths[i]? <;> simp

theorem sum_checkpointLengths (interval pending : ℕ) (lengths : List ℕ) :
    (checkpointLengths interval pending lengths).sum = pending + lengths.sum := by
  induction lengths generalizing pending with
  | nil =>
    rw [checkpointLengths]
    split_ifs with h <;> simp [h]
  | cons n lengths ih =>
    rw [checkpointLengths]
    split_ifs with hfull hzero
    · rw [List.nil_append, ih, List.sum_cons]
      omega
    · rw [List.sum_append, List.sum_singleton, ih, List.sum_cons]
      omega
    · rw [ih, List.sum_cons, Nat.add_assoc]

/-- Chunks of the given lengths that make the marked checkpoints. -/
theorem exists_marked_chunks (interval : ℕ) (lengths : List ℕ) (marked : ℕ) :
    ∃ chunks : List (List Sample), chunks.map List.length = lengths ∧
      chunks.flatten = (markedParts (checkpointLengths interval 0 lengths) marked).flatten := by
  have hpos : ∀ n ∈ checkpointLengths interval 0 lengths, 0 < n :=
    fun n hn => pos_of_mem_checkpointLengths hn
  have hlen := map_length_markedParts hpos marked
  have hsum : (markedParts (checkpointLengths interval 0 lengths) marked).flatten.length =
      lengths.sum := by
    rw [List.length_flatten, hlen, sum_checkpointLengths, Nat.zero_add]
  refine ⟨lengths.splitLengths
    (markedParts (checkpointLengths interval 0 lengths) marked).flatten, ?_, ?_⟩
  · exact List.map_splitLengths_length _ _ hsum.ge
  · exact List.flatten_splitLengths _ _ hsum.le

/-- A finite directory can be listed and read. -/
theorem Holds.exists_succeeds (h : Holds parts saver dir) : ∃ outcome, Succeeds dir outcome := by
  obtain ⟨listing, hlist⟩ := h.listed
  refine ⟨⟨.ok listing, fun file => ⟨[contentOf dir file].filter (· ≠ []), none⟩, .ok (), true⟩,
    ⟨listing, rfl, hlist⟩, fun file bytes hfile => ?_, rfl, rfl⟩
  have hcontent : contentOf dir file = bytes := by rw [contentOf, hfile, Option.getD_some]
  refine ⟨rfl, ?_, fun read hread => ?_⟩
  · by_cases hnil : bytes = [] <;> simp [hcontent, hnil]
  · simpa using (List.mem_filter.mp hread).2

/-- What is sorted before a checkpoint is fed before it. -/
theorem mem_before {files before after : List FileName} {file file' : FileName}
    (hsorted : files.Pairwise fun a b => a ≤ b) (hsplit : files = before ++ file :: after)
    (hmem : file' ∈ files) (hlt : file' < file) : file' ∈ before := by
  rw [hsplit] at hsorted hmem
  rcases List.mem_append.mp hmem with hbefore | hafter
  · exact hbefore
  · rcases List.mem_cons.mp hafter with rfl | hafter
    · exact absurd hlt (lt_irrefl _)
    · have hle := (List.pairwise_cons.mp (List.pairwise_append.mp hsorted).2.1).1 file' hafter
      exact absurd hlt (not_lt.mpr hle)

/-- The bytes of different files of a list are no more than the bytes of the list. -/
theorem length_flatMap_le_of_subset {files files' : List FileName} (hnodup : files.Nodup)
    (hsub : files ⊆ files') (f : FileName → List UInt8) :
    (files.flatMap f).length ≤ (files'.flatMap f).length := by
  obtain ⟨mid, hperm, hsublist⟩ := hnodup.subperm hsub
  rw [← (hperm.flatMap_right f).length_eq]
  exact (hsublist.flatMap f).length_le

/-- Where the mark is among the samples. -/
theorem markedParts_flatten {lengths : List ℕ} {marked n : ℕ} (hn : lengths[marked]? = some n) :
    ∃ rest, (markedParts lengths marked).flatten =
        ((markedParts lengths marked).take marked).flatten ++ 1 :: rest ∧ n ≤ rest.length + 1 := by
  have hget := getElem?_markedParts_self hn
  obtain ⟨hlt, hval⟩ := List.getElem?_eq_some_iff.mp hget
  refine ⟨List.replicate (n - 1) 0 ++ ((markedParts lengths marked).drop (marked + 1)).flatten,
    ?_, by simp; omega⟩
  conv_lhs => rw [← List.take_append_drop marked (markedParts lengths marked),
    List.drop_eq_getElem_cons hlt, hval]
  simp

/-- Files whose names sort before the marked one, and are not it, take only zero bytes. -/
theorem Holds.zero_of_ne {lengths : List ℕ} {marked : ℕ}
    (h : Holds (markedParts lengths marked) saver dir) {files : List FileName}
    (hfiles : ∀ file ∈ files, ∃ i < (markedParts lengths marked).length, file = checkpointName i)
    (hne : checkpointName marked ∉ files) : ∀ b ∈ files.flatMap (contentOf dir), b = 0 := by
  intro b hb
  obtain ⟨file, hfile, hb⟩ := List.mem_flatMap.mp hb
  obtain ⟨i, hi, rfl⟩ := hfiles file hfile
  have him : i ≠ marked := by
    rintro rfl
    exact hne hfile
  have hget := List.getElem?_eq_getElem hi
  rw [h.contentOf_eq hget] at hb
  rw [getElem?_markedParts_of_ne him] at hget
  obtain ⟨n, -, hpart⟩ := Option.map_eq_some_iff.mp hget
  rw [← hpart, castSlice_replicate] at hb
  exact List.eq_of_mem_replicate hb

/-- The marked checkpoint is fed too late: the thousand-and-first one comes first. -/
theorem Holds.marked_late {lengths : List ℕ} (h : Holds (markedParts lengths 101) saver dir)
    (hpos : ∀ n ∈ lengths, 0 < n) (hlt : 1000 < lengths.length) {files : List FileName}
    (hperm : files.Perm ((List.range (markedParts lengths 101).length).map checkpointName))
    (hsorted : files.Pairwise fun a b => a ≤ b) :
    ∃ zeros rest, files.flatMap (contentOf dir) = zeros ++ rest ∧ (∀ b ∈ zeros, b = 0) ∧
      4 * ((markedParts lengths 101).take 101).flatten.length < zeros.length := by
  have hcount : (markedParts lengths 101).length = lengths.length := by
    rw [← List.length_map List.length, map_length_markedParts hpos]
  have hmem : ∀ i < lengths.length, checkpointName i ∈ files := fun i hi =>
    hperm.symm.subset (List.mem_map_of_mem (List.mem_range.mpr (by rwa [hcount])))
  have hnodup : files.Nodup := hperm.symm.nodup (List.nodup_range.map checkpointName_injective)
  obtain ⟨before, after, hsplit⟩ := List.append_of_mem (hmem 101 (by omega))
  refine ⟨before.flatMap (contentOf dir), (checkpointName 101 :: after).flatMap (contentOf dir),
    by rw [hsplit, List.flatMap_append], h.zero_of_ne (fun file hfile => ?_) fun hin => ?_, ?_⟩
  · have := hperm.subset (hsplit ▸ List.mem_append_left _ hfile)
    obtain ⟨i, hi, rfl⟩ := List.mem_map.mp this
    exact ⟨i, List.mem_range.mp hi, rfl⟩
  · rw [hsplit] at hnodup
    exact (List.nodup_append.mp hnodup).2.2 _ hin _ List.mem_cons_self rfl
  · -- the first 101 files and the thousand-and-first come before it
    have hsub : (List.range 101 ++ [1000]).map checkpointName ⊆ before := by
      intro file hfile
      obtain ⟨i, hi, rfl⟩ := List.mem_map.mp hfile
      rw [List.mem_append, List.mem_range, List.mem_singleton] at hi
      refine mem_before hsorted hsplit (hmem i (by omega)) ?_
      rcases hi with hi | rfl
      · exact checkpointName_lt hi (by norm_num)
      · exact checkpointName_1000_lt
    have hfirst : ((List.range 101 ++ [1000]).map checkpointName).Nodup :=
      List.Nodup.map checkpointName_injective (by decide +kernel)
    have hle := length_flatMap_le_of_subset hfirst hsub (contentOf dir)
    refine lt_of_lt_of_le ?_ hle
    have htake := h.flatMap_contentOf (show 101 ≤ (markedParts lengths 101).length by omega)
    have hlast : 0 < (contentOf dir (checkpointName 1000)).length := by
      have hget := List.getElem?_eq_getElem hlt
      have hpart : (markedParts lengths 101)[1000]? =
          some (List.replicate lengths[1000] 0) := by
        rw [getElem?_markedParts_of_ne (by norm_num), hget, Option.map_some]
      rw [h.contentOf_eq hpart, length_castSlice, List.length_replicate]
      have := hpos _ (List.mem_of_getElem? hget)
      omega
    rw [List.map_append, List.flatMap_append, List.length_append, htake, length_castSlice,
      List.map_singleton, List.flatMap_singleton]
    omega

/-- A byte that is not zero, followed by a frame at least, does not come out of a late stream. -/
theorem wholeFrames_ne {frame m : ℕ} {zeros rest bytes : List UInt8} (hframe : 0 < frame)
    (hzero : ∀ b ∈ zeros, b = 0) (hlen : m < zeros.length) (hone : bytes[m]? = some 1)
    (hroom : m + frame ≤ bytes.length) :
    wholeFrames frame (zeros ++ rest) ≠ wholeFrames frame bytes := by
  intro heq
  have hmod := Nat.mod_lt bytes.length hframe
  have hat := congrArg (·[m]?) heq
  simp only [wholeFrames, List.getElem?_take] at hat
  rw [if_pos (show m < bytes.length - bytes.length % frame by omega), hone] at hat
  split_ifs at hat
  rw [List.getElem?_append_left hlen] at hat
  exact absurd (hzero 1 (List.mem_of_getElem? hat)) (by decide)

/-- **More than a thousand checkpoints do not survive**: a mark in the hundred-and-second comes
back too late. -/
theorem not_roundTrips_of_marked {meetingFolder : String} {sampleRate channels : ℕ}
    (hrate : 0 < sampleRate) {chunks : List (List Sample)}
    (hlt : 1000 < (checkpointLengths (sampleRate * 30 * channels) 0
      (chunks.map List.length)).length)
    (hmarked : chunks.flatten = (markedParts (checkpointLengths (sampleRate * 30 * channels) 0
      (chunks.map List.length)) 101).flatten) :
    ¬ RoundTrips meetingFolder sampleRate channels chunks := by
  intro hround
  obtain ⟨parts, hparts, hflatten, hlengths, hchannels⟩ :=
    recordChunks_fresh meetingFolder sampleRate channels chunks
  have hlong : ∀ n, (checkpointLengths (sampleRate * 30 * channels) 0
      (chunks.map List.length))[101]? = some n → max channels 1 ≤ n := by
    intro n hn
    have hinterval := interval_le_checkpointLengths hn (by omega)
    have hn' := pos_of_mem_checkpointLengths (List.mem_of_getElem? hn)
    have hchannel : channels ≤ sampleRate * 30 * channels :=
      Nat.le_mul_of_pos_left channels (by omega)
    omega
  have hpos : ∀ n ∈ checkpointLengths (sampleRate * 30 * channels) 0 (chunks.map List.length),
      0 < n := fun n hn => pos_of_mem_checkpointLengths hn
  generalize checkpointLengths (sampleRate * 30 * channels) 0 (chunks.map List.length) =
    lengths at *
  obtain rfl : parts = markedParts lengths 101 := List.eq_iff_flatten_eq.mpr
    ⟨hflatten.trans hmarked, hlengths.trans (map_length_markedParts hpos 101).symm⟩
  obtain ⟨outcome, hok⟩ := hparts.exists_succeeds
  obtain ⟨files, hperm, hsorted, -, hfed⟩ :=
    hparts.finalizeMerge_eq hok (meetingFolder ++ "/audio.mp4")
  have hequal := hround outcome hok
  rw [hfed, hchannels, hmarked] at hequal
  obtain ⟨zeros, rest, hstream, hzero, hlate⟩ := hparts.marked_late hpos hlt hperm hsorted
  obtain ⟨tail, hmark, hroom⟩ :=
    markedParts_flatten (List.getElem?_eq_getElem (show 101 < lengths.length by omega))
  have hlong' := hlong _ (List.getElem?_eq_getElem (show 101 < lengths.length by omega))
  rw [hstream, hmark] at hequal
  refine wholeFrames_ne (frameBytes_pos channels) hzero hlate ?_ ?_ hequal
  · rw [castSlice_append, List.getElem?_append_right (by rw [length_castSlice]), length_castSlice,
      Nat.sub_self]
    rfl
  · rw [length_castSlice, List.length_append, List.length_cons, frameBytes]
    omega

/-- Chunks of exactly the interval make a checkpoint each. -/
theorem checkpointLengths_replicate {interval : ℕ} (hpos : 0 < interval) (n : ℕ) :
    checkpointLengths interval 0 (List.replicate n interval) = List.replicate n interval := by
  induction n with
  | zero => rfl
  | succ n ih =>
    rw [List.replicate_succ, checkpointLengths, if_pos (by omega), if_neg (by omega), ih,
      Nat.zero_add]
    rfl

/-- **When recordings survive.** Recordings with given chunk lengths come back to the encoder
as they were received, whatever their samples, if and only if they make at most a thousand
checkpoints. -/
theorem roundTrips_iff (meetingFolder : String) {sampleRate : ℕ} (hrate : 0 < sampleRate)
    (channels : ℕ) (chunks : List (List Sample)) :
    (∀ chunks' : List (List Sample), chunks'.map List.length = chunks.map List.length →
        RoundTrips meetingFolder sampleRate channels chunks') ↔
      (checkpointLengths (sampleRate * 30 * channels) 0 (chunks.map List.length)).length ≤
        1000 := by
  constructor
  · intro hall
    by_contra hlt
    obtain ⟨chunks', hsame, hmarked⟩ :=
      exists_marked_chunks (sampleRate * 30 * channels) (chunks.map List.length) 101
    refine not_roundTrips_of_marked hrate ?_ ?_ (hall chunks' hsame)
    · rw [hsame]
      exact not_le.mp hlt
    · rw [hsame, hmarked]
  · intro hle chunks' hsame
    exact roundTrips_of_le (by rwa [hsame])

/-- One stereo frame survives. -/
theorem roundTrips_one_frame : RoundTrips "meeting" 48000 2 [[0, 1]] :=
  (roundTrips_iff "meeting" (by norm_num) 2 [[0, 1]]).mpr (by decide) [[0, 1]] rfl

/-- 1001 chunks of 30 s, silent but for one sample at the start of the 102nd, do not survive. -/
theorem not_roundTrips_eight_hours :
    ¬ RoundTrips "meeting" 48000 2 (markedParts (List.replicate 1001 2880000) 101) := by
  have hpos : ∀ n ∈ List.replicate 1001 2880000, 0 < n := by
    intro n hn
    rw [List.eq_of_mem_replicate hn]
    norm_num
  have hlengths : checkpointLengths (48000 * 30 * 2) 0
      ((markedParts (List.replicate 1001 2880000) 101).map List.length) =
        List.replicate 1001 2880000 := by
    rw [map_length_markedParts hpos]
    exact checkpointLengths_replicate (by norm_num) 1001
  refine not_roundTrips_of_marked (by norm_num) ?_ ?_
  · rw [hlengths, List.length_replicate]
    norm_num
  · rw [hlengths]

end IncrementalAudioSaver

end MeetilyLocal
