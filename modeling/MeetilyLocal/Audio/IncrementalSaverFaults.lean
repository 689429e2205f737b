import MeetilyLocal.Audio.IncrementalSaver
import Mathlib.Tactic

/-!
# Disk errors lose no audio

The samples received so far are always the finished checkpoints, in index order, followed by the
buffer (`IncrementalAudioSaver.Holds`). A checkpoint is written under a name that is not listed
and only then renamed; the buffer is cleared and the count bumped only when both succeeded. So a
failed checkpoint leaves everything as it was, up to a partial file that nothing reads, and the
next call retries the same data under the same name.

The headline is `addChunks_lossless`, for every sequence of calls and every pattern of failures.
-/

namespace MeetilyLocal

/-! ## Names -/

theorem checkpointStem_ne_nil (n : ℕ) : checkpointStem n ≠ [] := by
  simp [checkpointStem, checkpointPrefix]

theorem fileStem_checkpointName (n : ℕ) : (checkpointName n).fileStem = some (checkpointStem n) :=
  FileName.fileStem_append (checkpointStem_ne_nil n) (by decide) (by decide)

theorem partialName_eq (n : ℕ) :
    partialName n =
      (checkpointStem n ++ '.' :: checkpointExtension) ++ '.' :: ['p', 'a', 'r', 't'] := by
  rw [partialName, FileName.withExtension, fileStem_checkpointName, Option.getD_some,
    List.append_assoc]
  rfl

/-- Different checkpoints have different names. -/
theorem checkpointName_injective : Function.Injective checkpointName := by
  intro m n h
  have hstem : checkpointStem m = checkpointStem n := by
    have := congrArg FileName.fileStem h
    simpa only [fileStem_checkpointName, Option.some.injEq] using this
  exact Decimal.padded_injective 3 (List.append_cancel_left hstem)

theorem isCheckpointFile_checkpointName (n : ℕ) :
    isCheckpointFile checkpointExtension (checkpointName n) = true := by
  have hext : (checkpointName n).extension = some checkpointExtension :=
    FileName.extension_append (checkpointStem_ne_nil n) (by decide) (by decide)
  rw [isCheckpointFile, hext, fileStem_checkpointName]
  simp [checkpointStem]

/-- A checkpoint that is being written is not listed. -/
theorem isCheckpointFile_partialName (n : ℕ) :
    isCheckpointFile checkpointExtension (partialName n) = false := by
  have hext : (partialName n).extension = some ['p', 'a', 'r', 't'] := by
    rw [partialName_eq]
    exact FileName.extension_append (by simp) (by decide) (by decide)
  rw [isCheckpointFile, hext]
  rfl

theorem checkpointName_ne_partialName (m n : ℕ) : checkpointName m ≠ partialName n := by
  intro h
  have := isCheckpointFile_checkpointName m
  rw [h, isCheckpointFile_partialName] at this
  exact absurd this nofun

/-! ## Bytes and samples -/

/-- The sample with the given little-endian bytes. -/
def Sample.ofBytes (a b c d : UInt8) : Sample :=
  UInt32.ofNat (a.toNat + 256 * b.toNat + 65536 * c.toNat + 16777216 * d.toNat)

/-- The samples in a file's bytes. -/
def readSamples : List UInt8 → List Sample
  | a :: b :: c :: d :: bytes => Sample.ofBytes a b c d :: readSamples bytes
  | _ => []

theorem Sample.ofBytes_bytes (s : Sample) :
    Sample.ofBytes s.toUInt8 (s >>> 8).toUInt8 (s >>> 16).toUInt8 (s >>> 24).toUInt8 = s := by
  have hlt := s.toNat_lt
  apply UInt32.toNat_inj.mp
  simp only [Sample.ofBytes, UInt32.toNat_ofNat', UInt32.toNat_toUInt8, UInt32.toNat_shiftRight]
  simp only [Nat.shiftRight_eq_div_pow, UInt32.toNat_ofNat, Nat.reduceMod, Nat.reducePow]
  omega

theorem readSamples_castSlice (samples : List Sample) :
    readSamples (castSlice samples) = samples := by
  induction samples with
  | nil => rfl
  | cons s samples ih =>
    rw [castSlice, List.flatMap_cons, ← castSlice]
    show Sample.ofBytes _ _ _ _ :: readSamples (castSlice samples) = s :: samples
    rw [ih, Sample.ofBytes_bytes]

namespace IncrementalAudioSaver

/-! ## One checkpoint -/

/-- Everything `save_checkpoint` can do: fail and leave at most a partial file behind, skip an
empty buffer, or add the next checkpoint. -/
theorem saveCheckpoint_cases (saver : IncrementalAudioSaver) (dir : Directory)
    (outcome : SaveOutcome) :
    (∃ message dir', saver.saveCheckpoint dir outcome = (.error message, saver, dir') ∧
      ∀ file, file ≠ partialName saver.checkpointCount → dir' file = dir file) ∨
    (saver.checkpointBuffer.flatten = [] ∧
      saver.saveCheckpoint dir outcome = (.ok (), saver, dir)) ∨
    (saver.checkpointBuffer.flatten ≠ [] ∧ ∃ dir', saver.saveCheckpoint dir outcome =
        (.ok (), { saver with checkpointCount := saver.checkpointCount + 1 }, dir') ∧
      dir' (checkpointName saver.checkpointCount) =
        some (castSlice saver.checkpointBuffer.flatten) ∧
      ∀ file, file ≠ checkpointName saver.checkpointCount →
        file ≠ partialName saver.checkpointCount → dir' file = dir file) := by
  rcases outcome with ⟨write, rename⟩
  by_cases hempty : saver.checkpointBuffer.flatten = []
  · exact Or.inr (Or.inl ⟨hempty, by rw [saveCheckpoint, hempty]; rfl⟩)
  have hfull : saver.checkpointBuffer.flatten.isEmpty = false := by simpa using hempty
  have hne := checkpointName_ne_partialName saver.checkpointCount saver.checkpointCount
  rcases write with _ | ⟨message, left⟩
  · rcases rename with _ | message
    · refine Or.inr (Or.inr ⟨hempty, ((dir.write (partialName saver.checkpointCount)
        (castSlice saver.checkpointBuffer.flatten) .ok).2.rename
          (partialName saver.checkpointCount) (checkpointName saver.checkpointCount) .ok).2,
        ?_, ?_, ?_⟩)
      · rw [saveCheckpoint, hfull]
        rfl
      · simp only [Directory.rename, Directory.write]
        rw [Function.update_of_ne hne, Function.update_self, Function.update_self]
      · intro file hname hpart
        simp only [Directory.rename, Directory.write]
        rw [Function.update_of_ne hpart, Function.update_of_ne hname,
          Function.update_of_ne hpart]
    · refine Or.inl ⟨message, (dir.write (partialName saver.checkpointCount)
        (castSlice saver.checkpointBuffer.flatten) .ok).2, ?_, fun file hfile =>
          Directory.write_of_ne hfile _ _⟩
      rw [saveCheckpoint, hfull]
      rfl
  · refine Or.inl ⟨message, (dir.write (partialName saver.checkpointCount)
      (castSlice saver.checkpointBuffer.flatten) (.failed message left)).2, ?_, fun file hfile =>
        Directory.write_of_ne hfile _ _⟩
    rw [saveCheckpoint, hfull]
    cases left <;> rfl

/-- The finished checkpoints hold `parts`, and there are no others. -/
structure Holds (parts : List (List Sample)) (saver : IncrementalAudioSaver) (dir : Directory) :
    Prop where
  /-- as many as were counted -/
  count : saver.checkpointCount = parts.length
  /-- the file of each index holds the part of that index -/
  file : ∀ i part, parts[i]? = some part → dir (checkpointName i) = some (castSlice part)
  /-- any other file is not a checkpoint -/
  only : ∀ file, isCheckpointFile checkpointExtension file = true → dir file ≠ none →
    ∃ i < parts.length, file = checkpointName i
  /-- there are finitely many files -/
  listed : ∃ listing, dir.Lists listing

variable {parts : List (List Sample)} {saver : IncrementalAudioSaver} {dir : Directory}

theorem holds_fresh (meetingFolder : String) (sampleRate channels : ℕ) :
    Holds [] (fresh meetingFolder sampleRate channels).1
      (fresh meetingFolder sampleRate channels).2 := by
  refine ⟨rfl, fun i part h => absurd h nofun, fun file hfile hdir => ?_, ?_⟩
  · by_cases hformat : file = checkpointFormatFile
    · subst hformat
      exact absurd hfile (by decide)
    · have hnone : (fresh meetingFolder sampleRate channels).2 file = none :=
        Directory.write_of_ne hformat _ .ok
      exact absurd hnone hdir
  · have hempty : ∃ listing, Directory.empty.Lists listing :=
      ⟨[], List.nodup_nil, fun file => by simp [Directory.empty]⟩
    exact Directory.exists_lists_of_agree hempty [checkpointFormatFile] fun file hfile =>
      Directory.write_of_ne (by simpa using hfile) _ .ok

/-- What is not a checkpoint file may change. -/
theorem Holds.congr {dir' : Directory} (h : Holds parts saver dir)
    (hsame : ∀ file, file ≠ partialName saver.checkpointCount → dir' file = dir file) :
    Holds parts saver dir' := by
  refine ⟨h.count, fun i part hi => ?_, fun file hfile hdir => ?_,
    Directory.exists_lists_of_agree h.listed [partialName saver.checkpointCount]
      fun file hfile => hsame file (by simpa using hfile)⟩
  · rw [hsame _ (checkpointName_ne_partialName i _)]
    exact h.file i part hi
  · have hpart : file ≠ partialName saver.checkpointCount := by
      rintro rfl
      rw [isCheckpointFile_partialName] at hfile
      exact absurd hfile nofun
    rw [hsame _ hpart] at hdir
    exact h.only file hfile hdir

/-- The next checkpoint file adds its part at the end. -/
theorem Holds.snoc {dir' : Directory} (h : Holds parts saver dir) {part : List Sample}
    (hnew : dir' (checkpointName saver.checkpointCount) = some (castSlice part))
    (hsame : ∀ file, file ≠ checkpointName saver.checkpointCount →
      file ≠ partialName saver.checkpointCount → dir' file = dir file) :
    Holds (parts ++ [part]) { saver with checkpointCount := saver.checkpointCount + 1 } dir' := by
  refine ⟨by simp [h.count], fun i part' hi => ?_, fun file hfile hdir => ?_,
    Directory.exists_lists_of_agree h.listed
      [checkpointName saver.checkpointCount, partialName saver.checkpointCount] fun file hfile => by
        rw [List.mem_cons, List.mem_singleton, not_or] at hfile
        exact hsame file hfile.1 hfile.2⟩
  · rcases lt_or_ge i parts.length with hlt | hge
    · rw [List.getElem?_append_left hlt] at hi
      have hname : checkpointName i ≠ checkpointName saver.checkpointCount := fun heq => by
        rw [h.count] at heq
        exact hlt.ne (checkpointName_injective heq)
      rw [hsame _ hname (checkpointName_ne_partialName i _)]
      exact h.file i part' hi
    · rw [List.getElem?_append_right hge] at hi
      obtain ⟨hlt, hpart⟩ := List.getElem?_eq_some_iff.mp hi
      rw [List.length_singleton] at hlt
      obtain rfl : i = saver.checkpointCount := by
        rw [h.count]
        omega
      rw [hnew, ← hpart, List.getElem_singleton]
  · by_cases hname : file = checkpointName saver.checkpointCount
    · exact ⟨parts.length, by simp, by rw [hname, h.count]⟩
    · have hpart : file ≠ partialName saver.checkpointCount := by
        rintro rfl
        rw [isCheckpointFile_partialName] at hfile
        exact absurd hfile nofun
      rw [hsame _ hname hpart] at hdir
      obtain ⟨i, hi, rfl⟩ := h.only file hfile hdir
      exact ⟨i, by rw [List.length_append]; omega, rfl⟩

/-- Another buffer changes nothing about the files. -/
theorem Holds.withBuffer (h : Holds parts saver dir) (buffer : List (List Sample)) :
    Holds parts { saver with checkpointBuffer := buffer } dir :=
  ⟨h.count, h.file, h.only, h.listed⟩

/-- The files that are listed are the checkpoints, each once. -/
theorem Holds.listing_perm (h : Holds parts saver dir) {listing : List FileName}
    (hlist : dir.Lists listing) :
    (listing.filter (isCheckpointFile checkpointExtension)).Perm
      ((List.range saver.checkpointCount).map checkpointName) := by
  refine (List.perm_ext_iff_of_nodup (hlist.nodup.filter _)
    (List.nodup_range.map checkpointName_injective)).mpr fun file => ?_
  rw [List.mem_filter, hlist.mem_iff, List.mem_map, h.count]
  constructor
  · rintro ⟨hdir, hfile⟩
    obtain ⟨i, hi, rfl⟩ := h.only file hfile hdir
    exact ⟨i, List.mem_range.mpr hi, rfl⟩
  · rintro ⟨i, hi, rfl⟩
    have hpart := h.file i _ (List.getElem?_eq_getElem (List.mem_range.mp hi))
    exact ⟨by rw [hpart]; exact Option.some_ne_none _, isCheckpointFile_checkpointName i⟩

/-! ## Calls -/

/-- Saving and clearing moves the buffer into the files, or leaves both. -/
theorem saveAndClear_holds (h : Holds parts saver dir) (outcome : SaveOutcome) :
    ∃ parts', Holds parts' (saver.saveAndClear dir outcome).2.1
        (saver.saveAndClear dir outcome).2.2 ∧
      parts'.flatten ++ (saver.saveAndClear dir outcome).2.1.checkpointBuffer.flatten =
        parts.flatten ++ saver.checkpointBuffer.flatten := by
  rcases saver.saveCheckpoint_cases dir outcome with
    ⟨message, dir', hsave, hsame⟩ | ⟨hempty, hsave⟩ | ⟨-, dir', hsave, hnew, hsame⟩
  · rw [saveAndClear, hsave]
    exact ⟨parts, h.congr hsame, rfl⟩
  · rw [saveAndClear, hsave]
    refine ⟨parts, h.withBuffer [], ?_⟩
    rw [hempty]
    rfl
  · rw [saveAndClear, hsave]
    refine ⟨parts ++ [saver.checkpointBuffer.flatten], (h.snoc hnew hsame).withBuffer [], ?_⟩
    simp

/-- One chunk is received, whatever the disk does. -/
theorem addChunk_holds (h : Holds parts saver dir) (chunk : List Sample)
    (outcome : SaveOutcome) :
    ∃ parts', Holds parts' (saver.addChunk dir chunk outcome).2.1
        (saver.addChunk dir chunk outcome).2.2 ∧
      parts'.flatten ++ (saver.addChunk dir chunk outcome).2.1.checkpointBuffer.flatten =
        parts.flatten ++ saver.checkpointBuffer.flatten ++ chunk := by
  have hgrown := h.withBuffer (saver.checkpointBuffer ++ [chunk])
  have hflat : parts.flatten ++ (saver.checkpointBuffer ++ [chunk]).flatten =
      parts.flatten ++ saver.checkpointBuffer.flatten ++ chunk := by simp
  rw [addChunk]
  split_ifs with hfull
  · obtain ⟨parts', hparts, heq⟩ := saveAndClear_holds hgrown outcome
    exact ⟨parts', hparts, heq.trans hflat⟩
  · exact ⟨parts, hgrown, hflat⟩

/-- A sequence of calls keeps every sample received, in order. -/
theorem addChunks_holds {saver : IncrementalAudioSaver} {dir : Directory}
    (h : Holds parts saver dir) (calls : List (List Sample × SaveOutcome)) :
    ∃ parts', Holds parts' (addChunks (saver, dir) calls).1 (addChunks (saver, dir) calls).2 ∧
      parts'.flatten ++ (addChunks (saver, dir) calls).1.checkpointBuffer.flatten =
        parts.flatten ++ saver.checkpointBuffer.flatten ++ calls.flatMap Prod.fst := by
  induction calls generalizing parts saver dir with
  | nil => exact ⟨parts, h, by simp [addChunks]⟩
  | cons call calls ih =>
    obtain ⟨chunk, outcome⟩ := call
    obtain ⟨parts₁, hparts₁, heq₁⟩ := addChunk_holds h chunk outcome
    obtain ⟨parts₂, hparts₂, heq₂⟩ := ih hparts₁
    refine ⟨parts₂, hparts₂, ?_⟩
    rw [addChunks, heq₂, heq₁, List.flatMap_cons, List.append_assoc]

/-- Looking up the first indices of a list gives its first elements. -/
theorem map_range_getD {parts : List (List Sample)} {k : ℕ} (hk : k ≤ parts.length) :
    (List.range k).map (fun i => (parts[i]?).getD []) = parts.take k := by
  apply List.ext_getElem
  · rw [List.length_map, List.length_range, List.length_take, min_eq_left hk]
  · intro i hi hi'
    rw [List.getElem_map, List.getElem_range, List.getElem_take, List.getElem?_eq_getElem,
      Option.getD_some]

/-- The samples in the first `n` checkpoint files, in index order. -/
def finishedSamples (dir : Directory) (n : ℕ) : List Sample :=
  (List.range n).flatMap fun i => readSamples ((dir (checkpointName i)).getD [])

theorem Holds.finishedSamples_eq (h : Holds parts saver dir) :
    finishedSamples dir saver.checkpointCount = parts.flatten := by
  have hpart : ∀ i ∈ List.range parts.length,
      readSamples ((dir (checkpointName i)).getD []) = (parts[i]?).getD [] := by
    intro i hi
    have hget := List.getElem?_eq_getElem (List.mem_range.mp hi)
    rw [h.file i _ hget, hget, Option.getD_some, Option.getD_some, readSamples_castSlice]
  rw [finishedSamples, h.count, List.flatMap_congr hpart, List.flatMap_def,
    map_range_getD (le_refl _), List.take_length]

/-- **No audio is lost or duplicated by disk errors.** After any calls, whatever write or rename
failed on the way, the finished files in index order followed by the buffer are the samples
received, and the count is the number of finished files. -/
theorem addChunks_lossless (meetingFolder : String) (sampleRate channels : ℕ)
    (calls : List (List Sample × SaveOutcome)) :
    let state := addChunks (fresh meetingFolder sampleRate channels) calls
    finishedSamples state.2 state.1.checkpointCount ++ state.1.checkpointBuffer.flatten =
        calls.flatMap Prod.fst ∧
      ∀ listing, state.2.Lists listing →
        (listCheckpointFiles listing checkpointExtension).length = state.1.checkpointCount ∧
        (listCheckpointFiles listing checkpointExtension).Perm
          ((List.range state.1.checkpointCount).map checkpointName) := by
  obtain ⟨parts, hparts, heq⟩ :=
    addChunks_holds (holds_fresh meetingFolder sampleRate channels) calls
  intro state
  refine ⟨?_, fun listing hlist => ?_⟩
  · rw [hparts.finishedSamples_eq]
    exact heq
  · have hperm := (List.mergeSort_perm _ Directory.nameLe).trans (hparts.listing_perm hlist)
    exact ⟨hperm.length_eq.trans (by rw [List.length_map, List.length_range]), hperm⟩

end IncrementalAudioSaver

end MeetilyLocal
