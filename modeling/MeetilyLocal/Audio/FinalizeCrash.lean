import MeetilyLocal.Audio.IncrementalSaverRoundTrip
import MeetilyLocal.Audio.Recovery
import Mathlib.Logic.Relation

/-!
# Where finalizing a recording can be interrupted

`finalize` as the sequence of what it does to the disk (`FinalizeStep`): the last checkpoint is
written under a temporary name and renamed, ffmpeg writes `audio.mp4`, and the checkpoints directory
is removed, file by file. The app can be gone after each of these steps.

As long as there are at most a thousand checkpoints nothing is lost at any of these points: either
every checkpoint is on disk, or `audio.mp4` holds them all (`Finalizing.safe_of_interrupted`).
-/

namespace MeetilyLocal

open IncrementalAudioSaver

/-- Where `finalize` is. -/
inductive FinalizePc : Type where
  /-- it is called, or about to be -/
  | begun : FinalizePc
  /-- the last checkpoint is written -/
  | written : FinalizePc
  /-- it has its name -/
  | saved : FinalizePc
  /-- ffmpeg runs -/
  | encoding : FinalizePc
  /-- it has succeeded -/
  | encoded : FinalizePc
  /-- the checkpoints directory is removed -/
  | removed : FinalizePc
  /-- it has failed -/
  | failed : FinalizePc

/-- A recording that is being finalized. -/
structure Finalizing : Type where
  /-- the saver -/
  saver : IncrementalAudioSaver
  /-- the meeting folder -/
  folder : RecordingFolder
  /-- where `finalize` is -/
  pc : FinalizePc
  /-- the samples of each checkpoint that was saved -/
  parts : List (List Sample)

/-- What a recorded meeting is encoded from: stereo at 48 kHz. -/
def recordedAudio (pcm : List UInt8) : AudioFile := ⟨48000, 2, pcm⟩

/-- The directory is listed and its files are read without errors, in some order and in some
pieces. -/
structure ReadsDirectory (dir : Directory) (outcome : FinalizeOutcome) : Prop where
  /-- the directory is listed -/
  readDir : ∃ listing, outcome.readDir = .ok listing ∧ dir.Lists listing
  /-- each file is read to its end -/
  read : ∀ file bytes, dir file = some bytes → ReadsAs (outcome.read file) bytes

namespace Finalizing

/-- The samples in each of the first `n` checkpoint files. -/
def savedParts (dir : Directory) (n : ℕ) : List (List Sample) :=
  (List.range n).map fun i => readSamples ((dir (checkpointName i)).getD [])

/-- A recording that is over. -/
def start (recorded : IncrementalAudioSaver × Directory) : Finalizing :=
  ⟨recorded.1, ⟨.empty, some recorded.2, none⟩, .begun,
    savedParts recorded.2 recorded.1.checkpointCount⟩

/-- It is over after these chunks, whatever the disk did to the checkpoints on the way. -/
def recorded (meetingFolder : String) (calls : List (List Sample × SaveOutcome)) : Finalizing :=
  start (addChunks (fresh meetingFolder 48000 2) calls)

/-- The checkpoints directory changes. -/
def withDir (st : Finalizing) (dir : Directory) (pc : FinalizePc) : Finalizing :=
  { st with folder := { st.folder with checkpoints := some dir }, pc := pc }

/-- `audio.mp4` changes. -/
def withAudio (st : Finalizing) (audio : Option AudioFile) (pc : FinalizePc) : Finalizing :=
  { st with folder := { st.folder with audio := audio }, pc := pc }

/-- What `finalize` does next to the disk. -/
inductive FinalizeStep : Finalizing → Finalizing → Prop where
  /-- there is nothing left in the buffer -/
  | skip {st : Finalizing} (hpc : st.pc = .begun) (hempty : st.saver.checkpointBuffer.flatten = []) :
    FinalizeStep st { st with saver := { st.saver with checkpointBuffer := [] }, pc := .saved }
  /-- the last checkpoint is written, or not -/
  | write {st : Finalizing} {dir : Directory} (hpc : st.pc = .begun)
      (hfull : st.saver.checkpointBuffer.flatten ≠ []) (hdir : st.folder.checkpoints = some dir)
      (outcome : WriteOutcome) :
    FinalizeStep st (st.withDir (dir.write (partialName st.saver.checkpointCount)
      (castSlice st.saver.checkpointBuffer.flatten) outcome).2
        (match outcome with | .ok => .written | .failed _ _ => .failed))
  /-- it gets its name -/
  | rename {st : Finalizing} {dir : Directory} (hpc : st.pc = .written)
      (hdir : st.folder.checkpoints = some dir) :
    FinalizeStep st { st.withDir (dir.rename (partialName st.saver.checkpointCount)
        (checkpointName st.saver.checkpointCount) .ok).2 .saved with
      saver := { st.saver with
        checkpointBuffer := [], checkpointCount := st.saver.checkpointCount + 1 }
      parts := st.parts ++ [st.saver.checkpointBuffer.flatten] }
  /-- it does not, or there is nothing to encode -/
  | fail {st : Finalizing} (hpc : st.pc = .written ∨ st.pc = .saved) :
    FinalizeStep st { st with pc := .failed }
  /-- ffmpeg starts: from now on `audio.mp4` is what it makes of it -/
  | spawn {st : Finalizing} (hpc : st.pc = .saved) (hcount : st.saver.checkpointCount ≠ 0)
      (audio : Option AudioFile) : FinalizeStep st (st.withAudio audio .encoding)
  /-- it succeeds -/
  | encode {st : Finalizing} {dir : Directory} (hpc : st.pc = .encoding)
      (hdir : st.folder.checkpoints = some dir) (output : String) {outcome : FinalizeOutcome}
      (hread : ReadsDirectory dir outcome) {pcm : List UInt8}
      (hok : st.saver.finalizeMerge output outcome = (pcm, .ok ())) :
    FinalizeStep st (st.withAudio (some (recordedAudio pcm)) .encoded)
  /-- it fails -/
  | encodeFails {st : Finalizing} (hpc : st.pc = .encoding) (audio : Option AudioFile) :
    FinalizeStep st (st.withAudio audio .failed)
  /-- a file of the checkpoints directory is removed -/
  | unlink {st : Finalizing} {dir : Directory} (hpc : st.pc = .encoded)
      (hdir : st.folder.checkpoints = some dir) (file : FileName) :
    FinalizeStep st (st.withDir (Function.update dir file none) .encoded)
  /-- the directory is -/
  | rmdir {st : Finalizing} (hpc : st.pc = .encoded) :
    FinalizeStep st { st with folder := { st.folder with checkpoints := none }, pc := .removed }

/-- `finalize` can have come this far. -/
abbrev Reaches : Finalizing → Finalizing → Prop := Relation.ReflTransGen FinalizeStep

/-- The steps are those of `finalize`: whatever becomes of the last checkpoint, they lead to what
`finalizeSave` leaves. -/
theorem reaches_finalizeSave {st : Finalizing} {dir : Directory} (hpc : st.pc = .begun)
    (hdir : st.folder.checkpoints = some dir) (outcome : SaveOutcome) : ∃ st', Reaches st st' ∧
      st'.saver = (st.saver.finalizeSave dir outcome).2.1 ∧
      st'.folder.checkpoints = some (st.saver.finalizeSave dir outcome).2.2 := by
  obtain ⟨write, rename⟩ := outcome
  unfold finalizeSave
  split
  · exact ⟨st, .refl, rfl, hdir⟩
  by_cases hempty : st.saver.checkpointBuffer.flatten = []
  · refine ⟨_, .single (.skip hpc hempty), ?_, ?_⟩
    · simp [saveAndClear, saveCheckpoint, hempty]
    · simp [saveAndClear, saveCheckpoint, hempty, hdir]
  have hfull : st.saver.checkpointBuffer.flatten.isEmpty = false := by simpa using hempty
  cases write with
  | failed message left =>
    refine ⟨_, .single (.write hpc hempty hdir (.failed message left)), ?_, ?_⟩ <;>
      cases left <;> simp only [saveAndClear, saveCheckpoint, hfull] <;> rfl
  | ok =>
    have hwritten : Reaches st (st.withDir (dir.write (partialName st.saver.checkpointCount)
        (castSlice st.saver.checkpointBuffer.flatten) .ok).2 .written) :=
      .single (.write hpc hempty hdir .ok)
    cases rename with
    | ok =>
      refine ⟨_, hwritten.tail (.rename rfl rfl), ?_, ?_⟩ <;>
        simp only [saveAndClear, saveCheckpoint, hfull] <;> rfl
    | failed message =>
      refine ⟨_, hwritten.tail (.fail (Or.inl rfl)), ?_, ?_⟩ <;>
        simp only [saveAndClear, saveCheckpoint, hfull] <;> rfl

/-! ## What is on disk -/

/-- The file is one that the saver writes. -/
def Own (parts : List (List Sample)) (file : FileName) : Prop :=
  file = checkpointFormatFile ∨ (∃ i < parts.length, file = checkpointName i) ∨
    ∃ i, file = partialName i

/-- The files in the checkpoints directory are the saver's, and the sidecar is the one it wrote. -/
structure OwnFiles (parts : List (List Sample)) (dir : Directory) : Prop where
  /-- there are no others -/
  own : ∀ file, dir file ≠ none → Own parts file
  /-- the sidecar -/
  format : ∀ bytes, dir checkpointFormatFile = some bytes → bytes = formatJson 48000 2

/-- All the checkpoints are on disk. -/
def AllOnDisk (parts : List (List Sample)) (checkpoints : Option Directory) : Prop :=
  ∃ dir, checkpoints = some dir ∧
    ∀ i part, parts[i]? = some part → dir (checkpointName i) = some (castSlice part)

/-- All the samples of the checkpoints, in their order, up to a trailing part of a frame. -/
def fullPcm (parts : List (List Sample)) : List UInt8 :=
  wholeFrames (frameBytes 2) (castSlice parts.flatten)

/-- `audio.mp4` holds all checkpointed samples in order. -/
def Complete (parts : List (List Sample)) (audio : Option AudioFile) : Prop :=
  parts = [] ∨ audio = some (recordedAudio (fullPcm parts))

/-- The checkpointed samples are there, in one form or the other. -/
def Safe (parts : List (List Sample)) (folder : RecordingFolder) : Prop :=
  Complete parts folder.audio ∨ AllOnDisk parts folder.checkpoints

variable {parts : List (List Sample)} {saver : IncrementalAudioSaver} {dir : Directory}
  {st st' : Finalizing} {file : FileName}

theorem OwnFiles.mono (h : OwnFiles parts dir) (part : List Sample) :
    OwnFiles (parts ++ [part]) dir := by
  refine ⟨fun file hfile => ?_, h.format⟩
  rcases h.own file hfile with hformat | ⟨i, hi, hname⟩ | hpartial
  · exact Or.inl hformat
  · exact Or.inr (Or.inl ⟨i, by rw [List.length_append]; omega, hname⟩)
  · exact Or.inr (Or.inr hpartial)

theorem checkpointName_ne_formatFile (n : ℕ) : checkpointName n ≠ checkpointFormatFile := by
  intro h
  have hname := isCheckpointFile_checkpointName n
  rw [h] at hname
  exact absurd hname (by decide)

theorem partialName_ne_formatFile (n : ℕ) : partialName n ≠ checkpointFormatFile := by
  intro h
  have hext : (partialName n).extension = some ['p', 'a', 'r', 't'] := by
    rw [partialName_eq]
    exact FileName.extension_append (by simp) (by decide) (by decide)
  rw [h] at hext
  exact absurd hext (by decide)

/-- Only a file of the saver's, and not the sidecar, changes. -/
theorem OwnFiles.change {dir' : Directory} (h : OwnFiles parts dir)
    (hchange : ∀ file, dir' file ≠ dir file →
      dir' file = none ∨ Own parts file ∧ file ≠ checkpointFormatFile) : OwnFiles parts dir' := by
  refine ⟨fun file hfile => ?_, fun bytes hbytes => ?_⟩
  · by_cases hsame : dir' file = dir file
    · exact h.own file (hsame ▸ hfile)
    · exact ((hchange file hsame).resolve_left hfile).1
  · by_cases hsame : dir' checkpointFormatFile = dir checkpointFormatFile
    · exact h.format bytes (hsame ▸ hbytes)
    · rcases hchange _ hsame with hnone | ⟨-, hne⟩
      · rw [hnone] at hbytes
        cases hbytes
      · exact absurd rfl hne

/-- A checkpoint is a file of the saver's. -/
theorem own_checkpointName {i : ℕ} (hi : i < parts.length) : Own parts (checkpointName i) :=
  Or.inr (Or.inl ⟨i, hi, rfl⟩)

/-- What is left when a save fails, too. -/
theorem own_partialName (i : ℕ) : Own parts (partialName i) := Or.inr (Or.inr ⟨i, rfl⟩)

/-! ## While recording -/

theorem ownFiles_fresh (meetingFolder : String) : OwnFiles [] (fresh meetingFolder 48000 2).2 := by
  have hother : ∀ file, file ≠ checkpointFormatFile → (fresh meetingFolder 48000 2).2 file = none :=
    fun file hfile => Directory.write_of_ne hfile _ .ok
  refine ⟨fun file hfile => Or.inl ?_, fun bytes hbytes => ?_⟩
  · by_contra hne
    exact hfile (hother file hne)
  · have hself : (fresh meetingFolder 48000 2).2 checkpointFormatFile = some (formatJson 48000 2) := by
      simp [fresh, Directory.write]
    rw [hself] at hbytes
    exact (Option.some.inj hbytes).symm

theorem ownFiles_saveAndClear (hholds : Holds parts saver dir) (h : OwnFiles parts dir)
    (outcome : SaveOutcome) : ∃ parts',
      Holds parts' (saver.saveAndClear dir outcome).2.1 (saver.saveAndClear dir outcome).2.2 ∧
      OwnFiles parts' (saver.saveAndClear dir outcome).2.2 ∧
      (saver.saveAndClear dir outcome).2.1.channels = saver.channels := by
  rcases saver.saveCheckpoint_cases dir outcome with
    ⟨message, dir', hsave, hsame⟩ | ⟨hempty, hsave⟩ | ⟨-, dir', hsave, hnew, hsame⟩
  · rw [saveAndClear, hsave]
    refine ⟨parts, hholds.congr hsame, h.change fun file hfile => ?_, rfl⟩
    obtain rfl : file = partialName saver.checkpointCount := by
      by_contra hne
      exact hfile (hsame file hne)
    exact Or.inr ⟨own_partialName _, partialName_ne_formatFile _⟩
  · rw [saveAndClear, hsave]
    exact ⟨parts, hholds.withBuffer [], h, rfl⟩
  · rw [saveAndClear, hsave]
    refine ⟨parts ++ [saver.checkpointBuffer.flatten], (hholds.snoc hnew hsame).withBuffer [],
      (h.mono _).change fun file hfile => ?_, rfl⟩
    by_cases hname : file = checkpointName saver.checkpointCount
    · subst hname
      refine Or.inr ⟨own_checkpointName ?_, checkpointName_ne_formatFile _⟩
      rw [hholds.count, List.length_append, List.length_singleton]
      exact Nat.lt_succ_self _
    · obtain rfl : file = partialName saver.checkpointCount := by
        by_contra hne
        exact hfile (hsame file hname hne)
      exact Or.inr ⟨own_partialName _, partialName_ne_formatFile _⟩

/-- After any calls the checkpoints directory holds the saver's files. -/
theorem ownFiles_addChunks {saver : IncrementalAudioSaver} {dir : Directory}
    (hholds : Holds parts saver dir) (h : OwnFiles parts dir)
    (calls : List (List Sample × SaveOutcome)) : ∃ parts',
      Holds parts' (addChunks (saver, dir) calls).1 (addChunks (saver, dir) calls).2 ∧
      OwnFiles parts' (addChunks (saver, dir) calls).2 ∧
      (addChunks (saver, dir) calls).1.channels = saver.channels := by
  induction calls generalizing parts saver dir with
  | nil => exact ⟨parts, hholds, h, rfl⟩
  | cons call calls ih =>
    obtain ⟨chunk, outcome⟩ := call
    have hgrown := hholds.withBuffer (saver.checkpointBuffer ++ [chunk])
    rw [addChunks, addChunk]
    split
    · obtain ⟨parts₁, hholds₁, hown₁, hchannels₁⟩ := ownFiles_saveAndClear hgrown h outcome
      obtain ⟨parts₂, hholds₂, hown₂, hchannels₂⟩ := ih hholds₁ hown₁
      exact ⟨parts₂, hholds₂, hown₂, hchannels₂.trans hchannels₁⟩
    · exact ih hgrown h

/-- What `Holds` says is in the files is in them. -/
theorem savedParts_eq (h : Holds parts saver dir) :
    savedParts dir saver.checkpointCount = parts := by
  refine List.ext_getElem (by simp [savedParts, h.count]) fun i hi hi' => ?_
  simp [savedParts, h.file i _ (List.getElem?_eq_getElem hi'), readSamples_castSlice]

/-! ## While finalizing -/

/-- What is known of a recording at each point of `finalize`. -/
def AtPc (st : Finalizing) : Prop :=
  match st.pc with
  | .begun | .saved | .failed =>
    ∃ dir, st.folder.checkpoints = some dir ∧ Holds st.parts st.saver dir
  | .written => ∃ dir, st.folder.checkpoints = some dir ∧ Holds st.parts st.saver dir ∧
      dir (partialName st.saver.checkpointCount) =
        some (castSlice st.saver.checkpointBuffer.flatten)
  | .encoding => ∃ dir, st.folder.checkpoints = some dir ∧ Holds st.parts st.saver dir ∧
      st.parts ≠ []
  | .encoded | .removed => st.parts ≠ [] ∧
      (st.parts.length ≤ 1000 → st.folder.audio = some (recordedAudio (fullPcm st.parts)))

/-- The invariant of `finalize`. -/
structure Sound (st : Finalizing) : Prop where
  /-- it is where it is -/
  atPc : AtPc st
  /-- the recording is in stereo -/
  channels : st.saver.channels = 2
  /-- the checkpoints directory holds the saver's files -/
  own : ∀ dir, st.folder.checkpoints = some dir → OwnFiles st.parts dir
  /-- where nothing was saved nothing is encoded -/
  nothing : st.parts = [] → st.folder.audio = none

theorem sound_recorded (meetingFolder : String) (calls : List (List Sample × SaveOutcome)) :
    Sound (recorded meetingFolder calls) := by
  obtain ⟨parts, hholds, hown, hchannels⟩ := ownFiles_addChunks
    (holds_fresh meetingFolder 48000 2) (ownFiles_fresh meetingFolder) calls
  have hparts : (recorded meetingFolder calls).parts = parts := savedParts_eq hholds
  refine ⟨⟨_, rfl, ?_⟩, hchannels, ?_, fun _ => rfl⟩
  · rw [hparts]
    exact hholds
  · rintro dir hdir
    obtain rfl := Option.some.inj hdir
    rw [hparts]
    exact hown

/-- When an encode succeeds: there is something to encode, it is all read, and ffmpeg reports
success. -/
theorem encodePcmFilesToAac_eq_ok {inputs : List FileReads} {channels : ℕ}
    {exit : Except String Unit} {pcm : List UInt8} :
    encodePcmFilesToAac inputs channels exit = (pcm, .ok ()) ↔
      inputs ≠ [] ∧ feedFiles (frameBytes channels) ([], []) inputs = (pcm, none) ∧
        exit = .ok () := by
  unfold encodePcmFilesToAac
  cases inputs with
  | nil => simp
  | cons input inputs =>
    rcases feedFiles (frameBytes channels) ([], []) (input :: inputs) with ⟨written, _ | message⟩
    · simp
    · simp

/-- An encode that succeeds has read everything, and ffmpeg has too. -/
theorem succeeds_of_finalizeMerge {output : String} {outcome : FinalizeOutcome} {pcm : List UInt8}
    (hread : ReadsDirectory dir outcome) (hok : saver.finalizeMerge output outcome = (pcm, .ok ())) :
    Succeeds dir outcome := by
  suffices hboth : outcome.exit = .ok () ∧ outcome.outputExists = true from
    ⟨hread.readDir, hread.read, hboth.1, hboth.2⟩
  obtain ⟨listing, hlisting, -⟩ := hread.readDir
  unfold finalizeMerge at hok
  split at hok
  · cases hok
  simp only [encodeCheckpoints, hlisting] at hok
  split at hok
  · cases hok
  split at hok
  · cases hok
  · next hencode =>
    refine ⟨(encodePcmFilesToAac_eq_ok.mp hencode).2.2, ?_⟩
    by_contra hmissing
    simp [hmissing] at hok

/-- Up to a thousand checkpoints are encoded in order. -/
theorem finalizeMerge_full {output : String} {outcome : FinalizeOutcome} {pcm : List UInt8}
    (hholds : Holds parts saver dir) (hchannels : saver.channels = 2)
    (hread : ReadsDirectory dir outcome) (hok : saver.finalizeMerge output outcome = (pcm, .ok ()))
    (hle : parts.length ≤ 1000) : pcm = fullPcm parts := by
  obtain ⟨files, -, -, hfiles, hfed⟩ :=
    hholds.finalizeMerge_eq (succeeds_of_finalizeMerge hread hok) output
  rw [hok] at hfed
  calc pcm = wholeFrames (frameBytes saver.channels) (files.flatMap (contentOf dir)) := hfed
    _ = fullPcm parts := by
      rw [hfiles hle, hholds.flatMap_contentOf (le_refl _), List.take_length, hchannels, fullPcm]

/-- A change of files that are no checkpoints and not the sidecar. -/
theorem Sound.ownChange {dir' : Directory} (h : Sound st) (hdir : st.folder.checkpoints = some dir)
    (hsame : ∀ file, file ≠ partialName st.saver.checkpointCount → dir' file = dir file) :
    OwnFiles st.parts dir' := by
  refine (h.own dir hdir).change fun file hfile => Or.inr ?_
  obtain rfl : file = partialName st.saver.checkpointCount := by
    by_contra hne
    exact hfile (hsame file hne)
  exact ⟨own_partialName _, partialName_ne_formatFile _⟩

/-- Writing the last checkpoint. -/
theorem Sound.write (h : Sound st) (hpc : st.pc = .begun) (hdir : st.folder.checkpoints = some dir)
    (outcome : WriteOutcome) :
    Sound (st.withDir (dir.write (partialName st.saver.checkpointCount)
      (castSlice st.saver.checkpointBuffer.flatten) outcome).2
        (match outcome with | .ok => .written | .failed _ _ => .failed)) := by
  have hat := h.atPc
  simp only [AtPc, hpc] at hat
  obtain ⟨dir₀, hdir₀, hholds⟩ := hat
  obtain rfl : dir₀ = dir := Option.some.inj (hdir₀.symm.trans hdir)
  have hsame : ∀ file, file ≠ partialName st.saver.checkpointCount →
      (dir₀.write (partialName st.saver.checkpointCount)
        (castSlice st.saver.checkpointBuffer.flatten) outcome).2 file = dir₀ file :=
    fun file hfile => Directory.write_of_ne hfile _ _
  refine ⟨?_, h.channels, ?_, h.nothing⟩
  · cases outcome with
    | ok => exact ⟨_, rfl, hholds.congr hsame, by simp [Directory.write, withDir]⟩
    | failed message left => exact ⟨_, rfl, hholds.congr hsame⟩
  · rintro dir' hdir'
    obtain rfl := Option.some.inj hdir'
    exact h.ownChange hdir hsame

/-- Renaming it. -/
theorem Sound.rename (h : Sound st) (hpc : st.pc = .written)
    (hdir : st.folder.checkpoints = some dir) :
    Sound { st.withDir (dir.rename (partialName st.saver.checkpointCount)
        (checkpointName st.saver.checkpointCount) .ok).2 .saved with
      saver := { st.saver with
        checkpointBuffer := [], checkpointCount := st.saver.checkpointCount + 1 }
      parts := st.parts ++ [st.saver.checkpointBuffer.flatten] } := by
  have hat := h.atPc
  simp only [AtPc, hpc] at hat
  obtain ⟨dir₀, hdir₀, hholds, hpartial⟩ := hat
  obtain rfl : dir₀ = dir := Option.some.inj (hdir₀.symm.trans hdir)
  have hne := checkpointName_ne_partialName st.saver.checkpointCount st.saver.checkpointCount
  have hnew : (dir₀.rename (partialName st.saver.checkpointCount)
      (checkpointName st.saver.checkpointCount) .ok).2 (checkpointName st.saver.checkpointCount) =
        some (castSlice st.saver.checkpointBuffer.flatten) := by
    simp [Directory.rename, Function.update_of_ne hne, hpartial]
  have hsame : ∀ file, file ≠ checkpointName st.saver.checkpointCount →
      file ≠ partialName st.saver.checkpointCount →
        (dir₀.rename (partialName st.saver.checkpointCount)
          (checkpointName st.saver.checkpointCount) .ok).2 file = dir₀ file := by
    intro file hname hpart
    simp [Directory.rename, Function.update_of_ne hname, Function.update_of_ne hpart]
  refine ⟨⟨_, rfl, (hholds.snoc hnew hsame).withBuffer []⟩, h.channels, ?_, by simp⟩
  rintro dir' hdir'
  obtain rfl := Option.some.inj hdir'
  refine ((h.own dir₀ hdir).mono _).change fun file hfile => Or.inr ?_
  by_cases hname : file = checkpointName st.saver.checkpointCount
  · subst hname
    refine ⟨own_checkpointName ?_, checkpointName_ne_formatFile _⟩
    rw [hholds.count, List.length_append, List.length_singleton]
    exact Nat.lt_succ_self _
  · obtain rfl : file = partialName st.saver.checkpointCount := by
      by_contra hpart
      exact hfile (hsame file hname hpart)
    exact ⟨own_partialName _, partialName_ne_formatFile _⟩

/-- **Every step of `finalize` keeps the invariant.** -/
theorem Sound.step (h : Sound st) (hstep : FinalizeStep st st') : Sound st' := by
  have hat := h.atPc
  cases hstep with
  | skip hpc hempty =>
    simp only [AtPc, hpc] at hat
    obtain ⟨dir, hdir, hholds⟩ := hat
    exact ⟨⟨dir, hdir, hholds.withBuffer []⟩, h.channels, h.own, h.nothing⟩
  | write hpc hfull hdir outcome => exact h.write hpc hdir outcome
  | rename hpc hdir => exact h.rename hpc hdir
  | fail hpc =>
    refine ⟨?_, h.channels, h.own, h.nothing⟩
    rcases hpc with hpc | hpc
    · simp only [AtPc, hpc] at hat
      obtain ⟨dir, hdir, hholds, -⟩ := hat
      exact ⟨dir, hdir, hholds⟩
    · simp only [AtPc, hpc] at hat
      exact hat
  | spawn hpc hcount audio =>
    simp only [AtPc, hpc] at hat
    obtain ⟨dir, hdir, hholds⟩ := hat
    have hparts : st.parts ≠ [] := by
      intro hnil
      exact hcount (hholds.count.trans (by rw [hnil]; rfl))
    exact ⟨⟨dir, hdir, hholds, hparts⟩, h.channels, h.own, fun hnil => absurd hnil hparts⟩
  | encode hpc hdir output hread hok =>
    simp only [AtPc, hpc] at hat
    obtain ⟨dir₀, hdir₀, hholds, hparts⟩ := hat
    obtain rfl := Option.some.inj (hdir₀.symm.trans hdir)
    refine ⟨⟨hparts, fun hle => ?_⟩, h.channels, h.own, fun hnil => absurd hnil hparts⟩
    rw [finalizeMerge_full hholds h.channels hread hok hle]
    rfl
  | encodeFails hpc audio =>
    simp only [AtPc, hpc] at hat
    obtain ⟨dir, hdir, hholds, hparts⟩ := hat
    exact ⟨⟨dir, hdir, hholds⟩, h.channels, h.own, fun hnil => absurd hnil hparts⟩
  | unlink hpc hdir file =>
    simp only [AtPc, hpc] at hat
    refine ⟨hat, h.channels, ?_, h.nothing⟩
    rintro dir' hdir'
    obtain rfl := Option.some.inj hdir'
    refine (h.own _ hdir).change fun file' hfile' => Or.inl ?_
    obtain rfl : file' = file := by
      by_contra hne
      exact hfile' (Function.update_of_ne hne _ _)
    exact Function.update_self _ _ _
  | rmdir hpc =>
    simp only [AtPc, hpc] at hat
    exact ⟨hat, h.channels, nofun, h.nothing⟩

/-- Wherever `finalize` is interrupted. -/
theorem sound_of_reaches {meetingFolder : String} {calls : List (List Sample × SaveOutcome)}
    (h : Reaches (recorded meetingFolder calls) st) : Sound st := by
  induction h with
  | refl => exact sound_recorded meetingFolder calls
  | tail _ hstep ih => exact ih.step hstep

/-- **Finalizing loses nothing by itself.** With at most a thousand checkpoints, at each point every
checkpoint is on disk or `audio.mp4` holds them all. -/
theorem safe_of_interrupted {meetingFolder : String} {calls : List (List Sample × SaveOutcome)}
    (h : Reaches (recorded meetingFolder calls) st) (hle : st.parts.length ≤ 1000) :
    Safe st.parts st.folder := by
  have hat := (sound_of_reaches h).atPc
  rcases hpc : st.pc with _ | _ | _ | _ | _ | _ | _ <;> simp only [AtPc, hpc] at hat
  · obtain ⟨dir, hdir, hholds⟩ := hat
    exact Or.inr ⟨dir, hdir, hholds.file⟩
  · obtain ⟨dir, hdir, hholds, -⟩ := hat
    exact Or.inr ⟨dir, hdir, hholds.file⟩
  · obtain ⟨dir, hdir, hholds⟩ := hat
    exact Or.inr ⟨dir, hdir, hholds.file⟩
  · obtain ⟨dir, hdir, hholds, -⟩ := hat
    exact Or.inr ⟨dir, hdir, hholds.file⟩
  · exact Or.inl (Or.inr (hat.2 hle))
  · exact Or.inl (Or.inr (hat.2 hle))
  · obtain ⟨dir, hdir, hholds⟩ := hat
    exact Or.inr ⟨dir, hdir, hholds.file⟩

end Finalizing

end MeetilyLocal
